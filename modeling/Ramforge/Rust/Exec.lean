/-
Stateful Rust calls: a result, an error or a panic, together with the state left.

A method `fn m(&mut self, ..) -> Result<T, E>` may change `self` before it
returns `Err`, and before it panics.  `Exec σ ε α` keeps the state on all three
exits, so that error atomicity is a statement about a method and not a
consequence of how the method was written down.
-/
import Mathlib.Tactic

namespace Rust

/-- How a call ends: `Ok`, `Err`, or an unwinding panic with its message. -/
inductive Outcome (ε α : Type) where
  | ok (value : α)
  | err (error : ε)
  | panic (message : String)
deriving DecidableEq, Repr

namespace Outcome

variable {ε ε' α β : Type}

def IsPanic : Outcome ε α → Prop
  | .panic _ => True
  | _ => False

def map (f : α → β) : Outcome ε α → Outcome ε β
  | .ok a => .ok (f a)
  | .err e => .err e
  | .panic p => .panic p

@[simp] theorem map_ok (f : α → β) (a : α) : (ok a : Outcome ε α).map f = .ok (f a) := rfl
@[simp] theorem map_err (f : α → β) (e : ε) : (err e : Outcome ε α).map f = .err e := rfl
@[simp] theorem map_panic (f : α → β) (p : String) :
    (panic p : Outcome ε α).map f = .panic p := rfl

/-- How a call ends, without what it returns. -/
def kind : Outcome ε α → Outcome Unit Unit
  | .ok _ => .ok ()
  | .err _ => .err ()
  | .panic p => .panic p

def mapErr (f : ε → ε') : Outcome ε α → Outcome ε' α
  | .ok a => .ok a
  | .err e => .err (f e)
  | .panic p => .panic p

@[simp] theorem mapErr_ok (f : ε → ε') (a : α) : (ok a : Outcome ε α).mapErr f = .ok a := rfl
@[simp] theorem mapErr_err (f : ε → ε') (e : ε) :
    (err e : Outcome ε α).mapErr f = .err (f e) := rfl
@[simp] theorem mapErr_panic (f : ε → ε') (p : String) :
    (panic p : Outcome ε α).mapErr f = .panic p := rfl

end Outcome

/-- A call on a state `σ` that may return `α`, fail with `ε`, or panic. -/
def Exec (σ ε α : Type) : Type := σ → Outcome ε α × σ

namespace Exec

variable {σ τ κ ε ε' α β : Type}

protected def pure (a : α) : Exec σ ε α := fun s => (.ok a, s)

protected def bind (m : Exec σ ε α) (k : α → Exec σ ε β) : Exec σ ε β := fun s =>
  match m s with
  | (.ok a, s') => k a s'
  | (.err e, s') => (.err e, s')
  | (.panic p, s') => (.panic p, s')

instance : Monad (Exec σ ε) where
  pure := Exec.pure
  bind := Exec.bind

instance : LawfulMonad (Exec σ ε) := LawfulMonad.mk' _
  (by
    intro α x
    funext s
    show (match x s with | (.ok a, s') => _ | (.err e, s') => _ | (.panic p, s') => _) = x s
    rcases x s with ⟨_ | _ | _, _⟩ <;> rfl)
  (fun _ _ => rfl)
  (by
    intro α β γ x f g
    funext s
    show Exec.bind (Exec.bind x f) g s = Exec.bind x (fun a => Exec.bind (f a) g) s
    unfold Exec.bind
    rcases x s with ⟨_ | _ | _, _⟩ <;> rfl)

instance : MonadStateOf σ (Exec σ ε) where
  get := fun s => (.ok s, s)
  set s := fun _ => (.ok (), s)
  modifyGet f := fun s => (.ok (f s).1, (f s).2)

instance : MonadExceptOf ε (Exec σ ε) where
  throw e := fun s => (.err e, s)
  tryCatch m h := fun s =>
    match m s with
    | (.err e, s') => h e s'
    | r => r

/-- The state a method reads through `self`. -/
def self : Exec σ ε σ := fun s => (.ok s, s)

/-- `if c { return Err(e); }`. -/
def failIf (c : Prop) [Decidable c] (e : ε) : Exec σ ε Unit :=
  if c then throw e else pure ()

/-- `if c { return Err(..); }` where the error is built by further calls. -/
def failIfM (c : Prop) [Decidable c] (m : Exec σ ε ε) : Exec σ ε Unit :=
  if c then m >>= throw else pure ()

/-- `panic!` and the failing side of `expect`. -/
def panic (message : String) : Exec σ ε α := fun s => (.panic message, s)

/-- `Option::ok_or`. -/
def okOr (o : Option α) (e : ε) : Exec σ ε α :=
  match o with
  | some a => pure a
  | none => throw e

/-- `Option::expect`. -/
def expect (o : Option α) (message : String) : Exec σ ε α :=
  match o with
  | some a => pure a
  | none => panic message

/-- A `Result` already computed, under `?`. -/
def ofResult (r : Except ε α) : Exec σ ε α :=
  match r with
  | .ok a => pure a
  | .error e => throw e

/-- `Result::map_err`. -/
def mapErr (f : ε → ε') (m : Exec σ ε α) : Exec σ ε' α := fun s =>
  ((m s).1.mapErr f, (m s).2)

/-- `Result::unwrap_or_else(|error| panic!(..))`. -/
def orPanic (m : Exec σ ε α) (message : ε → String) : Exec σ ε' α := fun s =>
  match m s with
  | (.ok a, s') => (.ok a, s')
  | (.err e, s') => (.panic (message e), s')
  | (.panic p, s') => (.panic p, s')

/-- Keep a returned `Result` as a value instead of propagating its error. -/
def attempt (m : Exec σ ε α) : Exec σ ε' (Except ε α) := fun s =>
  match m s with
  | (.ok a, s') => (.ok (.ok a), s')
  | (.err e, s') => (.ok (.error e), s')
  | (.panic p, s') => (.panic p, s')

/-- `catch_unwind`: the outcome becomes a value, panics included. -/
def catchUnwind (m : Exec σ ε α) : Exec σ ε' (Outcome ε α) := fun s =>
  (.ok (m s).1, (m s).2)

/-- Return, fail or resume unwinding with an outcome already computed. -/
def resume (o : Outcome ε α) : Exec σ ε α := fun s => (o, s)

/-- A call on the second component: the first is what the caller keeps aside. -/
def onSnd (m : Exec τ ε α) : Exec (κ × τ) ε α := fun s =>
  ((m s.2).1, (s.1, (m s.2).2))

/-- A call on the first component. -/
def onFst (m : Exec κ ε α) : Exec (κ × τ) ε α := fun s =>
  ((m s.1).1, ((m s.1).2, s.2))

section run

variable (s : σ)

@[simp] theorem pure_run (a : α) : (pure a : Exec σ ε α) s = (.ok a, s) := rfl

theorem bind_run (m : Exec σ ε α) (k : α → Exec σ ε β) :
    (m >>= k) s =
      match m s with
      | (.ok a, s') => k a s'
      | (.err e, s') => (.err e, s')
      | (.panic p, s') => (.panic p, s') := rfl

/-- The three ways through a bind, as rewrite rules for a known first call. -/
theorem bind_of_ok {m : Exec σ ε α} {k : α → Exec σ ε β} {s s' : σ} {a : α}
    (h : m s = (.ok a, s')) : (m >>= k) s = k a s' := by
  rw [bind_run, h]

theorem bind_of_err {m : Exec σ ε α} {k : α → Exec σ ε β} {s s' : σ} {e : ε}
    (h : m s = (.err e, s')) : (m >>= k) s = (.err e, s') := by
  rw [bind_run, h]

theorem bind_of_panic {m : Exec σ ε α} {k : α → Exec σ ε β} {s s' : σ} {p : String}
    (h : m s = (.panic p, s')) : (m >>= k) s = (.panic p, s') := by
  rw [bind_run, h]

@[simp] theorem pure_bind_run (a : α) (k : α → Exec σ ε β) :
    ((pure a : Exec σ ε α) >>= k) s = k a s := rfl

@[simp] theorem throw_run (e : ε) : (throw e : Exec σ ε α) s = (.err e, s) := rfl

@[simp] theorem throw_bind_run (e : ε) (k : α → Exec σ ε β) :
    ((throw e : Exec σ ε α) >>= k) s = (.err e, s) := rfl

@[simp] theorem panic_run (p : String) : (panic p : Exec σ ε α) s = (.panic p, s) := rfl

@[simp] theorem panic_bind_run (p : String) (k : α → Exec σ ε β) :
    ((panic p : Exec σ ε α) >>= k) s = (.panic p, s) := rfl

@[simp] theorem self_run : (self : Exec σ ε σ) s = (.ok s, s) := rfl

@[simp] theorem self_bind_run (k : σ → Exec σ ε β) :
    ((self : Exec σ ε σ) >>= k) s = k s s := rfl

@[simp] theorem modify_run (f : σ → σ) : (modify f : Exec σ ε PUnit) s = (.ok (), f s) := rfl

@[simp] theorem modify_bind_run (f : σ → σ) (k : PUnit → Exec σ ε β) :
    ((modify f : Exec σ ε PUnit) >>= k) s = k () (f s) := rfl

@[simp] theorem map_run (f : α → β) (m : Exec σ ε α) :
    (f <$> m) s = ((m s).1.map f, (m s).2) := by
  show Exec.bind m (fun a => Exec.pure (f a)) s = _
  unfold Exec.bind
  rcases m s with ⟨_ | _ | _, _⟩ <;> rfl

@[simp] theorem failIf_bind_run (c : Prop) [Decidable c] (e : ε) (k : Unit → Exec σ ε β) :
    ((failIf c e : Exec σ ε Unit) >>= k) s = if c then (.err e, s) else k () s := by
  by_cases h : c <;> simp [failIf, h]

@[simp] theorem failIfM_bind_run (c : Prop) [Decidable c] (m : Exec σ ε ε)
    (k : Unit → Exec σ ε β) :
    (failIfM c m >>= k) s = if c then (m >>= throw : Exec σ ε β) s else k () s := by
  by_cases h : c
  · simp only [failIfM, h, if_true, bind_run]
    rcases m s with ⟨_ | _ | _, _⟩ <;> rfl
  · simp [failIfM, h]

@[simp] theorem okOr_bind_run (o : Option α) (e : ε) (k : α → Exec σ ε β) :
    ((okOr o e : Exec σ ε α) >>= k) s =
      match o with
      | some a => k a s
      | none => (.err e, s) := by
  cases o <;> rfl

@[simp] theorem expect_bind_run (o : Option α) (p : String) (k : α → Exec σ ε β) :
    ((expect o p : Exec σ ε α) >>= k) s =
      match o with
      | some a => k a s
      | none => (.panic p, s) := by
  cases o <;> rfl

@[simp] theorem ofResult_ok_bind_run (a : α) (k : α → Exec σ ε β) :
    ((ofResult (.ok a) : Exec σ ε α) >>= k) s = k a s := rfl

@[simp] theorem ofResult_error_bind_run (e : ε) (k : α → Exec σ ε β) :
    ((ofResult (.error e) : Exec σ ε α) >>= k) s = (.err e, s) := rfl

@[simp] theorem okOr_some (a : α) (e : ε) : (okOr (some a) e : Exec σ ε α) = pure a := rfl

@[simp] theorem okOr_none (e : ε) : (okOr none e : Exec σ ε α) = throw e := rfl

@[simp] theorem expect_some (a : α) (p : String) :
    (expect (some a) p : Exec σ ε α) = pure a := rfl

@[simp] theorem expect_none (p : String) : (expect none p : Exec σ ε α) = panic p := rfl

@[simp] theorem resume_run (o : Outcome ε α) : (resume o : Exec σ ε α) s = (o, s) := rfl

@[simp] theorem catchUnwind_run (m : Exec σ ε α) :
    (catchUnwind m : Exec σ ε' _) s = (.ok (m s).1, (m s).2) := rfl

@[simp] theorem mapErr_run (f : ε → ε') (m : Exec σ ε α) :
    mapErr f m s = ((m s).1.mapErr f, (m s).2) := rfl

@[simp] theorem onSnd_run (m : Exec τ ε α) (s : κ × τ) :
    onSnd m s = ((m s.2).1, (s.1, (m s.2).2)) := rfl

@[simp] theorem onFst_run (m : Exec κ ε α) (s : κ × τ) :
    onFst m s = ((m s.1).1, ((m s.1).2, s.2)) := rfl

end run

/-! ## Inversion

What a call that returned did on its way. -/

theorem of_bind_ok {m : Exec σ ε α} {k : α → Exec σ ε β} {s s' : σ} {b : β}
    (h : (m >>= k) s = (.ok b, s')) : ∃ a s₁, m s = (.ok a, s₁) ∧ k a s₁ = (.ok b, s') := by
  rw [bind_run] at h
  rcases hm : m s with ⟨a | e | p, s₁⟩ <;> rw [hm] at h
  · exact ⟨a, s₁, rfl, h⟩
  · cases h
  · cases h

theorem of_failIf_ok {c : Prop} [Decidable c] {e : ε} {s s' : σ} {u : Unit}
    (h : (failIf c e : Exec σ ε Unit) s = (.ok u, s')) : ¬c ∧ s' = s := by
  unfold failIf at h
  split at h
  · cases h
  · cases h
    exact ⟨by assumption, rfl⟩

theorem of_failIf_bind_ok {c : Prop} [Decidable c] {e : ε} {k : Unit → Exec σ ε β} {s s' : σ}
    {b : β} (h : ((failIf c e : Exec σ ε Unit) >>= k) s = (.ok b, s')) :
    ¬c ∧ k () s = (.ok b, s') := by
  rw [failIf_bind_run] at h
  split at h
  · cases h
  · exact ⟨by assumption, h⟩

theorem of_okOr_bind_ok {o : Option α} {e : ε} {k : α → Exec σ ε β} {s s' : σ} {b : β}
    (h : ((okOr o e : Exec σ ε α) >>= k) s = (.ok b, s')) :
    ∃ a, o = some a ∧ k a s = (.ok b, s') := by
  cases o with
  | none => cases h
  | some a => exact ⟨a, rfl, h⟩

theorem of_expect_bind_ok {o : Option α} {p : String} {k : α → Exec σ ε β} {s s' : σ} {b : β}
    (h : ((expect o p : Exec σ ε α) >>= k) s = (.ok b, s')) :
    ∃ a, o = some a ∧ k a s = (.ok b, s') := by
  cases o with
  | none => cases h
  | some a => exact ⟨a, rfl, h⟩

theorem of_ofResult_bind_ok {r : Except ε α} {k : α → Exec σ ε β} {s s' : σ} {b : β}
    (h : ((ofResult r : Exec σ ε α) >>= k) s = (.ok b, s')) :
    ∃ a, r = .ok a ∧ k a s = (.ok b, s') := by
  cases r with
  | error e => cases h
  | ok a => exact ⟨a, rfl, h⟩

/-! ## Invariants

`Keeps I m` says that `m` leaves `I` true however it ends.  The rules below
follow the constructors of a call, so the proof for a composite call is the
composition of the proofs for its steps. -/

/-- `I` holds after the call if it held before, on every exit. -/
def Keeps (I : σ → Prop) (m : Exec σ ε α) : Prop := ∀ s, I s → I (m s).2

namespace Keeps

variable {I : σ → Prop}

theorem bind {m : Exec σ ε α} {k : α → Exec σ ε β} (hm : Keeps I m)
    (hk : ∀ a, Keeps I (k a)) : Keeps I (m >>= k) := by
  intro s hs
  have hs' := hm s hs
  rw [bind_run]
  rcases hms : m s with ⟨_ | _ | _, s'⟩ <;> rw [hms] at hs'
  · exact hk _ s' hs'
  · exact hs'
  · exact hs'

theorem pure (a : α) : Keeps I (pure a : Exec σ ε α) := fun _ hs => hs

theorem resume (o : Outcome ε α) : Keeps I (resume o) := fun _ hs => hs

end Keeps

end Exec
end Rust
