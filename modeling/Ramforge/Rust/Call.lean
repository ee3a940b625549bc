/-
Fallible Rust calls that keep no state.

`Outcome ε` is the monad of functions that take their arguments by shared
reference: they return, fail, or panic.
-/
import Ramforge.Rust.Exec

namespace Rust
namespace Outcome

variable {ε α β : Type}

protected def bind (m : Outcome ε α) (k : α → Outcome ε β) : Outcome ε β :=
  match m with
  | .ok a => k a
  | .err e => .err e
  | .panic p => .panic p

instance : Monad (Outcome ε) where
  pure := .ok
  bind := Outcome.bind

instance : LawfulMonad (Outcome ε) := LawfulMonad.mk' _
  (fun m => by cases m <;> rfl)
  (fun _ _ => rfl)
  (fun m _ _ => by cases m <;> rfl)

/-- `if c { return Err(e); }`. -/
def failIf (c : Prop) [Decidable c] (e : ε) : Outcome ε Unit := if c then .err e else .ok ()

/-- `Option::ok_or`. -/
def okOr (o : Option α) (e : ε) : Outcome ε α :=
  match o with
  | some a => .ok a
  | none => .err e

/-- `Option::expect`, and an operation that panics where it has no result. -/
def expect (o : Option α) (message : String) : Outcome ε α :=
  match o with
  | some a => .ok a
  | none => .panic message

@[simp] theorem pure_eq (a : α) : (pure a : Outcome ε α) = .ok a := rfl

@[simp] theorem ok_bind (a : α) (k : α → Outcome ε β) : (.ok a : Outcome ε α) >>= k = k a := rfl

@[simp] theorem err_bind (e : ε) (k : α → Outcome ε β) :
    (.err e : Outcome ε α) >>= k = .err e := rfl

@[simp] theorem panic_bind (p : String) (k : α → Outcome ε β) :
    (.panic p : Outcome ε α) >>= k = .panic p := rfl

theorem failIf_of_not {c : Prop} [Decidable c] {e : ε} (h : ¬c) : failIf c e = .ok () := if_neg h

@[simp] theorem okOr_some (a : α) (e : ε) : okOr (some a) e = .ok a := rfl

@[simp] theorem expect_some (a : α) (p : String) : (expect (some a) p : Outcome ε α) = .ok a := rfl

/-- `Result::is_ok`. -/
def isOk : Outcome ε α → Bool
  | .ok _ => true
  | _ => false

theorem exists_of_isOk {m : Outcome ε α} (h : m.isOk = true) : ∃ a, m = .ok a := by
  cases m with
  | ok a => exact ⟨a, rfl⟩
  | err e => cases h
  | panic p => cases h

/-! ## Inversion

What a call that returned did on its way. -/

theorem of_map_ok {m : Outcome ε α} {f : α → β} {b : β} (h : m.map f = .ok b) :
    ∃ a, m = .ok a ∧ f a = b := by
  cases m with
  | ok a => exact ⟨a, rfl, Outcome.ok.inj h⟩
  | err e => cases h
  | panic p => cases h

theorem of_bind_ok {m : Outcome ε α} {k : α → Outcome ε β} {b : β} (h : m >>= k = .ok b) :
    ∃ a, m = .ok a ∧ k a = .ok b := by
  cases m with
  | ok a => exact ⟨a, rfl, h⟩
  | err e => cases h
  | panic p => cases h

theorem exists_bind {m : Outcome ε α} {k : α → Outcome ε β} (hm : ∃ a, m = .ok a)
    (hk : ∀ a, ∃ b, k a = .ok b) : ∃ b, m >>= k = .ok b := by
  obtain ⟨a, rfl⟩ := hm
  exact hk a

theorem of_failIf_ok {c : Prop} [Decidable c] {e : ε} {u : Unit} (h : failIf c e = .ok u) : ¬c := by
  unfold failIf at h
  split at h
  · cases h
  · assumption

theorem of_failIf_bind_ok {c : Prop} [Decidable c] {e : ε} {k : Unit → Outcome ε β} {b : β}
    (h : failIf c e >>= k = .ok b) : ¬c ∧ k () = .ok b := by
  obtain ⟨_, hc, hk⟩ := of_bind_ok h
  exact ⟨of_failIf_ok hc, hk⟩

theorem of_okOr_bind_ok {o : Option α} {e : ε} {k : α → Outcome ε β} {b : β}
    (h : okOr o e >>= k = .ok b) : ∃ a, o = some a ∧ k a = .ok b := by
  cases o with
  | none => cases h
  | some a => exact ⟨a, rfl, h⟩

/-- What every round of a loop keeps holds of its result. -/
theorem foldlM_ok {P : β → Prop} {f : β → α → Outcome ε β}
    (hstep : ∀ b a b', P b → f b a = .ok b' → P b') {xs : List α} {b b' : β} (hb : P b)
    (h : xs.foldlM f b = .ok b') : P b' := by
  induction xs generalizing b with
  | nil =>
    cases h
    exact hb
  | cons a rest ih =>
    rw [List.foldlM_cons] at h
    obtain ⟨b₁, hround, h⟩ := of_bind_ok h
    exact ih (hstep b a b₁ hb hround) h

/-- The results of a loop that collects them, one for each element. -/
theorem forall₂_of_mapM_ok {f : α → Outcome ε β} {xs : List α} {ys : List β}
    (h : xs.mapM f = .ok ys) : List.Forall₂ (fun x y => f x = .ok y) xs ys := by
  induction xs generalizing ys with
  | nil =>
    cases h
    exact .nil
  | cons x rest ih =>
    rw [List.mapM_cons] at h
    obtain ⟨y, hx, h⟩ := of_bind_ok h
    obtain ⟨ys', hrest, h⟩ := of_bind_ok h
    cases h
    exact .cons hx (ih hrest)

theorem of_mapErr_ok {ε' : Type} {m : Outcome ε α} {f : ε → ε'} {a : α} (h : m.mapErr f = .ok a) :
    m = .ok a := by
  cases m with
  | ok a' => exact congrArg Outcome.ok (Outcome.ok.inj h)
  | err e => cases h
  | panic p => cases h

/-! ## No panic -/

def Total (m : Outcome ε α) : Prop := ∀ message, m ≠ .panic message

theorem total_ok (a : α) : Total (.ok a : Outcome ε α) := fun _ h => by cases h

theorem total_err (e : ε) : Total (.err e : Outcome ε α) := fun _ h => by cases h

theorem total_failIf (c : Prop) [Decidable c] (e : ε) : Total (failIf c e) := by
  unfold failIf
  split
  · exact total_err e
  · exact total_ok ()

theorem total_okOr (o : Option α) (e : ε) : Total (okOr o e) := by
  cases o with
  | none => exact total_err e
  | some a => exact total_ok a

theorem Total.bind {m : Outcome ε α} {k : α → Outcome ε β} (hm : Total m) (hk : ∀ a, Total (k a)) :
    Total (m >>= k) := by
  cases m with
  | ok a => exact hk a
  | err e => exact total_err e
  | panic p => exact absurd rfl (hm p)

theorem total_failIf_bind {c : Prop} [Decidable c] {e : ε} {k : Unit → Outcome ε β}
    (hk : ¬c → Total (k ())) : Total (failIf c e >>= k) := by
  by_cases hc : c
  · rw [failIf, if_pos hc]
    exact total_err e
  · rw [failIf_of_not hc]
    exact hk hc

end Outcome
end Rust
