/-
Conditions on how a call ends.

`Ends m s onOk onErr onPanic` says that the way `m` ends in `s` meets the condition given for
that way.  The rules follow the constructors of a call, so a condition on a composite call
becomes conditions on its steps, each in the state that the step before it leaves.
-/
import Ramforge.Rust.Buffer
import Ramforge.Rust.Loop
import Ramforge.Rust.Scope

namespace Rust
namespace Exec

variable {σ τ κ ε ε' α β : Type}

def Ends (m : Exec σ ε α) (s : σ) (onOk : α → σ → Prop) (onErr : ε → σ → Prop)
    (onPanic : String → σ → Prop) : Prop :=
  match m s with
  | (.ok a, s') => onOk a s'
  | (.err e, s') => onErr e s'
  | (.panic p, s') => onPanic p s'

section rules

variable {m : Exec σ ε α} {s s' : σ} {Q Q' : α → σ → Prop} {E E' : ε → σ → Prop}
  {P P' : String → σ → Prop}

theorem ends_of_ok {a : α} (h : m s = (.ok a, s')) : Ends m s Q E P ↔ Q a s' := by
  rw [Ends, h]

theorem ends_of_err {e : ε} (h : m s = (.err e, s')) : Ends m s Q E P ↔ E e s' := by
  rw [Ends, h]

theorem Ends.of_ok {a : α} (h : Ends m s Q E P) (hrun : m s = (.ok a, s')) : Q a s' :=
  (ends_of_ok hrun).mp h

theorem Ends.of_err {e : ε} (h : Ends m s Q E P) (hrun : m s = (.err e, s')) : E e s' :=
  (ends_of_err hrun).mp h

theorem Ends.of_panic {p : String} (h : Ends m s Q E P) (hrun : m s = (.panic p, s')) : P p s' := by
  rw [Ends, hrun] at h
  exact h

/-- What holds of all three ways to end holds of the state a call leaves. -/
theorem Ends.state {I : σ → Prop} (h : Ends m s (fun _ => I) (fun _ => I) (fun _ => I)) :
    I (m s).2 := by
  unfold Ends at h
  rcases hrun : m s with ⟨_ | _ | _, t⟩ <;> rw [hrun] at h <;> exact h

theorem Ends.mono (h : Ends m s Q E P) (hok : ∀ a t, Q a t → Q' a t) (herr : ∀ e t, E e t → E' e t)
    (hpanic : ∀ p t, P p t → P' p t) : Ends m s Q' E' P' := by
  unfold Ends at h ⊢
  rcases hrun : m s with ⟨a | e | p, t⟩ <;> rw [hrun] at h
  · exact hok a t h
  · exact herr e t h
  · exact hpanic p t h

theorem ends_bind {k : α → Exec σ ε β} {Q : β → σ → Prop} :
    Ends (m >>= k) s Q E P ↔ Ends m s (fun a t => Ends (k a) t Q E P) E P := by
  unfold Ends
  rw [bind_run]
  rcases m s with ⟨a | e | p, t⟩ <;> rfl

/-- The rule for a step whose effect is known. -/
theorem Ends.bind {k : α → Exec σ ε β} {R : α → σ → Prop} {Q : β → σ → Prop} (hm : Ends m s R E P)
    (hk : ∀ a t, R a t → Ends (k a) t Q E P) : Ends (m >>= k) s Q E P :=
  ends_bind.mpr (hm.mono hk (fun _ _ h => h) fun _ _ h => h)

end rules

section constructors

variable {s : σ} {Q : α → σ → Prop} {E : ε → σ → Prop} {P : String → σ → Prop}

@[simp] theorem ends_pure (a : α) : Ends (pure a : Exec σ ε α) s Q E P ↔ Q a s := Iff.rfl

@[simp] theorem ends_throw (e : ε) : Ends (throw e : Exec σ ε α) s Q E P ↔ E e s := Iff.rfl

@[simp] theorem ends_panic (p : String) : Ends (panic p : Exec σ ε α) s Q E P ↔ P p s := Iff.rfl

@[simp] theorem ends_self {Q : σ → σ → Prop} : Ends (self : Exec σ ε σ) s Q E P ↔ Q s s := Iff.rfl

@[simp] theorem ends_modify {Q : PUnit → σ → Prop} (f : σ → σ) :
    Ends (modify f : Exec σ ε PUnit) s Q E P ↔ Q () (f s) := Iff.rfl

@[simp] theorem ends_failIf {Q : Unit → σ → Prop} (c : Prop) [Decidable c] (e : ε) :
    Ends (failIf c e) s Q E P ↔ (c → E e s) ∧ (¬c → Q () s) := by
  by_cases h : c <;> simp [failIf, h]

@[simp] theorem ends_failIfM {Q : Unit → σ → Prop} (c : Prop) [Decidable c] (m : Exec σ ε ε) :
    Ends (failIfM c m) s Q E P ↔ (c → Ends m s E E P) ∧ (¬c → Q () s) := by
  by_cases h : c <;> simp [failIfM, h, ends_bind]

@[simp] theorem ends_okOr (o : Option α) (e : ε) :
    Ends (okOr o e) s Q E P ↔ (o = none → E e s) ∧ ∀ a, o = some a → Q a s := by
  cases o <;> simp

@[simp] theorem ends_expect (o : Option α) (message : String) :
    Ends (expect o message) s Q E P ↔ (o = none → P message s) ∧ ∀ a, o = some a → Q a s := by
  cases o <;> simp

@[simp] theorem ends_ofResult (r : Except ε α) :
    Ends (ofResult r) s Q E P ↔ (∀ e, r = .error e → E e s) ∧ ∀ a, r = .ok a → Q a s := by
  cases r <;> simp [ofResult]

@[simp] theorem ends_resume (o : Outcome ε α) :
    Ends (resume o) s Q E P ↔ (∀ a, o = .ok a → Q a s) ∧ (∀ e, o = .err e → E e s) ∧
      ∀ p, o = .panic p → P p s := by
  cases o <;> simp [Ends]

@[simp] theorem ends_mapErr {E : ε' → σ → Prop} (f : ε → ε') (m : Exec σ ε α) :
    Ends (mapErr f m) s Q E P ↔ Ends m s Q (fun e => E (f e)) P := by
  unfold Ends
  rw [mapErr_run]
  rcases m s with ⟨_ | _ | _, _⟩ <;> rfl

@[simp] theorem ends_attempt {Q : Except ε α → σ → Prop} {E : ε' → σ → Prop} (m : Exec σ ε α) :
    Ends (attempt m) s Q E P ↔ Ends m s (fun a => Q (.ok a)) (fun e => Q (.error e)) P := by
  unfold Ends attempt
  rcases m s with ⟨_ | _ | _, _⟩ <;> rfl

@[simp] theorem ends_orPanic {E : ε' → σ → Prop} (m : Exec σ ε α) (message : ε → String) :
    Ends (orPanic m message) s Q E P ↔ Ends m s Q (fun e => P (message e)) P := by
  unfold Ends orPanic
  rcases m s with ⟨_ | _ | _, _⟩ <;> rfl

@[simp] theorem ends_catchUnwind {Q : Outcome ε α → σ → Prop} {E : ε' → σ → Prop}
    (m : Exec σ ε α) :
    Ends (catchUnwind m) s Q E P ↔
      Ends m s (fun a => Q (.ok a)) (fun e => Q (.err e)) (fun p => Q (.panic p)) := by
  unfold Ends
  rw [catchUnwind_run]
  rcases m s with ⟨_ | _ | _, _⟩ <;> rfl

end constructors

section parts

variable {E : ε → σ → Prop}

@[simp] theorem ends_onPart {get : σ → τ} {put : τ → σ → σ} {m : Exec τ ε α} {s : σ}
    {Q : α → σ → Prop} {P : String → σ → Prop} :
    Ends (onPart get put m) s Q E P ↔
      Ends m (get s) (fun a t => Q a (put t s)) (fun e t => E e (put t s)) fun p t => P p (put t s) := by
  unfold Ends
  rw [onPart_run]
  rcases m (get s) with ⟨_ | _ | _, _⟩ <;> rfl

@[simp] theorem ends_onSnd {m : Exec τ ε α} {s : κ × τ} {Q : α → κ × τ → Prop}
    {E : ε → κ × τ → Prop} {P : String → κ × τ → Prop} :
    Ends (onSnd m) s Q E P ↔
      Ends m s.2 (fun a t => Q a (s.1, t)) (fun e t => E e (s.1, t)) fun p t => P p (s.1, t) := by
  unfold Ends
  rw [onSnd_run]
  rcases m s.2 with ⟨_ | _ | _, _⟩ <;> rfl

@[simp] theorem ends_onFst {m : Exec κ ε α} {s : κ × τ} {Q : α → κ × τ → Prop}
    {E : ε → κ × τ → Prop} {P : String → κ × τ → Prop} :
    Ends (onFst m) s Q E P ↔
      Ends m s.1 (fun a t => Q a (t, s.2)) (fun e t => E e (t, s.2)) fun p t => P p (t, s.2) := by
  unfold Ends
  rw [onFst_run]
  rcases m s.1 with ⟨_ | _ | _, _⟩ <;> rfl

@[simp] theorem ends_withLocal {b : τ} {m : Exec (τ × σ) ε α} {s : σ} {Q : α × τ → σ → Prop}
    {P : String → σ → Prop} :
    Ends (withLocal b m) s Q E P ↔
      Ends m (b, s) (fun a t => Q (a, t.1) t.2) (fun e t => E e t.2) fun p t => P p t.2 := by
  unfold Ends withLocal
  rcases m (b, s) with ⟨_ | _ | _, _⟩ <;> rfl

@[simp] theorem ends_onLocal {b : τ} {m : Exec τ ε α} {s : σ} {Q : α × τ → σ → Prop}
    {P : String → σ → Prop} :
    Ends (onLocal b m) s Q E P ↔
      Ends m b (fun a t => Q (a, t) s) (fun e _ => E e s) fun p _ => P p s := by
  unfold Ends onLocal
  rcases m b with ⟨_ | _ | _, _⟩ <;> rfl

end parts

/-! ## Loops -/

section loops

variable {s : σ} {E : ε → σ → Prop} {P : String → σ → Prop}

/-- `I i` holds when `i` rounds are over. -/
theorem Ends.forRange {I : Nat → β → σ → Prop} {n : Nat} {f : Nat → β → Exec σ ε β} {b : β}
    (h0 : I 0 b s) (hstep : ∀ i < n, ∀ b s, I i b s → Ends (f i b) s (I (i + 1)) E P) :
    Ends (Exec.forRange n f b) s (I n) E P := by
  induction n with
  | zero => exact h0
  | succ n ih =>
    rw [forRange_succ]
    exact (ih fun i hi => hstep i (Nat.lt_succ_of_lt hi)).bind (hstep n (Nat.lt_succ_self n))

/-- A loop over a list whose rounds keep `I`. -/
theorem Ends.foldlM {I : β → σ → Prop} {f : β → α → Exec σ ε β} {xs : List α} {b : β}
    (h0 : I b s) (hstep : ∀ b, ∀ a ∈ xs, ∀ s, I b s → Ends (f b a) s I E P) :
    Ends (xs.foldlM f b) s I E P := by
  induction xs generalizing b s with
  | nil => exact h0
  | cons a rest ih =>
    rw [List.foldlM_cons]
    refine (hstep b a List.mem_cons_self s h0).bind fun b' s' hb' => ?_
    exact ih hb' fun b a ha => hstep b a (List.mem_cons_of_mem _ ha)

/-- A loop that need not leave before its bound: the bound's panic meets `P` as well. -/
theorem Ends.loopN {I : β → σ → Prop} {Q : α → σ → Prop} {round : β → Exec σ ε (RoundEnd β α)}
    {n : Nat} {b : β} (hround : ∀ b s, I b s →
      Ends (round b) s (fun r t => match r with
        | .again b' => I b' t
        | .leave a => Q a t) E P)
    (hbound : ∀ b s, I b s → P "loop bound exceeded" s) (h0 : I b s) :
    Ends (Exec.loopN round n b) s Q E P := by
  induction n generalizing b s with
  | zero => exact hbound b s h0
  | succ n ih =>
    refine (hround b s h0).bind fun r t hr => ?_
    cases r with
    | again b' => exact ih hr
    | leave a => exact hr

/-- A loop whose rounds lower a measure leaves by one of its rounds. -/
theorem Ends.loopOn {I : β → σ → Prop} {Q : α → σ → Prop} {measure : β → Nat}
    {round : β → Exec σ ε (RoundEnd β α)} {b : β} (hround : ∀ b s, I b s →
      Ends (round b) s (fun r t => match r with
        | .again b' => I b' t ∧ measure b' < measure b
        | .leave a => Q a t) E P)
    (h0 : I b s) : Ends (Exec.loopOn measure round b) s Q E P := by
  have hrun : ∀ n b s, I b s → measure b < n → Ends (Exec.loopN round n b) s Q E P := by
    intro n
    induction n with
    | zero => intro b s _ hn; omega
    | succ n ih =>
      intro b s hb hn
      refine (hround b s hb).bind fun r t hr => ?_
      cases r with
      | again b' => exact ih b' t hr.1 (by have := hr.2; omega)
      | leave a => exact hr
  exact hrun _ b s h0 (Nat.lt_succ_self _)

end loops

/-! ## Invariants -/

theorem Keeps.ends {I : σ → Prop} {m : Exec σ ε α} (hm : Keeps I m) {s : σ} (hs : I s) :
    Ends m s (fun _ => I) (fun _ => I) (fun _ => I) := by
  have ht := hm s hs
  unfold Ends
  rcases hrun : m s with ⟨_ | _ | _, t⟩ <;> rw [hrun] at ht <;> exact ht

theorem keeps_of_ends {I : σ → Prop} {m : Exec σ ε α}
    (h : ∀ s, I s → Ends m s (fun _ => I) (fun _ => I) (fun _ => I)) : Keeps I m :=
  fun s hs => (h s hs).state

namespace Keeps

variable {I : σ → Prop}

theorem self : Keeps I (Exec.self : Exec σ ε σ) := fun _ hs => hs

theorem throw (e : ε) : Keeps I (throw e : Exec σ ε α) := fun _ hs => hs

theorem failIf (c : Prop) [Decidable c] (e : ε) : Keeps I (Exec.failIf c e) := by
  intro s hs
  by_cases h : c
  · rw [Exec.failIf, if_pos h]
    exact hs
  · rw [Exec.failIf, if_neg h]
    exact hs

theorem okOr (o : Option α) (e : ε) : Keeps I (Exec.okOr o e) := by
  cases o <;> exact fun _ hs => hs

theorem ofResult (r : Except ε α) : Keeps I (Exec.ofResult r) := by
  cases r <;> exact fun _ hs => hs

theorem expect (o : Option α) (message : String) : Keeps I (Exec.expect o message : Exec σ ε α) := by
  cases o <;> exact fun _ hs => hs

/-- A call on a local variable only. -/
theorem onLocal (b : τ) (m : Exec τ ε α) : Keeps I (Exec.onLocal b m : Exec σ ε (α × τ)) := by
  refine keeps_of_ends fun s hs => ends_onLocal.mpr ?_
  unfold Ends
  rcases m b with ⟨_ | _ | _, _⟩ <;> exact hs

theorem mapErr {m : Exec σ ε α} (hm : Keeps I m) (f : ε → ε') : Keeps I (Exec.mapErr f m) := hm

theorem attempt {m : Exec σ ε α} (hm : Keeps I m) : Keeps I (Exec.attempt m : Exec σ ε' _) :=
  keeps_of_ends fun _ hs => (ends_attempt m).mpr (hm.ends hs)

theorem orPanic {m : Exec σ ε α} (hm : Keeps I m) (message : ε → String) :
    Keeps I (Exec.orPanic m message : Exec σ ε' α) :=
  keeps_of_ends fun _ hs => (ends_orPanic m message).mpr (hm.ends hs)

theorem onSnd {I : τ → Prop} {m : Exec τ ε α} (hm : Keeps I m) :
    Keeps (fun s : κ × τ => I s.2) (Exec.onSnd m) := fun s hs => hm s.2 hs

/-- A call on one part of the state keeps what is said of the other. -/
theorem onSnd_both {J : κ → Prop} {I : τ → Prop} {m : Exec τ ε α} (hm : Keeps I m) :
    Keeps (fun s : κ × τ => J s.1 ∧ I s.2) (Exec.onSnd m) := fun s hs => ⟨hs.1, hm s.2 hs.2⟩

theorem onFst_both {J : τ → Prop} {I : κ → Prop} {m : Exec κ ε α} (hm : Keeps I m) :
    Keeps (fun s : κ × τ => I s.1 ∧ J s.2) (Exec.onFst m) := fun s hs => ⟨hm s.1 hs.1, hs.2⟩

theorem withLocal {m : Exec (τ × σ) ε α} {b : τ} (hm : Keeps (fun s => I s.2) m) :
    Keeps I (Exec.withLocal b m) :=
  keeps_of_ends fun _ hs => ends_withLocal.mpr (hm.ends hs)

theorem foldlM {f : β → α → Exec σ ε β} (hf : ∀ b a, Keeps I (f b a)) (xs : List α) (b : β) :
    Keeps I (xs.foldlM f b) :=
  keeps_of_ends fun _ hs => Ends.foldlM (I := fun _ => I) hs fun b a _ _ h => (hf b a).ends h

theorem forRange {f : Nat → β → Exec σ ε β} (hf : ∀ i b, Keeps I (f i b)) (n : Nat) (b : β) :
    Keeps I (Exec.forRange n f b) :=
  keeps_of_ends fun _ hs => Ends.forRange (I := fun _ _ => I) hs fun i _ b _ h => (hf i b).ends h

theorem forM {f : α → Exec σ ε PUnit} (hf : ∀ a, Keeps I (f a)) (xs : List α) :
    Keeps I (xs.forM f) := by
  induction xs with
  | nil => exact .pure _
  | cons a rest ih => exact (hf a).bind fun _ => ih

theorem loopOn {round : β → Exec σ ε (RoundEnd β α)} (hround : ∀ b, Keeps I (round b))
    (measure : β → Nat) (b : β) : Keeps I (Exec.loopOn measure round b) := by
  refine keeps_of_ends fun _ hs => Ends.loopN (I := fun _ => I) (fun b s h => ?_) (fun _ _ h => h) hs
  refine ((hround b).ends h).mono (fun r t ht => ?_) (fun _ _ ht => ht) fun _ _ ht => ht
  cases r <;> exact ht

end Keeps

/-- What is kept, with what a returned value is. -/
theorem Keeps.ends_value {I : σ → Prop} {m : Exec σ ε α} (hm : Keeps I m) {s : σ} (h : I s)
    {Q : α → Prop} (hQ : ∀ a t, m s = (.ok a, t) → Q a) :
    Ends m s (fun a t => I t ∧ Q a) (fun _ => I) fun _ => I := by
  have ht := hm s h
  unfold Ends
  rcases hrun : m s with ⟨a | e | p, t⟩ <;> rw [hrun] at ht
  · exact ⟨ht, hQ a t hrun⟩
  · exact ht
  · exact ht

/-- A step that keeps an invariant, in front of what needs it. -/
theorem Keeps.then {I : σ → Prop} {m : Exec σ ε α} {k : α → Exec σ ε β} {s : σ} {Q : β → σ → Prop}
    (hm : Keeps I m) (h : I s)
    (hk : ∀ a t, I t → Ends (k a) t Q (fun _ _ => True) fun _ _ => True) :
    Ends (m >>= k) s Q (fun _ _ => True) fun _ _ => True :=
  ((hm.ends h).mono (fun _ _ ht => ht) (fun _ _ _ => trivial) fun _ _ _ => trivial).bind hk

/-! ## Calls that look at the state and return, or panic -/

def Looks (m : Exec σ ε α) : Prop :=
  ∀ s, Ends m s (fun _ t => t = s) (fun _ _ => False) fun _ _ => True

namespace Looks

theorem pure (a : α) : Looks (pure a : Exec σ ε α) := fun _ => rfl

theorem self : Looks (Exec.self : Exec σ ε σ) := fun _ => rfl

theorem expect (o : Option α) (message : String) : Looks (Exec.expect o message : Exec σ ε α) := by
  intro s
  rw [ends_expect]
  exact ⟨fun _ => trivial, fun _ _ => rfl⟩

theorem bind {m : Exec σ ε α} {k : α → Exec σ ε β} (hm : Looks m) (hk : ∀ a, Looks (k a)) :
    Looks (m >>= k) := by
  refine fun s => (hm s).bind fun a t ht => ?_
  rw [ht]
  exact hk a s

theorem onSnd {m : Exec τ ε α} (hm : Looks m) : Looks (Exec.onSnd m : Exec (κ × τ) ε α) := by
  intro s
  rw [ends_onSnd]
  exact (hm s.2).mono (fun _ _ ht => by rw [ht]) (fun _ _ h => h) fun _ _ h => h

end Looks

/-! ## Calls that return or fail, and keep an invariant -/

def Settles (I : σ → Prop) (m : Exec σ ε α) : Prop :=
  ∀ s, I s → Ends m s (fun _ => I) (fun _ => I) fun _ _ => False

namespace Settles

variable {I : σ → Prop}

theorem state {m : Exec σ ε α} (hm : Settles I m) {s : σ} (hs : I s) : I (m s).2 :=
  ((hm s hs).mono (fun _ _ h => h) (fun _ _ h => h) fun _ _ h => h.elim).state

theorem total {m : Exec σ ε α} (hm : Settles I m) {s : σ} (hs : I s) (message : String) :
    (m s).1 ≠ .panic message :=
  fun hpanic => (hm s hs).of_panic (Prod.ext hpanic rfl)

theorem pure (a : α) : Settles I (pure a : Exec σ ε α) := fun _ hs => hs

theorem self : Settles I (Exec.self : Exec σ ε σ) := fun _ hs => hs

theorem modify {f : σ → σ} (h : ∀ s, I s → I (f s)) : Settles I (modify f : Exec σ ε PUnit) := h

theorem ofResult (r : Except ε α) : Settles I (Exec.ofResult r) := by
  intro s hs
  rw [ends_ofResult]
  exact ⟨fun _ _ => hs, fun _ _ => hs⟩

theorem bind {m : Exec σ ε α} {k : α → Exec σ ε β} (hm : Settles I m) (hk : ∀ a, Settles I (k a)) :
    Settles I (m >>= k) :=
  fun s hs => (hm s hs).bind fun a t ht => hk a t ht

end Settles

/-! ## Calls that the state plays no part in -/

/-- One result, whatever the states are. -/
def Agrees (m : Exec σ ε α) (m' : Exec τ ε α) : Prop :=
  ∃ r, (∀ s, m s = (r, s)) ∧ ∀ t, m' t = (r, t)

namespace Agrees

theorem pure (a : α) : Agrees (pure a : Exec σ ε α) (pure a : Exec τ ε α) :=
  ⟨.ok a, fun _ => rfl, fun _ => rfl⟩

theorem okOr (o : Option α) (e : ε) : Agrees (Exec.okOr o e : Exec σ ε α) (Exec.okOr o e : Exec τ ε α) := by
  cases o with
  | none => exact ⟨.err e, fun _ => rfl, fun _ => rfl⟩
  | some a => exact pure a

theorem throw (e : ε) : Agrees (throw e : Exec σ ε α) (throw e : Exec τ ε α) :=
  ⟨.err e, fun _ => rfl, fun _ => rfl⟩

theorem failIf (c : Prop) [Decidable c] (e : ε) :
    Agrees (Exec.failIf c e : Exec σ ε Unit) (Exec.failIf c e : Exec τ ε Unit) := by
  unfold Exec.failIf
  split
  · exact throw e
  · exact pure ()

theorem expect (o : Option α) (message : String) :
    Agrees (Exec.expect o message : Exec σ ε α) (Exec.expect o message : Exec τ ε α) := by
  cases o with
  | none => exact ⟨.panic message, fun _ => rfl, fun _ => rfl⟩
  | some a => exact pure a

theorem bind {m : Exec σ ε α} {m' : Exec τ ε α} {k : α → Exec σ ε β} {k' : α → Exec τ ε β}
    (hm : Agrees m m') (hk : ∀ a, Agrees (k a) (k' a)) : Agrees (m >>= k) (m' >>= k') := by
  obtain ⟨r, hr, hr'⟩ := hm
  cases r with
  | ok a =>
    obtain ⟨q, hq, hq'⟩ := hk a
    exact ⟨q, fun s => (bind_of_ok (hr s)).trans (hq s), fun t => (bind_of_ok (hr' t)).trans (hq' t)⟩
  | err e => exact ⟨.err e, fun s => bind_of_err (hr s), fun t => bind_of_err (hr' t)⟩
  | panic p => exact ⟨.panic p, fun s => bind_of_panic (hr s), fun t => bind_of_panic (hr' t)⟩

theorem foldlM {f : β → α → Exec σ ε β} {f' : β → α → Exec τ ε β}
    (hf : ∀ b a, Agrees (f b a) (f' b a)) (xs : List α) (b : β) :
    Agrees (xs.foldlM f b) (xs.foldlM f' b) := by
  induction xs generalizing b with
  | nil => exact pure b
  | cons a rest ih =>
    rw [List.foldlM_cons, List.foldlM_cons]
    exact (hf b a).bind ih

theorem of_ok {m : Exec σ ε α} {m' : Exec τ ε α} (h : Agrees m m') {s s' : σ} {a : α}
    (hrun : m s = (.ok a, s')) : s' = s ∧ ∀ t, m' t = (.ok a, t) := by
  obtain ⟨r, hr, hr'⟩ := h
  rw [hr] at hrun
  cases hrun
  exact ⟨rfl, hr'⟩

end Agrees

end Exec
end Rust

/-!
`for i in from..from + n { .. }` with `break`.

A round leaves the loop by `.leave` or goes on to the next number by `.again`.
-/

namespace Rust
namespace Exec

variable {σ ε β : Type}

/-- The rounds `i`, `i + 1`, and so on, `n` of them at most. -/
def forBreak (round : Nat → β → Exec σ ε (RoundEnd β β)) : Nat → Nat → β → Exec σ ε β
  | 0, _, b => pure b
  | n + 1, i, b => do
    match ← round i b with
    | .leave b => pure b
    | .again b => forBreak round n (i + 1) b

/-- `I i` holds before round `i`, and `Q` where a round leaves the loop. -/
theorem Ends.forBreak {round : Nat → β → Exec σ ε (RoundEnd β β)} {I : Nat → β → σ → Prop}
    {Q : β → σ → Prop} {E : ε → σ → Prop} {P : String → σ → Prop} {n i : Nat} {b : β} {s : σ}
    (hround : ∀ j, i ≤ j → j < i + n → ∀ b s, I j b s →
      Ends (round j b) s (fun r t => match r with
        | .again b' => I (j + 1) b' t
        | .leave b' => Q b' t) E P)
    (hlast : ∀ b s, I (i + n) b s → Q b s) (h0 : I i b s) :
    Ends (Exec.forBreak round n i b) s Q E P := by
  induction n generalizing i b s with
  | zero => exact hlast b s h0
  | succ n ih =>
    refine (hround i (Nat.le_refl i) (by omega) b s h0).bind fun r t hr => ?_
    cases r with
    | leave b' => exact hr
    | again b' =>
      apply ih (fun j hj hlt => hround j (by omega) (by omega)) _ hr
      intro b s hb
      apply hlast
      rwa [show i + (n + 1) = i + 1 + n by omega]

end Exec
end Rust

/-!
What is true of every error of a call, from whatever state it runs.

`Errs P m` says that `m` fails only with errors that meet `P`.  The rules follow the
constructors of a call.
-/

namespace Rust
namespace Exec

variable {σ τ κ ε ε' α β : Type} {P : ε → Prop}

def Errs (P : ε → Prop) (m : Exec σ ε α) : Prop :=
  ∀ s, Ends m s (fun _ _ => True) (fun e _ => P e) fun _ _ => True

namespace Errs

theorem pure (a : α) : Errs P (pure a : Exec σ ε α) := fun _ => trivial

theorem bind {m : Exec σ ε α} {k : α → Exec σ ε β} (hm : Errs P m) (hk : ∀ a, Errs P (k a)) :
    Errs P (m >>= k) := fun s => (hm s).bind fun a t _ => hk a t

theorem okOr {o : Option α} {e : ε} (h : P e) : Errs P (okOr o e : Exec σ ε α) := by
  intro s
  rw [ends_okOr]
  exact ⟨fun _ => h, fun _ _ => trivial⟩

theorem expect (o : Option α) (p : String) : Errs P (expect o p : Exec σ ε α) := by
  intro s
  rw [ends_expect]
  exact ⟨fun _ => trivial, fun _ _ => trivial⟩

theorem ofResult {r : Except ε α} (h : ∀ e, r = .error e → P e) :
    Errs P (ofResult r : Exec σ ε α) := by
  intro s
  rw [ends_ofResult]
  exact ⟨h, fun _ _ => trivial⟩

theorem mapErr {f : ε → ε'} {P : ε' → Prop} (h : ∀ e, P (f e)) (m : Exec σ ε α) :
    Errs P (mapErr f m) := by
  intro s
  rw [ends_mapErr]
  unfold Ends
  rcases m s with ⟨_ | e | _, _⟩
  · trivial
  · exact h e
  · trivial

theorem onSnd {m : Exec τ ε α} (h : Errs P m) : Errs P (onSnd m : Exec (κ × τ) ε α) :=
  fun s => ends_onSnd.mpr (h s.2)

theorem onFst {m : Exec κ ε α} (h : Errs P m) : Errs P (onFst m : Exec (κ × τ) ε α) :=
  fun s => ends_onFst.mpr (h s.1)

theorem withLocal {m : Exec (τ × σ) ε α} (h : Errs P m) (b : τ) : Errs P (withLocal b m) :=
  fun s => ends_withLocal.mpr (h (b, s))

theorem forRange {n : Nat} {f : Nat → β → Exec σ ε β} (hf : ∀ i b, Errs P (f i b)) (b : β) :
    Errs P (Exec.forRange n f b) :=
  fun _ => Ends.forRange (I := fun _ _ _ => True) trivial fun i _ b s _ => hf i b s

theorem loopOn {round : β → Exec σ ε (RoundEnd β α)} (hround : ∀ b, Errs P (round b))
    (measure : β → Nat) (b : β) : Errs P (Exec.loopOn measure round b) := by
  refine fun _ => Ends.loopN (I := fun _ _ => True) (fun b s _ => ?_) (fun _ _ _ => trivial) trivial
  refine (hround b s).mono (fun r t _ => ?_) (fun _ _ h => h) fun _ _ h => h
  cases r <;> trivial

end Errs
end Exec
end Rust
