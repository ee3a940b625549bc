/-
Recorded runs of a machine, and what every step of a run satisfies given the
steps before it.

A machine answers each input with an output and a new state.  `trace` records
every step with the states on both sides, so a law about the order of events is
a statement `Always` about each step and its past.
-/
import Mathlib.Data.List.DropRight
import Mathlib.Tactic

namespace Rust

/-- One step of a machine. -/
structure Step (σ ι ο : Type) where
  before : σ
  input : ι
  output : ο
  after : σ

namespace Trace

variable {σ ι ο : Type} (machine : ι → σ → ο × σ)

/-- The step a machine takes from `s` on `i`. -/
def step (s : σ) (i : ι) : Step σ ι ο :=
  { before := s, input := i, output := (machine i s).1, after := (machine i s).2 }

def final (s : σ) : List ι → σ
  | [] => s
  | i :: rest => final (machine i s).2 rest

/-- What holds at the start and is kept by each step holds at the end. -/
theorem final_of_step {I : σ → Prop} (hstep : ∀ s i, I s → I (machine i s).2) {s : σ} (hs : I s)
    (inputs : List ι) : I (final machine s inputs) := by
  induction inputs generalizing s with
  | nil => exact hs
  | cons i rest ih => exact ih (hstep s i hs)

def trace (s : σ) : List ι → List (Step σ ι ο)
  | [] => []
  | i :: rest => step machine s i :: trace (machine i s).2 rest

/-- `P` holds of each step, given the list of the steps before it. -/
def Always (P : List (Step σ ι ο) → Step σ ι ο → Prop) (steps : List (Step σ ι ο)) : Prop :=
  ∀ past e future, steps = past ++ e :: future → P past e

section always

variable {machine} {P Q : List (Step σ ι ο) → Step σ ι ο → Prop}
  {I : List (Step σ ι ο) → σ → Prop}

/-- The rule for runs that started in the past.  `I` relates the past to the state
reached; each step may use the condition `P` on it, and has to show `Q` and to
carry `I` over. -/
theorem always_from (hstep : ∀ past s i, I past s → P past (step machine s i) →
      Q past (step machine s i) ∧ I (past ++ [step machine s i]) (machine i s).2)
    {past : List (Step σ ι ο)} {s : σ} (hI : I past s) {inputs : List ι}
    (hP : ∀ before e future, trace machine s inputs = before ++ e :: future → P (past ++ before) e) :
    ∀ before e future, trace machine s inputs = before ++ e :: future → Q (past ++ before) e := by
  induction inputs generalizing past s with
  | nil =>
    intro before e future hsplit
    simp [trace] at hsplit
  | cons i rest ih =>
    have hfirst := hP [] _ _ rfl
    rw [List.append_nil] at hfirst
    obtain ⟨hQ, hnext⟩ := hstep past s i hI hfirst
    intro before e future hsplit
    cases before with
    | nil =>
      obtain ⟨rfl, -⟩ := List.cons.inj hsplit
      rwa [List.append_nil]
    | cons b before =>
      obtain ⟨rfl, htail⟩ := List.cons.inj hsplit
      have hrest := ih hnext (fun before' e' future' hsplit' => by
        rw [List.append_assoc]
        exact hP _ _ _ (congrArg (step machine s i :: ·) hsplit')) before e future htail
      rwa [List.append_assoc] at hrest

/-- If every step meets `P`, every step satisfies `Q`. -/
theorem always_of_always {s : σ} (hstart : I [] s)
    (hstep : ∀ past s i, I past s → P past (step machine s i) →
      Q past (step machine s i) ∧ I (past ++ [step machine s i]) (machine i s).2)
    {inputs : List ι} (hP : Always P (trace machine s inputs)) :
    Always Q (trace machine s inputs) := by
  have hfrom : ∀ before e future, trace machine s inputs = before ++ e :: future →
      P ([] ++ before) e := by
    intro before e future hsplit
    rw [List.nil_append]
    exact hP before e future hsplit
  intro before e future hsplit
  have h := always_from hstep hstart hfrom before e future hsplit
  rwa [List.nil_append] at h

theorem always_trace {s : σ} (hstart : I [] s)
    (hstep : ∀ past s i, I past s →
      Q past (step machine s i) ∧ I (past ++ [step machine s i]) (machine i s).2)
    (inputs : List ι) : Always Q (trace machine s inputs) :=
  always_of_always (P := fun _ _ => True) hstart (fun past s i hI _ => hstep past s i hI)
    fun _ _ _ _ => trivial

end always

/-! ## The steps since the last one of a kind -/

variable {α : Type} {p q : α → Bool} {l : List α} {a b : α}

/-- What comes after the last element that satisfies `p`; all of `l` where none does. -/
def since (p : α → Bool) (l : List α) : List α := l.rtakeWhile fun a => !p a

@[simp] theorem since_nil : since p [] = [] := List.rtakeWhile_nil _

theorem since_concat_of_pos (h : p a = true) : since p (l ++ [a]) = [] := by
  rw [since, List.rtakeWhile_concat_neg _ _ _ (by simp [h])]

theorem since_concat_of_neg (h : p a = false) : since p (l ++ [a]) = since p l ++ [a] := by
  rw [since, List.rtakeWhile_concat_pos _ _ _ (by simp [h]), since]

theorem mem_since_concat_of_neg (h : p a = false) :
    b ∈ since p (l ++ [a]) ↔ b ∈ since p l ∨ b = a := by
  rw [since_concat_of_neg h, List.mem_append, List.mem_singleton]

/-- A coarser mark leaves more behind. -/
theorem mem_since_of_imp (h : ∀ a, q a = true → p a = true) (hb : b ∈ since p l) : b ∈ since q l := by
  induction l using List.reverseRecOn with
  | nil => simp at hb
  | append_singleton l a ih =>
    cases hp : p a with
    | true =>
      rw [since_concat_of_pos hp] at hb
      simp at hb
    | false =>
      have hq : q a = false := by
        cases hq : q a with
        | false => rfl
        | true => rw [h a hq] at hp; cases hp
      rw [mem_since_concat_of_neg hp] at hb
      rw [mem_since_concat_of_neg hq]
      exact hb.imp_left ih

end Trace

/-! ## The states of a fold -/

section folds

variable {α β : Type} {f : β → α → β} {I : List α → β → Prop} {l : List α} {b : β}

/-- `I` relates what is left of the list to the value reached. -/
theorem foldl_rule (hstep : ∀ a rest b, I (a :: rest) b → I rest (f b a)) (hb : I l b) :
    I [] (l.foldl f b) := by
  induction l generalizing b with
  | nil => exact hb
  | cons a rest ih => exact ih (hstep a rest b hb)

theorem scanl_rule (hstep : ∀ a rest b, I (a :: rest) b → I rest (f b a)) (hb : I l b) :
    ∀ x ∈ l.scanl f b, ∃ rest, I rest x := by
  induction l generalizing b with
  | nil =>
    intro x hx
    rw [List.scanl_nil, List.mem_singleton] at hx
    exact ⟨[], hx ▸ hb⟩
  | cons a rest ih =>
    intro x hx
    rw [List.scanl_cons, List.mem_cons] at hx
    rcases hx with rfl | hx
    · exact ⟨a :: rest, hb⟩
    · exact ih (hstep a rest b hb) x hx

end folds
end Rust
