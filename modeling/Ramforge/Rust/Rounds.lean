/-
What a loop over a list has done, round by round.

`Rounds R xs b b'` says that rounds related by `R`, one for each element of `xs`, lead from `b`
to `b'`.  A loop gives the rounds it made, and a fact about one round becomes one about all.
-/
import Ramforge.Rust.Ends

namespace Rust

variable {α β : Type}

inductive Rounds (R : β → α → β → Prop) : List α → β → β → Prop where
  | nil (b : β) : Rounds R [] b b
  | cons {a : α} {rest : List α} {b b' b'' : β} (head : R b a b') (tail : Rounds R rest b' b'') :
    Rounds R (a :: rest) b b''

namespace Rounds

variable {R R' : β → α → β → Prop} {xs : List α} {b b' : β}

theorem mono (h : Rounds R xs b b') (hR : ∀ b, ∀ a ∈ xs, ∀ b', R b a b' → R' b a b') :
    Rounds R' xs b b' := by
  induction h with
  | nil b => exact .nil b
  | cons head tail ih =>
    exact .cons (hR _ _ List.mem_cons_self _ head) (ih fun b a ha => hR b a (List.mem_cons_of_mem _ ha))

theorem append {ys : List α} {b'' : β} (h : Rounds R xs b b') (h' : Rounds R ys b' b'') :
    Rounds R (xs ++ ys) b b'' := by
  induction h with
  | nil b => exact h'
  | cons head tail ih => exact .cons head (ih h')

/-- Rounds that a start and an element determine lead to one end. -/
theorem unique {c : β} (hR : ∀ b, ∀ a ∈ xs, ∀ c c', R b a c → R b a c' → c = c')
    (h : Rounds R xs b b') (h' : Rounds R xs b c) : b' = c := by
  induction h with
  | nil b =>
    cases h' with
    | nil => rfl
  | cons head tail ih =>
    cases h' with
    | cons head' tail' =>
      obtain rfl := hR _ _ List.mem_cons_self _ _ head head'
      exact ih (fun b a ha => hR b a (List.mem_cons_of_mem _ ha)) tail'

/-- What each round keeps, with the number of rounds so far. -/
theorem keeps {I : Nat → β → Prop} (hR : ∀ n b a b', R b a b' → I n b → I (n + 1) b')
    (h : Rounds R xs b b') {n : Nat} (hb : I n b) : I (n + xs.length) b' := by
  induction h generalizing n with
  | nil b => exact hb
  | cons head tail ih =>
    have := ih (hR _ _ _ _ head hb)
    rw [List.length_cons]
    rwa [Nat.add_right_comm, Nat.add_assoc] at this

end Rounds

open Exec in
/-- The rounds of a loop whose steps keep `I`. -/
theorem Exec.Ends.foldlM_rounds {σ ε : Type} {s : σ} {E : ε → σ → Prop} {P : String → σ → Prop}
    {I : σ → Prop} {R : β → α → β → Prop} {f : β → α → Exec σ ε β} {xs : List α} {b : β} (h : I s)
    (hstep : ∀ b, ∀ a ∈ xs, ∀ s, I s → Ends (f b a) s (fun b' t => I t ∧ R b a b') E P) :
    Ends (xs.foldlM f b) s (fun b' t => I t ∧ Rounds R xs b b') E P := by
  induction xs generalizing b s with
  | nil => exact ⟨h, .nil b⟩
  | cons a rest ih =>
    rw [List.foldlM_cons]
    refine (hstep b a List.mem_cons_self s h).bind fun b' t ⟨ht, hround⟩ => ?_
    exact (ih ht fun b a ha => hstep b a (List.mem_cons_of_mem _ ha)).mono
      (fun b'' u hu => ⟨hu.1, .cons hround hu.2⟩) (fun _ _ he => he) fun _ _ hp => hp

section taken

open Exec

variable {σ ε : Type} {s : σ} {E : ε → σ → Prop} {P : String → σ → Prop}

/-- An invariant of what a loop has taken from its list so far. -/
theorem Exec.Ends.foldlM_taken {I : List α → β → σ → Prop} {f : β → α → Exec σ ε β} {xs : List α}
    {b : β} (h : I [] b s)
    (hstep : ∀ taken b s, ∀ a ∈ xs, I taken b s → Ends (f b a) s (I (taken ++ [a])) E P) :
    Ends (xs.foldlM f b) s (I xs) E P := by
  suffices hrest : ∀ rest taken b s, (∀ a ∈ rest, a ∈ xs) → I taken b s →
      Ends (rest.foldlM f b) s (I (taken ++ rest)) E P from
    hrest xs [] b s (fun _ ha => ha) h
  intro rest
  induction rest with
  | nil =>
    intro taken b s _ h
    rw [List.append_nil]
    exact h
  | cons a rest ih =>
    intro taken b s hmem h
    rw [List.foldlM_cons, ← List.singleton_append, ← List.append_assoc]
    exact (hstep taken b s a (hmem a List.mem_cons_self) h).bind fun b' t ht =>
      ih _ b' t (fun c hc => hmem c (List.mem_cons_of_mem _ hc)) ht

theorem Exec.Ends.forM_taken {I : List α → σ → Prop} {f : α → Exec σ ε PUnit} {xs : List α}
    (h : I [] s)
    (hstep : ∀ taken s, ∀ a ∈ xs, I taken s → Ends (f a) s (fun _ => I (taken ++ [a])) E P) :
    Ends (xs.forM f) s (fun _ => I xs) E P := by
  suffices hrest : ∀ rest taken s, (∀ a ∈ rest, a ∈ xs) → I taken s →
      Ends (rest.forM f) s (fun _ => I (taken ++ rest)) E P from
    hrest xs [] s (fun _ ha => ha) h
  intro rest
  induction rest with
  | nil =>
    intro taken s _ h
    rw [List.append_nil]
    exact h
  | cons a rest ih =>
    intro taken s hmem h
    rw [← List.singleton_append, ← List.append_assoc]
    exact (hstep taken s a (hmem a List.mem_cons_self) h).bind fun _ t ht =>
      ih _ t (fun c hc => hmem c (List.mem_cons_of_mem _ hc)) ht

end taken

end Rust
