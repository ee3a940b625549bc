/-
The shortest front of a list of weights that covers a need.
-/
import Mathlib.Tactic

namespace Rust
namespace Covering

/-- How many weights are taken until they cover the need: all of them, where they do not. -/
def frontLength : Nat → List Nat → Nat
  | _, [] => 0
  | need, w :: rest => if need = 0 then 0 else frontLength (need - w) rest + 1

def frontSum (need : Nat) (weights : List Nat) : Nat :=
  (weights.take (frontLength need weights)).sum

structure Shortest (need : Nat) (weights : List Nat) (count : Nat) : Prop where
  count_le : count ≤ weights.length
  short : ∀ j < count, (weights.take j).sum < need
  covers : need ≤ (weights.take count).sum ∨ count = weights.length

variable {need w : Nat} {rest : List Nat}

@[simp] theorem frontLength_nil : frontLength need [] = 0 := rfl

theorem frontLength_cons_zero : frontLength 0 (w :: rest) = 0 := if_pos rfl

theorem frontLength_cons (h : need ≠ 0) :
    frontLength need (w :: rest) = frontLength (need - w) rest + 1 :=
  if_neg h

theorem frontLength_zero (weights : List Nat) : frontLength 0 weights = 0 := by
  cases weights with
  | nil => rfl
  | cons w rest => exact frontLength_cons_zero

theorem frontSum_zero (weights : List Nat) : frontSum 0 weights = 0 := by
  rw [frontSum, frontLength_zero]
  rfl

theorem frontSum_cons (h : need ≠ 0) :
    frontSum need (w :: rest) = w + frontSum (need - w) rest := by
  rw [frontSum, frontLength_cons h, List.take_succ_cons, List.sum_cons]
  rfl

theorem shortest_frontLength (need : Nat) (weights : List Nat) :
    Shortest need weights (frontLength need weights) := by
  induction weights generalizing need with
  | nil => exact ⟨Nat.le_refl 0, fun j hj => absurd hj (Nat.not_lt_zero j), .inr rfl⟩
  | cons w rest ih =>
    by_cases hneed : need = 0
    · subst hneed
      rw [frontLength_cons_zero]
      exact ⟨Nat.zero_le _, fun j hj => absurd hj (Nat.not_lt_zero j), .inl (Nat.zero_le _)⟩
    · obtain ⟨hle, hshort, hcovers⟩ := ih (need - w)
      rw [frontLength_cons hneed]
      refine ⟨Nat.succ_le_succ hle, fun j hj => ?_, ?_⟩
      · cases j with
        | zero => exact Nat.pos_of_ne_zero hneed
        | succ j =>
          have := hshort j (Nat.lt_of_succ_lt_succ hj)
          rw [List.take_succ_cons, List.sum_cons]
          omega
      · rw [List.take_succ_cons, List.sum_cons]
        refine hcovers.imp (fun h => by omega) fun h => ?_
        rw [h, List.length_cons]

end Covering
end Rust
