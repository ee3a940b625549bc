/-
Dot products of lists: by places, by blocks, and as a counted loop.
-/
import Mathlib.Algebra.BigOperators.Group.Finset.Basic
import Mathlib.Algebra.Ring.Defs
import Ramforge.Rust.Buffer

namespace Rust

open Finset

variable {R : Type}

def dot [Zero R] [Add R] [Mul R] (w x : List R) : R := (List.zipWith (· * ·) w x).sum

/-- A sum over consecutive windows of width `w`. -/
theorem sum_range_mul [AddCommMonoid R] (t : Nat → R) (m w : Nat) :
    ∑ k ∈ range (m * w), t k = ∑ i ∈ range m, ∑ j ∈ range w, t (i * w + j) := by
  induction m with
  | zero => rw [Nat.zero_mul, range_zero, sum_empty, sum_empty]
  | succ m ih => rw [Nat.succ_mul, sum_range_add, ih, sum_range_succ]

theorem sum_map_range [AddCommMonoid R] (t : Nat → R) (n : Nat) :
    ((List.range n).map t).sum = ∑ i ∈ range n, t i := rfl

variable [NonUnitalNonAssocSemiring R]

theorem dot_eq_sum {w x : List R} {n : Nat} (hw : w.length = n) (hx : x.length = n) :
    dot w x = ∑ i ∈ range n, w.getD i 0 * x.getD i 0 := by
  induction n generalizing w x with
  | zero =>
    rw [List.length_eq_zero_iff] at hw
    subst hw
    rfl
  | succ n ih =>
    cases w with
    | nil => cases hw
    | cons a w =>
      cases x with
      | nil => cases hx
      | cons b x =>
        have htail := ih (Nat.succ.inj hw) (Nat.succ.inj hx)
        rw [sum_range_succ', add_comm]
        simp only [List.getD_cons_succ, List.getD_cons_zero]
        rw [← htail]
        rfl

theorem dot_append {w₁ w₂ x₁ x₂ : List R} (h : w₁.length = x₁.length) :
    dot (w₁ ++ w₂) (x₁ ++ x₂) = dot w₁ x₁ + dot w₂ x₂ := by
  rw [dot, List.zipWith_append h, List.sum_append]
  rfl

/-- A product of consecutive blocks with the rows of a vector. -/
theorem dot_flatMap {k n : Nat} {w : Nat → List R} {x : List R} (hx : x.length = n * k)
    (hw : ∀ i < n, (w i).length = k) :
    dot ((List.range n).flatMap w) x = ∑ i ∈ range n, dot (w i) (Rows.row k x i) := by
  have hrows : ∀ m ≤ n,
      dot ((List.range m).flatMap w) ((List.range m).flatMap (Rows.row k x)) =
        ∑ i ∈ range m, dot (w i) (Rows.row k x i) := by
    intro m
    induction m with
    | zero => exact fun _ => rfl
    | succ m ih =>
      intro hm
      have hlen : ((List.range m).flatMap w).length = ((List.range m).flatMap (Rows.row k x)).length := by
        rw [List.length_flatMap, List.length_flatMap]
        congr 1
        apply List.map_congr_left
        intro i hi
        have him := List.mem_range.mp hi
        have hrow : (i + 1) * k ≤ x.length := by
          rw [hx]
          exact Nat.mul_le_mul_right k (by omega)
        rw [hw i (by omega), Rows.length_row hrow]
      rw [List.range_succ, List.flatMap_append, List.flatMap_append, dot_append hlen,
        ih (by omega), sum_range_succ]
      simp
  have htake : x = (List.range n).flatMap (Rows.row k x) := by
    rw [← Rows.take_eq_rows, ← hx, List.take_length]
  conv_lhs => rw [htake]
  exact hrows n (Nat.le_refl n)

end Rust
