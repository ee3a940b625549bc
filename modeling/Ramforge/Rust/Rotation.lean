/-
Vectors of pairs, with the first coordinates before the second ones, and the
rotation of every pair by an angle of its own.
-/
import Mathlib.Analysis.SpecialFunctions.Trigonometric.Basic
import Mathlib.Data.List.GetD
import Ramforge.Rust.Dot

namespace Rust

open Finset

/-! ## Loops over pairs and rows in place -/

namespace Exec

variable {α ε : Type}

theorem getD_append_add {ys : List α} {half : Nat} (hys : ys.length = half) (zs : List α) (i : Nat)
    (d : α) :
    (ys ++ zs).getD (i + half) d = zs.getD i d := by
  rw [List.getD_append_right _ _ _ _ (by omega), hys, Nat.add_sub_cancel]

/-- A loop that changes the two coordinates of pair `i` in round `i`, from what they were. -/
theorem forRange_pairs {half : Nat} {f : Nat → Unit → Exec (List α) ε Unit} {u v : Nat → α → α → α}
    {xs : List α} (d : α) (hxs : xs.length = half + half)
    (h : ∀ i < half, ∀ xs : List α, xs.length = half + half →
      f i () xs = (.ok (), (xs.set i (u i (xs.getD i d) (xs.getD (i + half) d))).set (i + half)
        (v i (xs.getD i d) (xs.getD (i + half) d)))) :
    forRange half f () xs =
      (.ok (), ((List.range half).map fun i => u i (xs.getD i d) (xs.getD (i + half) d)) ++
        (List.range half).map fun i => v i (xs.getD i d) (xs.getD (i + half) d)) := by
  obtain ⟨ys, zs, hys, hzs, rfl⟩ : ∃ ys zs : List α, ys.length = half ∧ zs.length = half ∧
      xs = ys ++ zs := by
    refine ⟨xs.take half, xs.drop half, ?_, ?_, (List.take_append_drop half xs).symm⟩
    · rw [List.length_take]
      omega
    · rw [List.length_drop]
      omega
  have hloop := forRange_run (n := half) (f := f) (fun _ => ())
    (fun i => filled (fun i => u i ((ys ++ zs).getD i d) ((ys ++ zs).getD (i + half) d)) ys i ++
      filled (fun i => v i ((ys ++ zs).getD i d) ((ys ++ zs).getD (i + half) d)) zs i) ?_
  · rw [filled_zero, filled_zero, filled_of_length hys, filled_of_length hzs] at hloop
    exact hloop
  · intro i hi
    have hfirst : (filled (fun i => u i ((ys ++ zs).getD i d) ((ys ++ zs).getD (i + half) d)) ys
        i).length = half := (length_filled (by omega)).trans hys
    have hsecond : (filled (fun i => v i ((ys ++ zs).getD i d) ((ys ++ zs).getD (i + half) d)) zs
        i).length = half := (length_filled (by omega)).trans hzs
    rw [h i hi _ (by rw [List.length_append, hfirst, hsecond]),
      List.getD_append _ _ _ _ (by omega), getD_append_add hfirst _ i d, getD_filled, getD_filled,
      List.set_append_left _ _ (by omega), List.set_append_right _ _ (by rw [List.length_set]; omega),
      List.length_set, hfirst, Nat.add_sub_cancel, ← getD_append_add hys zs i d,
      ← List.getD_append ys zs d i (by omega), set_filled (by omega), set_filled (by omega)]

end Exec

/-! ## Rotations -/

variable {half : Nat} {a b : Nat → ℝ} {xs ys : List ℝ}

/-- Every pair turned by its angle. -/
noncomputable def rotate (half : Nat) (angle : Nat → ℝ) (xs : List ℝ) : List ℝ :=
  ((List.range half).map fun i =>
    xs.getD i 0 * Real.cos (angle i) - xs.getD (i + half) 0 * Real.sin (angle i)) ++
  (List.range half).map fun i =>
    xs.getD i 0 * Real.sin (angle i) + xs.getD (i + half) 0 * Real.cos (angle i)

theorem length_rotate (half : Nat) (a : Nat → ℝ) (xs : List ℝ) :
    (rotate half a xs).length = half + half := by
  simp [rotate]

theorem getD_map_range {f : Nat → ℝ} {i : Nat} (h : i < half) :
    ((List.range half).map f).getD i 0 = f i := by
  rw [List.getD_eq_getElem?_getD, List.getElem?_map, List.getElem?_range h]
  rfl

theorem getD_rotate_first {i : Nat} (h : i < half) :
    (rotate half a xs).getD i 0 =
      xs.getD i 0 * Real.cos (a i) - xs.getD (i + half) 0 * Real.sin (a i) := by
  rw [rotate, List.getD_append _ _ _ _ (by simpa using h), getD_map_range h]

theorem getD_rotate_second {i : Nat} (h : i < half) :
    (rotate half a xs).getD (i + half) 0 =
      xs.getD i 0 * Real.sin (a i) + xs.getD (i + half) 0 * Real.cos (a i) := by
  rw [rotate, Exec.getD_append_add (by simp) _ i 0, getD_map_range h]

/-- Vectors of pairs are equal when their pairs are. -/
theorem ext_pairs (hxs : xs.length = half + half) (hys : ys.length = half + half)
    (hfirst : ∀ i < half, xs.getD i 0 = ys.getD i 0)
    (hsecond : ∀ i < half, xs.getD (i + half) 0 = ys.getD (i + half) 0) : xs = ys := by
  refine List.ext_getElem (hxs.trans hys.symm) fun i hi hi' => ?_
  have hget : xs.getD i 0 = ys.getD i 0 := by
    by_cases hlow : i < half
    · exact hfirst i hlow
    · have h := hsecond (i - half) (by omega)
      rwa [Nat.sub_add_cancel (by omega)] at h
  rwa [List.getD_eq_getElem _ _ hi, List.getD_eq_getElem _ _ hi'] at hget

theorem rotate_zero (hxs : xs.length = half + half) : rotate half (fun _ => 0) xs = xs := by
  refine ext_pairs (length_rotate ..) hxs (fun i hi => ?_) fun i hi => ?_
  · rw [getD_rotate_first hi, Real.cos_zero, Real.sin_zero]
    ring
  · rw [getD_rotate_second hi, Real.cos_zero, Real.sin_zero]
    ring

/-- Turning twice is turning by the sums of the angles. -/
theorem rotate_rotate (a b : Nat → ℝ) (xs : List ℝ) :
    rotate half b (rotate half a xs) = rotate half (fun i => a i + b i) xs := by
  refine ext_pairs (length_rotate ..) (length_rotate ..) (fun i hi => ?_) fun i hi => ?_
  · rw [getD_rotate_first hi, getD_rotate_first hi, getD_rotate_first hi, getD_rotate_second hi,
      Real.cos_add, Real.sin_add]
    ring
  · rw [getD_rotate_second hi, getD_rotate_first hi, getD_rotate_second hi, getD_rotate_second hi,
      Real.cos_add, Real.sin_add]
    ring

theorem dot_pairs (hxs : xs.length = half + half) (hys : ys.length = half + half) :
    dot xs ys = ∑ i ∈ range half,
      (xs.getD i 0 * ys.getD i 0 + xs.getD (i + half) 0 * ys.getD (i + half) 0) := by
  rw [dot_eq_sum hxs hys, sum_range_add, ← sum_add_distrib]
  refine sum_congr rfl fun i _ => ?_
  rw [Nat.add_comm half i]

/-- Only the differences of the angles matter to a product. -/
theorem dot_rotate_rotate (hys : ys.length = half + half) :
    dot (rotate half a xs) (rotate half b ys) = dot (rotate half (fun i => a i - b i) xs) ys := by
  rw [dot_pairs (length_rotate ..) (length_rotate ..), dot_pairs (length_rotate ..) hys]
  refine sum_congr rfl fun i hi => ?_
  have hi := mem_range.mp hi
  rw [getD_rotate_first hi, getD_rotate_first hi, getD_rotate_first hi, getD_rotate_second hi,
    getD_rotate_second hi, getD_rotate_second hi, Real.cos_sub, Real.sin_sub]
  ring

theorem dot_rotate_self (hxs : xs.length = half + half) :
    dot (rotate half a xs) (rotate half a xs) = dot xs xs := by
  rw [dot_rotate_rotate hxs]
  simp only [sub_self]
  rw [rotate_zero hxs]

end Rust
