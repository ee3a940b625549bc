/-
The SIMD dot product and matrix product.

`avx2` is what `is_avx2_available` reports on the machine.
-/
import Ramforge.Rust.Dot

namespace Ramforge
namespace Simd

open Rust Rust.Exec Finset

section definitions

variable {σ ε R : Type} [Zero R] [Add R] [Mul R]

def dotF32Scalar (a b : List R) : R := (List.zipWith (fun x y => x * y) a b).sum

/-- One fused multiply-add of eight lanes, from place `i * 8` on. -/
def laneRound (a b : List R) (i : Nat) (sum : List R) : Exec σ ε (List R) := do
  let av ← rawSlice a (i * 8) (i * 8 + 8)
  let bv ← rawSlice b (i * 8) (i * 8 + 8)
  return List.zipWith (· + ·) (List.zipWith (· * ·) av bv) sum

def dotF32Avx2Inner (a b : List R) : Exec σ ε R := do
  let len := a.length
  let result ← forRange (len / 8) (laneRound a b) (List.replicate 8 0)
  let total := result.sum
  forRange (len % 8) (fun r total => do
    let i := len / 8 * 8 + r
    let ai ← index a i
    let bi ← index b i
    return total + ai * bi) total

def dotF32Avx2 (avx2 : Bool) (a b : List R) : Exec σ ε R :=
  if avx2 ∧ a.length ≥ 8 then dotF32Avx2Inner a b else pure (dotF32Scalar a b)

def matvecF32Avx2 (avx2 : Bool) (w : List R) (outDim inDim : Nat) (x : List R) :
    Exec (List R) ε Unit :=
  if avx2 ∧ inDim ≥ 8 then
    forRange outDim (fun i _ => do
      let rowOffset := i * inDim
      let row ← expect (slice w rowOffset (rowOffset + inDim)) "range end index out of range"
      let value ← dotF32Avx2Inner row x
      store i value) ()
  else
    forRange outDim (fun i _ => do
      let rowOffset := i * inDim
      let sum ← forRange inDim (fun j sum => do
        let wj ← index w (rowOffset + j)
        let xj ← index x j
        return sum + wj * xj) 0
      store i sum) ()

end definitions

section results

variable {σ ε R : Type} [CommRing R] {a b : List R} {n : Nat}

theorem laneRound_run {m i : Nat} (hi : i < m) (ha : m * 8 ≤ a.length) (hb : m * 8 ≤ b.length)
    (v : Nat → R) (s : σ) :
    (laneRound a b i ((List.range 8).map v) : Exec σ ε (List R)) s =
      (.ok ((List.range 8).map fun j => v j + a.getD (i * 8 + j) 0 * b.getD (i * 8 + j) 0), s) := by
  have hwidth : i * 8 + 8 - i * 8 = 8 := Nat.add_sub_cancel_left ..
  have hlanes : ∀ {xs : List R}, m * 8 ≤ xs.length →
      (xs.drop (i * 8)).take 8 = (List.range 8).map fun j => xs.getD (i * 8 + j) 0 := by
    intro xs hxs
    apply List.ext_getElem?
    intro j
    rcases Nat.lt_or_ge j 8 with hj | hj
    · have hplace : i * 8 + j < xs.length := by omega
      rw [List.getElem?_take_of_lt hj, List.getElem?_drop]
      simp [hj, hplace]
    · rw [List.getElem?_eq_none, List.getElem?_eq_none]
      · simpa using hj
      · rw [List.length_take]
        omega
  rw [laneRound, rawSlice_of_le (by omega) (by omega), rawSlice_of_le (by omega) (by omega),
    pure_bind_run, pure_bind_run, pure_run, hwidth, hlanes ha, hlanes hb, List.zipWith_map,
    List.zipWith_self, List.zipWith_map, List.zipWith_self]
  simp only [add_comm]

/-- The products of the full rounds and of the rest are all the products. -/
theorem dotF32Avx2Inner_run (ha : a.length = n) (hb : b.length = n) (s : σ) :
    (dotF32Avx2Inner a b : Exec σ ε R) s = (.ok (dot a b), s) := by
  let term : Nat → R := fun k => a.getD k 0 * b.getD k 0
  have hzero : List.replicate 8 (0 : R) = (List.range 8).map fun j => ∑ i ∈ range 0, term (i * 8 + j) := by
    simp [List.range, List.range.loop]
  have hlanes := forRange_run (n := n / 8) (ε := ε) (f := laneRound a b)
    (fun m => (List.range 8).map fun j => ∑ i ∈ range m, term (i * 8 + j)) (fun _ => s) ?_
  · have hrest := forRange_run (n := n % 8) (ε := ε)
      (f := fun r total => do
        let i := n / 8 * 8 + r
        let ai ← index a i
        let bi ← index b i
        return total + ai * bi)
      (fun r => ∑ k ∈ range (n / 8 * 8 + r), term k) (fun _ => s) ?_
    · have htotal : ((List.range 8).map fun j => ∑ i ∈ range (n / 8), term (i * 8 + j)).sum =
          ∑ k ∈ range (n / 8 * 8 + 0), term k := by
        rw [sum_map_range, sum_comm, Nat.add_zero, sum_range_mul]
      have hall : n / 8 * 8 + n % 8 = n := by omega
      rw [hall] at hrest
      simp only [dotF32Avx2Inner]
      rw [ha, hzero, bind_of_ok hlanes, htotal, hrest, dot_eq_sum ha hb]
    · intro r hr
      simp only []
      rw [index_of_lt (by omega) 0, index_of_lt (by omega) 0, pure_bind_run, pure_bind_run, pure_run,
        ← Nat.add_assoc, sum_range_succ]
  · intro i hi
    rw [laneRound_run hi (by omega) (by omega)]
    simp only [sum_range_succ, term]

theorem dotF32Avx2_run (avx2 : Bool) (ha : a.length = n) (hb : b.length = n) (s : σ) :
    (dotF32Avx2 avx2 a b : Exec σ ε R) s = (.ok (dot a b), s) := by
  rw [dotF32Avx2]
  split
  · exact dotF32Avx2Inner_run ha hb s
  · rfl

variable {w x y : List R} {outDim inDim : Nat}

/-- The product of the first `outDim` rows of the weights, wide or not. -/
theorem matvecF32Avx2_run (avx2 : Bool) (hw : outDim * inDim ≤ w.length) (hx : x.length = inDim)
    (hy : y.length = outDim) :
    (matvecF32Avx2 avx2 w outDim inDim x : Exec (List R) ε Unit) y =
      (.ok (), (List.range outDim).map fun i => dot (Rows.row inDim w i) x) := by
  have hend : ∀ i < outDim, i * inDim + inDim ≤ w.length := by
    intro i hi
    have hrow : (i + 1) * inDim ≤ outDim * inDim := Nat.mul_le_mul_right _ hi
    rw [Nat.succ_mul] at hrow
    omega
  have hlen : ∀ i < outDim, (Rows.row inDim w i).length = inDim := by
    intro i hi
    apply Rows.length_row
    rw [Nat.succ_mul]
    exact hend i hi
  rw [matvecF32Avx2]
  split
  · apply forRange_fill hy
    intro i hi ys hys
    have hslice : slice w (i * inDim) (i * inDim + inDim) = some (Rows.row inDim w i) := by
      rw [slice_eq_some (by omega) (hend i hi), Nat.add_sub_cancel_left]
      rfl
    rw [hslice, expect_some, pure_bind_run, bind_of_ok (dotF32Avx2Inner_run (hlen i hi) hx ys),
      store_of_lt (by omega)]
  · apply forRange_fill hy
    intro i hi ys hys
    have hrow := hend i hi
    have hsum := forRange_run (n := inDim) (ε := ε)
      (f := fun j sum => do
        let wj ← index w (i * inDim + j)
        let xj ← index x j
        return sum + wj * xj)
      (fun j => ∑ k ∈ range j, (Rows.row inDim w i).getD k 0 * x.getD k 0) (fun _ => ys) ?_
    · rw [range_zero, sum_empty, ← dot_eq_sum (hlen i hi) hx] at hsum
      rw [bind_of_ok hsum, store_of_lt (by omega)]
    · intro j hj
      rw [index_of_lt (by omega) 0, index_of_lt (by omega) 0, pure_bind_run, pure_bind_run, pure_run,
        sum_range_succ, Rows.getD_row hj]

end results
end Simd
end Ramforge
