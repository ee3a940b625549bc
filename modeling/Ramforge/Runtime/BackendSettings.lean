/-
When the dense product depends on the settings of the backend.

The threaded and the wide products take the rows they need from the weights.
The scalar product checks the length of the weights once more, for equality.
-/
import Ramforge.Core.Compute
import Ramforge.Runtime.Backend

namespace Ramforge

open Rust Rust.Exec

/-- Two calls end the same way, and leave the same output if they return. -/
def SameResult {ε R : Type} (r r' : Outcome ε Unit × List R) : Prop :=
  r.1.kind = r'.1.kind ∧ (r.1 = .ok () → r.2 = r'.2)

namespace CpuBackend

variable {R : Type}

/-- All arguments fit and there are more weights than the shape has. -/
def Oversized (w : List R) (wShape : List Nat) (x y : List R) : Prop :=
  ∃ inDim outDim, wShape = [inDim, outDim] ∧ inDim * outDim < u64Bound ∧ x.length = inDim ∧
    y.length = outDim ∧ inDim * outDim < w.length

variable [CommRing R] {w x y : List R} {inDim outDim : Nat}

theorem matvecRow_run (backend : CpuBackend) (hlt : inDim < u64Bound)
    (hw : inDim * outDim ≤ w.length) (hx : x.length = inDim) {o : Nat} (ho : o < outDim)
    (hy : y.length = outDim) :
    backend.matvecRow w inDim x o y = (.ok (), y.set o (dot (Rows.row inDim w o) x)) := by
  have hend : (o + 1) * inDim ≤ w.length := by
    rw [Nat.mul_comm inDim] at hw
    exact Nat.le_trans (Nat.mul_le_mul_right _ ho) hw
  have hlen : (Rows.row inDim w o).length = inDim := Rows.length_row hend
  have hslice : slice w (o * inDim) (o * inDim + inDim) = some (Rows.row inDim w o) := by
    rw [Nat.succ_mul] at hend
    rw [slice_eq_some (by omega) hend, Nat.add_sub_cancel_left]
    rfl
  simp only [matvecRow]
  rw [hslice, expect_some, pure_bind_run]
  split
  · rw [bind_of_ok (Simd.dotF32Avx2_run _ hlen hx y), store_of_lt (by omega)]
  · have hreference : Compute.matvecF32Reference (Rows.row inDim w o) ⟨inDim, 1⟩ x [y.getD o 0] =
        (.ok (), [dot (Rows.row inDim w o) x]) := by
      have hrow : Rows.row inDim (Rows.row inDim w o) 0 = Rows.row inDim w o := by
        rw [Rows.row, Nat.zero_mul, List.drop_zero, List.take_of_length_le (Nat.le_of_eq hlen)]
      have hrun : Compute.matvecF32Reference (Rows.row inDim w o) ⟨inDim, 1⟩ x [y.getD o 0] = _ :=
        Compute.matvecF32Reference_run (by simp [hlen]) (by simpa using hlt) hx rfl
      simpa [hrow] using hrun
    rw [self_bind_run, index_of_lt (by omega) 0, pure_bind_run]
    have hlocal : (orPanic (Compute.matvecF32Reference (Rows.row inDim w o) ⟨inDim, 1⟩ x)
        (fun _ => "threaded scalar backend row shape must be valid") : Exec (List R) String Unit)
          [y.getD o 0] = (.ok (), [dot (Rows.row inDim w o) x]) := by
      rw [orPanic, hreference]
    rw [onLocal_of_ok hlocal, pure_bind_run]
    simp only []
    rw [index_of_lt (by simp) 0, pure_bind_run, List.getD_cons_zero, store_of_lt (by omega)]

theorem matvecRowsParallel_run (backend : CpuBackend) (hlt : inDim < u64Bound)
    (hw : inDim * outDim ≤ w.length) (hx : x.length = inDim) (hy : y.length = outDim) :
    backend.matvecRowsParallel w inDim x y =
      (.ok (), (List.range outDim).map fun i => dot (Rows.row inDim w i) x) := by
  rw [matvecRowsParallel, self_bind_run]
  have hwrite : ∀ o ∈ backend.pool.arrange (List.range y.length), ∀ ys : List R, ys.length = outDim →
      ∃ ys', backend.matvecRow w inDim x o ys = (.ok (), ys') ∧ ys'.length = outDim ∧ ∀ i < outDim,
        (o = i → ys'[i]? = some (dot (Rows.row inDim w i) x)) ∧ (¬o = i → ys'[i]? = ys[i]?) := by
    intro o ho ys hys
    have hlt' : o < outDim := by
      rw [Schedule.mem_arrange, List.mem_range, hy] at ho
      exact ho
    refine ⟨_, backend.matvecRow_run hlt hw hx hlt' hys, by rw [List.length_set, hys], ?_⟩
    intro k hk
    constructor
    · rintro rfl
      rw [List.getElem?_set_self (by omega)]
    · intro hne
      rw [List.getElem?_set_ne hne]
  apply forEach_fill hwrite _ hy
  intro i hi
  refine ⟨i, ?_, rfl⟩
  rw [Schedule.mem_arrange, List.mem_range, hy]
  exact hi

/-! ## The three ways through a call -/

section calls

variable (backend : CpuBackend) (hmul : inDim * outDim < u64Bound) (hx : x.length = inDim)
  (hy : y.length = outDim)

include hmul hx hy

theorem matvec_ok (hw : inDim * outDim ≤ w.length)
    (hpath : (1 < backend.threadCount ∧ 4 ≤ outDim) ∨ backend.useSimd = true ∨
      w.length = inDim * outDim) :
    backend.matvec w [inDim, outDim] x y =
      (.ok (), (List.range outDim).map fun i => dot (Rows.row inDim w i) x) := by
  simp only [matvec]
  rw [self_bind_run, checkedMul_of_lt hmul, okOr_some, pure_bind_run, failIf_bind_run,
    if_neg (by omega)]
  split
  · rename_i hthreads
    have hlt : inDim < u64Bound := by
      have hone : inDim * 1 ≤ inDim * outDim := Nat.mul_le_mul_left _ (by omega)
      omega
    exact backend.matvecRowsParallel_run hlt hw hx hy
  · rename_i hserial
    rw [Nat.mul_comm inDim] at hw hmul
    split
    · exact Simd.matvecF32Avx2_run _ hw hx hy
    · rename_i hscalar
      have hexact : w.length = inDim * outDim := by
        rcases hpath with hthreads | hsimd | hexact
        · exact absurd hthreads hserial
        · exact absurd hsimd hscalar
        · exact hexact
      rw [Nat.mul_comm inDim] at hexact
      have hrun : Compute.matvecF32Reference w ⟨inDim, outDim⟩ x y = _ :=
        Compute.matvecF32Reference_run hexact hmul hx hy
      rw [mapErr_run, hrun]
      rfl

/-- The scalar product refuses weights that the other products take. -/
theorem matvec_scalar_err (hw : inDim * outDim < w.length)
    (hserial : ¬(1 < backend.threadCount ∧ 4 ≤ outDim)) (hscalar : backend.useSimd = false) :
    ∃ e, backend.matvec w [inDim, outDim] x y = (.err e, y) := by
  have hvalid : ∃ e, (⟨inDim, outDim⟩ : MatrixShape).validate w.length x.length y.length = .error e := by
    rw [MatrixShape.validate, checkedMul_of_lt hmul]
    exact ⟨_, if_pos (Or.inl (Nat.ne_of_gt hw))⟩
  obtain ⟨e, hvalid⟩ := hvalid
  refine ⟨e.message, ?_⟩
  simp only [matvec]
  rw [self_bind_run, checkedMul_of_lt hmul, okOr_some, pure_bind_run, failIf_bind_run,
    if_neg (by omega), if_neg hserial, if_neg (by simp [hscalar]), mapErr_run,
    Compute.matvecF32Reference, self_bind_run, hvalid, ofResult_error_bind_run]
  rfl

end calls

/-- The arguments fit the shape. -/
def Fits (w : List R) (wShape : List Nat) (x y : List R) : Prop :=
  ∃ inDim outDim, wShape = [inDim, outDim] ∧ inDim * outDim < u64Bound ∧ x.length = inDim ∧
    y.length = outDim ∧ inDim * outDim ≤ w.length

/-- Arguments that do not fit are refused before the settings are read. -/
theorem matvec_unfit {wShape : List Nat} (h : ¬Fits w wShape x y) :
    ∃ e, ∀ backend : CpuBackend, backend.matvec w wShape x y = (.err e, y) := by
  match wShape with
  | [] => exact ⟨_, fun _ => rfl⟩
  | [_] => exact ⟨_, fun _ => rfl⟩
  | _ :: _ :: _ :: _ => exact ⟨_, fun _ => rfl⟩
  | [inDim, outDim] =>
    by_cases hmul : inDim * outDim < u64Bound
    · have hmismatch : x.length ≠ inDim ∨ y.length ≠ outDim ∨ w.length < inDim * outDim := by
        by_contra hfit
        apply h
        refine ⟨inDim, outDim, rfl, hmul, ?_, ?_, ?_⟩ <;> omega
      refine ⟨?message, fun backend => ?run⟩
      case run =>
        simp only [matvec]
        rw [self_bind_run, checkedMul_of_lt hmul, okOr_some, pure_bind_run, failIf_bind_run]
        exact if_pos hmismatch
    · have hover : checkedMul inDim outDim = none := if_neg hmul
      refine ⟨?overflow, fun backend => ?refused⟩
      case refused =>
        simp only [matvec]
        rw [self_bind_run, hover, okOr_none, throw_bind_run]

/-- The product does not depend on the settings exactly if the weights are not
oversized. -/
theorem settings_agree_iff (w : List R) (wShape : List Nat) (x y : List R) :
    (∀ backend backend' : CpuBackend,
      SameResult (backend.matvec w wShape x y) (backend'.matvec w wShape x y)) ↔
        ¬Oversized w wShape x y := by
  constructor
  · rintro hagree ⟨inDim, outDim, rfl, hmul, hx, hy, hw⟩
    let wide : CpuBackend := { scalar false .inOrder with useSimd := true }
    obtain ⟨e, herr⟩ := (scalar false .inOrder).matvec_scalar_err hmul hx hy hw (by simp [scalar]) rfl
    have hok := wide.matvec_ok hmul hx hy (Nat.le_of_lt hw) (Or.inr (Or.inl rfl))
    have hkind := (hagree (scalar false .inOrder) wide).1
    rw [herr, hok] at hkind
    cases hkind
  · intro hsize backend backend'
    by_cases hfits : Fits w wShape x y
    · obtain ⟨inDim, outDim, rfl, hmul, hx, hy, hw⟩ := hfits
      have hexact : w.length = inDim * outDim := by
        by_contra hne
        exact hsize ⟨inDim, outDim, rfl, hmul, hx, hy, by omega⟩
      rw [backend.matvec_ok hmul hx hy hw (Or.inr (Or.inr hexact)),
        backend'.matvec_ok hmul hx hy hw (Or.inr (Or.inr hexact))]
      exact ⟨rfl, fun _ => rfl⟩
    · obtain ⟨e, herr⟩ := matvec_unfit hfits
      rw [herr backend, herr backend']
      exact ⟨rfl, fun _ => rfl⟩

/-- One weight too many: the scalar product fails where the wide one returns. -/
theorem oversized_settings_disagree :
    ¬SameResult ((scalar false .inOrder).matvec [2, 3] [1, 1] [1] [(0 : Int)])
      (({ scalar false .inOrder with useSimd := true } : CpuBackend).matvec [2, 3] [1, 1] [1] [0]) := by
  rintro ⟨hkind, -⟩
  exact absurd hkind (by decide)

end CpuBackend
end Ramforge
