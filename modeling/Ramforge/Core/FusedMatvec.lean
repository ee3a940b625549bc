/-
Fused products are products with decoded rows.

`Fuses` is what a fused kernel does with one block.  From it come its products
with rows and with matrices, which are compared with the row decoders and with
the reference kernels.  Arithmetic is that of a commutative ring.
-/
import Ramforge.Core.Compute
import Ramforge.Core.QuantQ40
import Ramforge.Core.QuantQ6K

namespace Ramforge
namespace Quant

open Rust Rust.Exec Compute Finset

variable {R : Type} [CommRing R]

/-- `block` adds the products of one block of a row with the vector. -/
structure Fuses (f : Format R)
    (block : List UInt8 → List R → DotCursor R → Writing R (DotCursor R)) : Prop where
  decodes : f.Decodes
  block_run : ∀ {row : List UInt8} {x : List R} {i : Nat}, (i + 1) * f.blockSize ≤ row.length →
    (i + 1) * f.qk ≤ x.length → ∀ {deq : List R},
    f.decode (Rows.row f.blockSize row i) (List.replicate f.qk 0) = .ok deq → ∀ (sum : R) (s : List R),
    block row x { sum, xOffset := i * f.qk, off := i * f.blockSize } s =
      (.ok { sum := sum + dot deq (Rows.row f.qk x i), xOffset := (i + 1) * f.qk,
             off := (i + 1) * f.blockSize }, s)

theorem Fuses.row_run {f : Format R}
    {block : List UInt8 → List R → DotCursor R → Writing R (DotCursor R)} (hf : Fuses f block)
    {row : List UInt8} {x : List R} {n : Nat} (hrow : n * f.blockSize ≤ row.length)
    (hx : x.length = n * f.qk) (s : List R) :
    (do
      let c ← forRange n (fun _ c => block row x c) { sum := 0, xOffset := 0, off := 0 }
      return c.sum : Writing R R) s = (.ok (dot (f.decoded row n) x), s) := by
  have hloop := forRange_run (n := n) (f := fun _ c => block row x c)
    (fun i => { sum := ∑ k ∈ range i, dot (f.blockValues row k) (Rows.row f.qk x k),
                xOffset := i * f.qk, off := i * f.blockSize }) (fun _ => s) ?_
  · have hdot : dot (f.decoded row n) x = _ :=
      dot_flatMap hx fun i hi => hf.decodes.length_blockValues hrow hi
    rw [hdot]
    simp only [Nat.zero_mul, range_zero, sum_empty] at hloop
    exact bind_of_ok hloop
  · intro i hi
    have hblock : (i + 1) * f.blockSize ≤ n * f.blockSize := Nat.mul_le_mul_right _ hi
    have hvector : (i + 1) * f.qk ≤ n * f.qk := Nat.mul_le_mul_right _ hi
    have hfit : (i + 1) * f.blockSize ≤ row.length := by omega
    obtain ⟨hdecode, -⟩ := hf.decodes.decode_row hfit
    rw [hf.block_run (by omega) (by omega) hdecode, sum_range_succ]

/-! ## Matrices -/

section matrices

variable {f : Format R} {rowDot : List UInt8 → Nat → List R → Writing R R} {v : Nat → R}
  {w : List UInt8} {x y : List R} {outDim n : Nat}

omit [CommRing R] in
/-- A range of output rows, each the product `v` of its row. -/
theorem matvecRowRange_run {rowStart count : Nat} {rowCount : Option Nat} (hqk : 0 < f.qk)
    (hw : outDim * (n * f.blockSize) ≤ w.length) (hlt : w.length < u64Bound)
    (hrow : n * f.blockSize < u64Bound) (hout : outDim < u64Bound) (hx : x.length = n * f.qk)
    (hcount : rowCount.getD (outDim - rowStart) = count) (hend : rowStart + count ≤ outDim)
    (hy : y.length = count) (hdot : ∀ i < outDim, ∀ ys,
      rowDot (Rows.row (n * f.blockSize) w i) n x ys = (.ok (v i), ys)) :
    matvecRowRange f rowDot w [outDim, n * f.qk] x rowStart rowCount y =
      (.ok (), (List.range count).map fun i => v (rowStart + i)) := by
  have hrb : wrappingMul n f.blockSize = n * f.blockSize := wrappingMul_of_lt hrow
  have hwb : wrappingMul outDim (n * f.blockSize) = outDim * (n * f.blockSize) :=
    wrappingMul_of_lt (by omega)
  have hsum : checkedAdd rowStart count = some (rowStart + count) := checkedAdd_of_lt (by omega)
  have hspan : rowStart + count - rowStart = count := Nat.add_sub_cancel_left ..
  simp only [matvecRowRange]
  rw [self_bind_run, failIf_bind_run, if_neg (by omega), failIf_bind_run, if_neg (by omega), hcount,
    hsum, okOr_some, pure_bind_run, failIf_bind_run, if_neg (by omega), failIf_bind_run,
    if_neg (by simp), Nat.mul_div_cancel _ hqk, hrb, hwb, failIf_bind_run, if_neg (by omega), hspan]
  apply forRange_fill hy
  intro i hi ys hys
  have hrow_end : (rowStart + i + 1) * (n * f.blockSize) ≤ outDim * (n * f.blockSize) :=
    Nat.mul_le_mul_right _ (by omega)
  have hsucc : (rowStart + i + 1) * (n * f.blockSize) =
      (rowStart + i) * (n * f.blockSize) + n * f.blockSize := Nat.succ_mul _ _
  have hstart : wrappingMul (rowStart + i) (n * f.blockSize) = (rowStart + i) * (n * f.blockSize) :=
    wrappingMul_of_lt (by omega)
  have hslice : slice w ((rowStart + i) * (n * f.blockSize))
      ((rowStart + i) * (n * f.blockSize) + n * f.blockSize) =
        some (Rows.row (n * f.blockSize) w (rowStart + i)) := by
    rw [slice_eq_some (by omega) (by omega), Nat.add_sub_cancel_left]
    rfl
  simp only [rowRangeRow]
  rw [hstart, hslice, expect_some, pure_bind_run, bind_of_ok (hdot _ (by omega) ys), modify_run]

end matrices

/-! ## The two fused formats -/

inductive Fused where
  | q4_0
  | q6K

namespace Fused

variable [F32 R]

def ggmlType : Fused → GgmlType
  | q4_0 => .q4_0
  | q6K => .q6_K

def format : Fused → Format R
  | q4_0 => .q4_0
  | q6K => .q6K

def dequantizeRow : Fused → List UInt8 → Nat → Writing R Unit
  | q4_0 => dequantizeRowQ4_0
  | q6K => dequantizeRowQ6K

def rowDot : Fused → List UInt8 → Nat → List R → Writing R R
  | q4_0 => q4_0RowDot
  | q6K => q6KRowDot

def rowRange : Fused → List UInt8 → List Nat → List R → Nat → Option Nat → Writing R Unit
  | q4_0 => matvecQ4_0RowRange
  | q6K => matvecQ6KRowRange

def matvec : Fused → List UInt8 → List Nat → List R → Writing R Unit
  | q4_0 => matvecQ4_0
  | q6K => matvecQ6K

def block : Fused → List UInt8 → List R → DotCursor R → Writing R (DotCursor R)
  | q4_0 => q4_0BlockDot
  | q6K => q6KBlockDot

theorem fuses (k : Fused) : Fuses (k.format : Format R) k.block := by
  cases k with
  | q4_0 =>
    refine ⟨⟨Nat.zero_lt_succ _, Nat.zero_lt_succ _, fun hbytes out hout => ?_⟩, fun hrow hx _ hdeq sum s => ?_⟩
    · obtain ⟨deq, hdeq, hlen, -⟩ := BlockQ4_0.decode_eq hbytes hout
      exact ⟨deq, hdeq, hlen⟩
    · exact q4_0BlockDot_run hrow hx hdeq sum s
  | q6K =>
    refine ⟨⟨Nat.zero_lt_succ _, Nat.zero_lt_succ _, fun hbytes out hout => ?_⟩, fun hrow hx _ hdeq sum s => ?_⟩
    · obtain ⟨deq, hdeq, hlen, -⟩ := BlockQ6K.decode_eq hbytes hout
      exact ⟨deq, hdeq, hlen⟩
    · exact q6KBlockDot_run hrow hx hdeq sum s

theorem dequantizeRow_eq (k : Fused) :
    (k.dequantizeRow : List UInt8 → Nat → Writing R Unit) = Quant.dequantizeRow k.format := by
  cases k <;> rfl

theorem rowRange_eq (k : Fused) (w : List UInt8) (wShape : List Nat) (x : List R) (rowStart : Nat)
    (rowCount : Option Nat) : k.rowRange w wShape x rowStart rowCount =
      matvecRowRange k.format k.rowDot w wShape x rowStart rowCount := by
  cases k <;> rfl

theorem matvec_eq (k : Fused) (w : List UInt8) (wShape : List Nat) (x : List R) :
    k.matvec w wShape x = k.rowRange w wShape x 0 none := by
  cases k <;> rfl

theorem rowDot_run (k : Fused) {row : List UInt8} {x : List R} {n : Nat}
    (hrow : n * (k.format : Format R).blockSize ≤ row.length)
    (hx : x.length = n * (k.format : Format R).qk) (s : List R) :
    k.rowDot row n x s = (.ok (dot (k.format.decoded row n) x), s) := by
  cases k with
  | q4_0 => exact (fuses (R := R) q4_0).row_run hrow hx s
  | q6K => exact (fuses (R := R) q6K).row_run hrow hx s

/-- A block takes more than half as many bytes as it has values, and less than
that many bytes. -/
theorem blockSize_lt (k : Fused) : (k.format : Format R).blockSize < (k.format : Format R).qk ∧
    (k.format : Format R).qk < 2 * (k.format : Format R).blockSize := by
  cases k with
  | q4_0 => exact ⟨(by decide : 18 < 32), (by decide : 32 < 2 * 18)⟩
  | q6K => exact ⟨(by decide : 210 < 256), (by decide : 256 < 2 * 210)⟩

/-- The product of row `i` of a matrix of rows of `n` blocks. -/
def products (k : Fused) (w : List UInt8) (x : List R) (n i : Nat) : R :=
  dot (k.format.decoded (Rows.row (n * (k.format : Format R).blockSize) w i) n) x

/-- The range kernel over all rows. -/
theorem rowRange_run (k : Fused) {w : List UInt8} {x y : List R} {outDim n : Nat}
    (hw : outDim * (n * (k.format : Format R).blockSize) ≤ w.length) (hlt : w.length < u64Bound)
    (hrow : n * (k.format : Format R).blockSize < u64Bound) (hout : outDim < u64Bound)
    (hx : x.length = n * (k.format : Format R).qk) (hy : y.length = outDim) :
    k.rowRange w [outDim, n * (k.format : Format R).qk] x 0 none y =
      (.ok (), (List.range outDim).map (k.products w x n)) := by
  have hdot : ∀ i < outDim, ∀ ys,
      k.rowDot (Rows.row (n * (k.format : Format R).blockSize) w i) n x ys =
        (.ok (k.products w x n i), ys) := by
    intro i hi ys
    apply rowDot_run k _ hx ys
    rw [Rows.length_row]
    exact Nat.le_trans (Nat.mul_le_mul_right _ hi) hw
  have hall : (none : Option Nat).getD (outDim - 0) = outDim := rfl
  rw [rowRange_eq, matvecRowRange_run k.fuses.decodes.qk_pos hw hlt hrow hout hx hall
    (Nat.le_of_eq (Nat.zero_add _)) hy hdot]
  simp

theorem matvec_run (k : Fused) {w : List UInt8} {x y : List R} {outDim n : Nat}
    (hw : outDim * (n * (k.format : Format R).blockSize) ≤ w.length) (hwlt : w.length < isizeBound)
    (hx : x.length = n * (k.format : Format R).qk) (hxlt : x.length < isizeBound)
    (hy : y.length = outDim) (hylt : y.length < isizeBound) :
    k.matvec w [outDim, n * (k.format : Format R).qk] x y =
      (.ok (), (List.range outDim).map (k.products w x n)) := by
  have hbytes : n * (k.format : Format R).blockSize ≤ n * (k.format : Format R).qk :=
    Nat.mul_le_mul_left _ (Nat.le_of_lt k.blockSize_lt.1)
  have hbound := two_mul_isizeBound
  rw [matvec_eq, k.rowRange_run hw (by omega) (by omega) (by omega) hx hy]

theorem quantizedMatvecReference_run (k : Fused) {w : List UInt8} {x y : List R} {outDim n : Nat}
    (hw : outDim * (n * (k.format : Format R).blockSize) ≤ w.length) (hwlt : w.length < isizeBound)
    (hx : x.length = n * (k.format : Format R).qk) (hxlt : x.length < isizeBound)
    (hy : y.length = outDim) :
    quantizedMatvecReference k.ggmlType w ⟨n * (k.format : Format R).qk, outDim⟩ x y =
      (.ok (), (List.range outDim).map (k.products w x n)) := by
  have hbytes : n * (k.format : Format R).blockSize ≤ n * (k.format : Format R).qk :=
    Nat.mul_le_mul_left _ (Nat.le_of_lt k.blockSize_lt.1)
  have hbound := two_mul_isizeBound
  have hlayout : blockLayout k.ggmlType =
      some ((k.format : Format R).qk, (k.format : Format R).blockSize) := by
    cases k <;> rfl
  have hdecoder : rowDecoder k.ggmlType = some (k.dequantizeRow : List UInt8 → Nat → Writing R Unit) := by
    cases k <;> rfl
  apply Compute.quantizedMatvecReference_run k.fuses.decodes hlayout hdecoder _ hw (by omega) (by omega)
    hx hy
  intro bytes out hlen hout
  rw [dequantizeRow_eq]
  exact dequantizeRow_run k.fuses.decodes (Nat.le_of_eq hlen) (by omega) hout

/-- Fused products are products with decoded rows, and a fused matrix product is
the reference product of the decoded matrix and of the quantized one. -/
theorem fused_eq_decoded (k : Fused) :
    (∀ {n : Nat} {row : List UInt8} {x out s : List R},
      row.length = n * (k.format : Format R).blockSize → row.length < isizeBound →
      x.length = n * (k.format : Format R).qk → out.length = n * (k.format : Format R).qk →
      ∃ deq : List R, k.dequantizeRow row (n * (k.format : Format R).qk) out = (.ok (), deq) ∧
        k.rowDot row n x s = (.ok (dot deq x), s)) ∧
    (∀ {outDim n : Nat} {w : List UInt8} {x y out : List R},
      w.length = outDim * (n * (k.format : Format R).blockSize) → w.length < isizeBound →
      x.length = n * (k.format : Format R).qk → x.length < isizeBound →
      y.length = outDim → y.length < isizeBound →
      out.length = outDim * n * (k.format : Format R).qk →
      ∃ deq product : List R,
        k.dequantizeRow w (outDim * n * (k.format : Format R).qk) out = (.ok (), deq) ∧
        product = ((List.range outDim).map fun i =>
          dot (Rows.row (n * (k.format : Format R).qk) deq i) x) ∧
        k.matvec w [outDim, n * (k.format : Format R).qk] x y = (.ok (), product) ∧
        matvecF32Reference deq ⟨n * (k.format : Format R).qk, outDim⟩ x y = (.ok (), product) ∧
        quantizedMatvecReference k.ggmlType w ⟨n * (k.format : Format R).qk, outDim⟩ x y =
          (.ok (), product)) := by
  have hbound := two_mul_isizeBound
  constructor
  · intro n row x out s hrow hlt hx hout
    refine ⟨k.format.decoded row n, ?_, k.rowDot_run (Nat.le_of_eq hrow.symm) hx s⟩
    rw [dequantizeRow_eq]
    exact dequantizeRow_run k.fuses.decodes (Nat.le_of_eq hrow.symm) (by omega) hout
  · intro outDim n w x y out hw hwlt hx hxlt hy hylt hout
    have hblocks : outDim * n * (k.format : Format R).blockSize = w.length := by
      rw [hw, Nat.mul_assoc]
    have hsize : outDim * n * (k.format : Format R).qk ≤
        2 * (outDim * n * (k.format : Format R).blockSize) := by
      rw [Nat.mul_left_comm]
      exact Nat.mul_le_mul_left _ (Nat.le_of_lt k.blockSize_lt.2)
    have hlen : (k.format.decoded w (outDim * n) : List R).length =
        outDim * n * (k.format : Format R).qk := k.fuses.decodes.length_decoded (Nat.le_of_eq hblocks)
    have hrows : (List.range outDim).map (k.products w x n) =
        (List.range outDim).map fun i =>
          dot (Rows.row (n * (k.format : Format R).qk) (k.format.decoded w (outDim * n)) i) x := by
      apply List.map_congr_left
      intro i hi
      rw [products, Format.row_decoded k.fuses.decodes (List.mem_range.mp hi) (Nat.le_of_eq hw.symm)]
    refine ⟨k.format.decoded w (outDim * n), _, ?_, rfl, ?_, ?_, ?_⟩
    · rw [dequantizeRow_eq]
      exact dequantizeRow_run k.fuses.decodes (Nat.le_of_eq hblocks) (by omega) hout
    · rw [k.matvec_run (Nat.le_of_eq hw.symm) hwlt hx hxlt hy hylt, hrows]
    · rw [Nat.mul_assoc] at hlen hsize
      apply matvecF32Reference_run hlen _ hx hy
      show outDim * (n * (k.format : Format R).qk) < u64Bound
      rw [Nat.mul_assoc outDim n (k.format : Format R).blockSize] at hsize
      omega
    · rw [k.quantizedMatvecReference_run (Nat.le_of_eq hw.symm) hwlt hx hxlt hy, hrows]

end Fused
end Quant
end Ramforge
