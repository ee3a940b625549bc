/-
The reference kernels: dense and quantized matrices times vectors.

The state of a call is the output slice `y`.  The lengths are checked before any
product of dimensions is an index, so these products are exact.
-/
import Ramforge.Core.QuantRowRun
import Ramforge.Core.QuantRows
import Ramforge.Rust.Dot

namespace Ramforge

open Rust Rust.Exec Quant

structure ComputeError where
  message : String
deriving DecidableEq, Repr

structure MatrixShape where
  input : Nat
  output : Nat
deriving DecidableEq, Repr

namespace MatrixShape

def validate (shape : MatrixShape) (weightsLen xLen yLen : Nat) : Except ComputeError Unit :=
  match checkedMul shape.input shape.output with
  | none => .error ⟨"matrix weight size overflow"⟩
  | some expectedWeights =>
    if weightsLen ≠ expectedWeights ∨ xLen ≠ shape.input ∨ yLen ≠ shape.output then
      .error ⟨s!"matvec arity mismatch: shape [input={shape.input}, output={shape.output}] requires weights exactly {expectedWeights}, x {shape.input}, y {shape.output}; got weights {weightsLen}, x {xLen}, y {yLen}"⟩
    else .ok ()

end MatrixShape

namespace Compute

variable {R : Type} [Zero R] [Add R] [Mul R]

/-- A call that writes to the slice `y`. -/
abbrev Computing (R α : Type) : Type := Exec (List R) ComputeError α

/-- The sum of `row[i] * x[i]` for `i < n`, in this order. -/
def rowSum {σ ε : Type} (n : Nat) (row x : List R) : Exec σ ε R :=
  forRange n (fun i sum => do
    let w ← index row i
    let xi ← index x i
    return sum + w * xi) 0

def matvecF32Reference (weights : List R) (shape : MatrixShape) (x : List R) : Computing R Unit := do
  let y ← self
  ofResult (shape.validate weights.length x.length y.length)
  forRange shape.output (fun outputIndex _ => do
    let row ← expect (slice weights (outputIndex * shape.input) ((outputIndex + 1) * shape.input))
      "range end index out of range"
    let sum ← rowSum shape.input row x
    modify fun y => y.set outputIndex sum) ()

/-- The block width and the block bytes of a format with a reference row layout. -/
def blockLayout : GgmlType → Option (Nat × Nat)
  | .q4_0 => some (qk4_0, blockSizeQ4_0)
  | .q5_0 => some (qk5_0, blockSizeQ5_0)
  | .q8_0 => some (qk8_0, blockSizeQ8_0)
  | .q2_K => some (qkK, blockSizeQ2K)
  | .q3_K => some (qkK, blockSizeQ3K)
  | .q4_K => some (qkK, blockSizeQ4K)
  | .q5_K => some (qkK, blockSizeQ5K)
  | .q6_K => some (qkK, blockSizeQ6K)
  | .q8_K => some (qkK, blockSizeQ8K)
  | _ => none

def quantizedRowBytes (ggmlType : GgmlType) (input : Nat) : Except ComputeError Nat :=
  match blockLayout ggmlType with
  | none => .error ⟨s!"no reference row layout registered for {ggmlType.name}"⟩
  | some (qk, blockBytes) =>
    if input % qk ≠ 0 then
      .error ⟨s!"{ggmlType.name} input dimension {input} is not divisible by block width {qk}"⟩
    else
      match checkedMul (input / qk) blockBytes with
      | none => .error ⟨"quantized row size overflow"⟩
      | some bytes => .ok bytes

variable [F32 R] [Sub R]

/-- The row decoder of a format; `none` where no decoder is registered. -/
def rowDecoder : GgmlType → Option (List UInt8 → Nat → Writing R Unit)
  | .q4_0 => some dequantizeRowQ4_0
  | .q5_0 => some dequantizeRowQ5_0
  | .q8_0 => some dequantizeRowQ8_0
  | .q2_K => some dequantizeRowQ2K
  | .q3_K => some dequantizeRowQ3K
  | .q4_K => some dequantizeRowQ4K
  | .q5_K => some dequantizeRowQ5K
  | .q6_K => some dequantizeRowQ6K
  | .q8_K => some dequantizeRowQ8K
  | _ => none

def decodeQuantizedRow (ggmlType : GgmlType) (bytes : List UInt8) (input : Nat) :
    Computing R Unit :=
  match rowDecoder ggmlType with
  | some decode => mapErr (fun error => ⟨error.text⟩) (decode bytes input)
  | none => throw ⟨s!"no reference decoder registered for {ggmlType.name}"⟩

/-- One output row: decode it into the reused buffer, multiply, write the sum. -/
def referenceRow (ggmlType : GgmlType) (raw : List UInt8) (shape : MatrixShape) (x : List R)
    (rowBytes outputIndex : Nat) (decoded : List R) : Computing R (List R) := do
  let rowBytesSlice ← expect (slice raw (outputIndex * rowBytes) ((outputIndex + 1) * rowBytes))
    "range end index out of range"
  let (_, decoded) ← onLocal decoded (decodeQuantizedRow ggmlType rowBytesSlice shape.input)
  let sum ← rowSum shape.input decoded x
  modify fun y => y.set outputIndex sum
  return decoded

def quantizedMatvecReference (ggmlType : GgmlType) (raw : List UInt8) (shape : MatrixShape)
    (x : List R) : Computing R Unit := do
  let y ← self
  failIf (x.length ≠ shape.input ∨ y.length ≠ shape.output)
    ⟨s!"quantized matvec shape mismatch: shape MatrixShape \x7b input: {shape.input}, output: {shape.output} \x7d, x {x.length}, y {y.length}"⟩
  let rowBytes ← ofResult (quantizedRowBytes ggmlType shape.input)
  let expectedBytes ← okOr (checkedMul rowBytes shape.output) ⟨"quantized weight size overflow"⟩
  failIf (raw.length < expectedBytes)
    ⟨s!"quantized weight buffer truncated: expected {expectedBytes}, got {raw.length}"⟩
  let _ ← forRange shape.output (referenceRow ggmlType raw shape x rowBytes)
    (List.replicate shape.input 0)
  return ()

end Compute
end Ramforge

/-!
The reference kernels write the products of rows with the vector.
-/

namespace Ramforge
namespace Compute

open Rust Rust.Exec Quant Finset

variable {R : Type} [CommRing R]

theorem rowSum_run {σ ε : Type} {n : Nat} {row x : List R} (hrow : row.length = n)
    (hx : x.length = n) (s : σ) : (rowSum n row x : Exec σ ε R) s = (.ok (dot row x), s) := by
  have hloop := forRange_run (n := n) (ε := ε)
    (f := fun i sum => do
      let w ← index row i
      let xi ← index x i
      return sum + w * xi)
    (fun i => ∑ k ∈ range i, row.getD k 0 * x.getD k 0) (fun _ => s) ?_
  · rw [rowSum, dot_eq_sum hrow hx]
    exact hloop
  · intro i hi
    rw [index_of_lt (by omega) 0, index_of_lt (by omega) 0, sum_range_succ]
    rfl

/-- The dense reference kernel writes the products of the rows. -/
theorem matvecF32Reference_run {weights x y : List R} {shape : MatrixShape}
    (hw : weights.length = shape.output * shape.input) (hlt : shape.output * shape.input < u64Bound)
    (hx : x.length = shape.input) (hy : y.length = shape.output) :
    matvecF32Reference weights shape x y =
      (.ok (), (List.range shape.output).map fun i => dot (Rows.row shape.input weights i) x) := by
  have hmul : shape.input * shape.output = shape.output * shape.input := Nat.mul_comm ..
  have hvalid : shape.validate weights.length x.length y.length = .ok () := by
    rw [MatrixShape.validate, checkedMul_of_lt (by omega)]
    show (if _ then _ else _) = _
    rw [if_neg (by omega)]
  rw [matvecF32Reference, self_bind_run, hvalid, ofResult_ok_bind_run]
  apply forRange_fill hy
  intro i hi ys hys
  have hend : (i + 1) * shape.input ≤ shape.output * shape.input := Nat.mul_le_mul_right _ hi
  have hsucc : (i + 1) * shape.input = i * shape.input + shape.input := Nat.succ_mul _ _
  have hslice : slice weights (i * shape.input) ((i + 1) * shape.input) =
      some (Rows.row shape.input weights i) := by
    rw [slice_eq_some (by omega) (by omega), hsucc, Nat.add_sub_cancel_left]
    rfl
  have hlen : (Rows.row shape.input weights i).length = shape.input := Rows.length_row (by omega)
  rw [hslice, expect_some, pure_bind_run, bind_of_ok (rowSum_run hlen hx ys), modify_run]

omit [CommRing R] in
theorem quantizedRowBytes_run [F32 R] {ggmlType : GgmlType} {f : Format R} {n : Nat}
    (hlayout : blockLayout ggmlType = some (f.qk, f.blockSize)) (hqk : 0 < f.qk)
    (hrow : n * f.blockSize < u64Bound) :
    quantizedRowBytes ggmlType (n * f.qk) = .ok (n * f.blockSize) := by
  rw [quantizedRowBytes, hlayout]
  show (if _ then _ else _) = _
  rw [if_neg (by simp), Nat.mul_div_cancel _ hqk, checkedMul_of_lt hrow]

/-- The quantized reference kernel decodes every row and multiplies it. -/
theorem quantizedMatvecReference_run [F32 R] {ggmlType : GgmlType} {f : Format R}
    {decode : List UInt8 → Nat → Writing R Unit} {raw : List UInt8} {x y : List R} {outDim n : Nat}
    (hf : f.Decodes) (hlayout : blockLayout ggmlType = some (f.qk, f.blockSize))
    (hdecoder : rowDecoder ggmlType = some decode) (hdecode : ∀ {bytes : List UInt8} {out : List R},
      n * f.blockSize = bytes.length → out.length = n * f.qk →
      decode bytes (n * f.qk) out = (.ok (), f.decoded bytes n))
    (hraw : outDim * (n * f.blockSize) ≤ raw.length) (hlt : raw.length < u64Bound)
    (hrow : n * f.blockSize < u64Bound) (hx : x.length = n * f.qk) (hy : y.length = outDim) :
    quantizedMatvecReference ggmlType raw ⟨n * f.qk, outDim⟩ x y =
      (.ok (), (List.range outDim).map fun i =>
        dot (f.decoded (Rows.row (n * f.blockSize) raw i) n) x) := by
  have hmul : n * f.blockSize * outDim = outDim * (n * f.blockSize) := Nat.mul_comm ..
  have hloop := forRange_invariant (n := outDim)
    (f := referenceRow ggmlType raw ⟨n * f.qk, outDim⟩ x (n * f.blockSize))
    (b := List.replicate (n * f.qk) 0) (s := y)
    (I := fun i decoded out => decoded.length = n * f.qk ∧ out =
      filled (fun i => dot (f.decoded (Rows.row (n * f.blockSize) raw i) n) x) y i) ?_ ?_
  · obtain ⟨decoded, out, hrun, -, rfl⟩ := hloop
    rw [filled_of_length hy] at hrun
    simp only [quantizedMatvecReference]
    rw [self_bind_run, failIf_bind_run, if_neg (by simp [hx, hy]), quantizedRowBytes_run hlayout hf.qk_pos hrow,
      ofResult_ok_bind_run, checkedMul_of_lt (by omega), okOr_some, pure_bind_run, failIf_bind_run,
      if_neg (by omega), bind_of_ok hrun, pure_run]
  · exact ⟨List.length_replicate, (filled_zero _ y).symm⟩
  · rintro i hi decoded out ⟨hlen, rfl⟩
    have hend : (i + 1) * (n * f.blockSize) ≤ outDim * (n * f.blockSize) := Nat.mul_le_mul_right _ hi
    have hsucc : (i + 1) * (n * f.blockSize) = i * (n * f.blockSize) + n * f.blockSize :=
      Nat.succ_mul _ _
    have hslice : slice raw (i * (n * f.blockSize)) ((i + 1) * (n * f.blockSize)) =
        some (Rows.row (n * f.blockSize) raw i) := by
      rw [slice_eq_some (by omega) (by omega), hsucc, Nat.add_sub_cancel_left]
      rfl
    have hbytes : (Rows.row (n * f.blockSize) raw i).length = n * f.blockSize :=
      Rows.length_row (by omega)
    have hvalues : (f.decoded (Rows.row (n * f.blockSize) raw i) n).length = n * f.qk :=
      hf.length_decoded (Nat.le_of_eq hbytes.symm)
    have hlocal : (decodeQuantizedRow ggmlType (Rows.row (n * f.blockSize) raw i) (n * f.qk) decoded :
        _ × List R) = (.ok (), f.decoded (Rows.row (n * f.blockSize) raw i) n) := by
      rw [decodeQuantizedRow, hdecoder]
      show mapErr _ (decode _ _) decoded = _
      rw [mapErr_run, hdecode hbytes.symm hlen]
      rfl
    have hiy : i < y.length := by omega
    have hfilled := set_filled
      (v := fun i => dot (f.decoded (Rows.row (n * f.blockSize) raw i) n) x) hiy
    refine ⟨_, _, ?_, hvalues, hfilled⟩
    simp only [referenceRow]
    rw [hslice, expect_some, pure_bind_run, onLocal_of_ok hlocal, pure_bind_run]
    simp only []
    rw [bind_of_ok (rowSum_run hvalues hx _), modify_bind_run, pure_run]

end Compute
end Ramforge
