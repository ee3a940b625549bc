/-
Tensors in memory, and rows of tensors decoded one at a time.

A matrix has the shape `[in, out]` and holds `out` rows of `in` elements.
-/
import Ramforge.Core.Compute

namespace Ramforge

open Rust Rust.Exec Quant Compute

/-- The product of the dimensions; `none` where a product on the way overflows. -/
def shapeElements (shape : List Nat) : Option Nat := shape.foldlM checkedMul 1

/-- What `QuantizedTensor::new` has checked. -/
structure QuantizedTensor.WellFormed (ggmlType : GgmlType) (shape : List Nat) (numElements : Nat)
    (rawData : List UInt8) (qk blockSize : Nat) : Prop where
  layout : blockLayout ggmlType = some (qk, blockSize)
  divisible : numElements % qk = 0
  elements : shapeElements shape = some numElements
  size_lt : numElements / qk * blockSize < u64Bound
  size_le : numElements / qk * blockSize ≤ rawData.length

/-- A quantized tensor.  The dimensions are of type `usize`, and a buffer has less
than `isizeBound` bytes. -/
structure QuantizedTensor where
  ggmlType : GgmlType
  shape : List Nat
  numElements : Nat
  rawData : List UInt8
  wellFormed : ∃ qk blockSize,
    QuantizedTensor.WellFormed ggmlType shape numElements rawData qk blockSize
  shape_lt : ∀ dimension ∈ shape, dimension < u64Bound
  rawData_lt : rawData.length < isizeBound

namespace QuantizedTensor

def new (ggmlType : GgmlType) (shape : List Nat) (numElements : Nat) (rawData : List UInt8)
    (hshape : ∀ dimension ∈ shape, dimension < u64Bound) (hraw : rawData.length < isizeBound) :
    Except DataSourceError QuantizedTensor :=
  match hlayout : blockLayout ggmlType with
  | none => .error (.general s!"not a quantized type: {ggmlType.name}")
  | some (blockElements, blockBytes) =>
    if hdivisible : numElements % blockElements ≠ 0 then
      .error (.general s!"{ggmlType.name} elements {numElements} not divisible by {blockElements}")
    else
      match hcount : shapeElements shape with
      | none => .error (.general s!"{ggmlType.name} shape element count overflow")
      | some elements =>
        if helements : elements ≠ numElements then
          .error (.general s!"{ggmlType.name} shape describes {elements} elements, metadata reports {numElements}")
        else
          match hsize : checkedMul (numElements / blockElements) blockBytes with
          | none =>
            .error (.general s!"{ggmlType.name} quantized byte size overflow for {numElements} elements")
          | some expectedBytes =>
            if hlen : rawData.length < expectedBytes then
              .error (.general s!"quantized tensor truncated: expected {expectedBytes} bytes, got {rawData.length} for type {ggmlType.name}")
            else
              .ok { ggmlType, shape, numElements, rawData, shape_lt := hshape, rawData_lt := hraw,
                    wellFormed := by
                      obtain ⟨hlt, rfl⟩ := checkedMul_eq_some.mp hsize
                      obtain rfl := not_not.mp helements
                      exact ⟨_, _, hlayout, not_not.mp hdivisible, hcount, hlt, Nat.not_lt.mp hlen⟩ }

variable {σ R : Type} [F32 R] [Zero R] [Add R] [Sub R] [Mul R]

def dequantizeToF32 (tensor : QuantizedTensor) : Exec σ DataSourceError (List R) := do
  match rowDecoder tensor.ggmlType with
  | some decode => do
    let (_, out) ← onLocal (List.replicate tensor.numElements 0)
      (decode tensor.rawData tensor.numElements)
    return out
  | none => throw (.general s!"unsupported quantized type for dequant: {tensor.ggmlType.name}")

def dequantizeRow (tensor : QuantizedTensor) (rowIdx : Nat) : Exec σ DataSourceError (List R) :=
  match tensor.shape with
  | [] => throw (.general "cannot get row from scalar")
  | [_] => do
    failIf (rowIdx ≠ 0) (.general s!"row_idx {rowIdx} out of bounds for 1D tensor")
    tensor.dequantizeToF32
  | [rowElements, numRows] => do
    failIf (rowIdx ≥ numRows)
      (.general s!"row_idx {rowIdx} out of bounds: shape {tensor.shape} has {numRows} rows (ggml layout [in={rowElements}, out={numRows}])")
    let (qk, blockSize) ← okOr (blockLayout tensor.ggmlType)
      (.general s!"dequantize_row not supported for type {tensor.ggmlType.name}")
    failIf (rowElements % qk ≠ 0)
      (.general s!"row_elements {rowElements} not divisible by block size {qk} for type {tensor.ggmlType.name}")
    let rowBytes ← okOr (checkedMul (rowElements / qk) blockSize)
      (.general "quantized row byte size overflow")
    let rowStart ← okOr (checkedMul rowIdx rowBytes) (.general "quantized row offset overflow")
    let rowEnd ← okOr (checkedAdd rowStart rowBytes) (.general "quantized row end overflow")
    failIf (rowEnd > tensor.rawData.length)
      (.general s!"row {rowIdx} out of bounds for quantized tensor: row_start {rowStart} + row_bytes {rowBytes} > raw_len {tensor.rawData.length}")
    let rowSlice ← expect (slice tensor.rawData rowStart rowEnd) "range end index out of range"
    match rowDecoder tensor.ggmlType with
    | some decode => do
      let (_, out) ← onLocal (List.replicate rowElements 0) (decode rowSlice rowElements)
      return out
    | none => Exec.panic "internal error: entered unreachable code"
  | _ => throw (.general s!"dequantize_row supports 1D/2D tensors only, got shape {tensor.shape}")

def matvec (tensor : QuantizedTensor) (x : List R) : Writing R Unit :=
  match tensor.shape with
  | [inDim, outDim] => do
    let y ← self
    failIf (x.length ≠ inDim ∨ y.length ≠ outDim)
      (.general s!"quantized matvec arity mismatch (ggml layout [in, out]): W {tensor.shape} implies in={inDim}, out={outDim}, but got x.len()={x.length}, y.len()={y.length}")
    mapErr (fun error => .general error.message)
      (quantizedMatvecReference tensor.ggmlType tensor.rawData ⟨inDim, outDim⟩ x)
  | _ => throw (.general s!"quantized matvec expects 2D weight, got shape {tensor.shape}")

end QuantizedTensor

/-! ## Float formats -/

section floats

variable {R : Type} [F32 R]

def bf16ToF32 (bits : UInt16) : R := F32.fromBits (bits.toUInt32 <<< 16)

/-- A format whose elements have a fixed width: the words of its errors, the width, and the decoder
of one element. -/
structure FloatFormat (R : Type) where
  name : String
  width : Nat
  decode : List UInt8 → R

namespace FloatFormat

def f32 : FloatFormat R := ⟨"F32", 4, fun bytes => F32.fromBits (u32FromLe bytes)⟩

def f16 : FloatFormat R := ⟨"F16", 2, fun bytes => f16ToF32 (u16FromLe bytes)⟩

def bf16 : FloatFormat R := ⟨"BF16", 2, fun bytes => bf16ToF32 (u16FromLe bytes)⟩

/-- The elements of the first `n` chunks. -/
def elements (f : FloatFormat R) (bytes : List UInt8) (n : Nat) : List R :=
  (List.range n).map fun i => f.decode (Rows.row f.width bytes i)

end FloatFormat

/-- `decode_f32`, `decode_f16` and `decode_bf16`. -/
def decodeFloat (f : FloatFormat R) (bytes : List UInt8) (numElements : Nat) :
    Except DataSourceError (List R) :=
  match checkedMul numElements f.width with
  | none => .error (.general s!"{f.name} tensor byte size overflow")
  | some expected =>
    if bytes.length < expected then
      .error (.general s!"{f.name} tensor truncated: expected {expected} bytes, got {bytes.length}")
    else .ok (f.elements bytes numElements)

def decodeF32 : List UInt8 → Nat → Except DataSourceError (List R) := decodeFloat .f32

def decodeF16 : List UInt8 → Nat → Except DataSourceError (List R) := decodeFloat .f16

def decodeBf16 : List UInt8 → Nat → Except DataSourceError (List R) := decodeFloat .bf16

/-- The loop over the elements of a float row. -/
def decodeFloatRow (label : String) (f : FloatFormat R) (bytes : List UInt8) (numElements : Nat) :
    Writing R Unit := do
  let need ← okOr (checkedMul numElements f.width) (.general s!"{label} row byte size overflow")
  failIf (bytes.length < need)
    (.general s!"{label} row truncated: expected {need} bytes, got {bytes.length}")
  forRange numElements (fun i _ => store i (f.decode (Rows.row f.width bytes i))) ()

variable [Zero R] [Sub R] [Mul R]

def decodeRowToF32 (ggmlType : GgmlType) (bytes : List UInt8) (numElements : Nat) :
    Writing R Unit := do
  let out ← self
  failIf (out.length ≠ numElements)
    (.general s!"decode_row_to_f32: out buffer {out.length} != num_elements {numElements}")
  match ggmlType with
  | .f32 => decodeFloatRow "F32" .f32 bytes numElements
  | .f16 => decodeFloatRow "F16/BF16" .f16 bytes numElements
  | .bf16 => decodeFloatRow "F16/BF16" .bf16 bytes numElements
  | _ =>
    match rowDecoder ggmlType with
    | some decode => decode bytes numElements
    | none => throw (.general s!"decode_row_to_f32: unsupported tensor type {ggmlType.name}")

end floats

/-! ## Tensors -/

/-- A tensor.  Each quantized type has a variant of its own, which holds a tensor
of this type. -/
inductive TensorData (R : Type) where
  | f32 (data : List R) (shape : List Nat)
  | f16 (data : List R) (shape : List Nat)
  | bf16 (data : List R) (shape : List Nat)
  | quantized (tensor : QuantizedTensor)

namespace TensorData

def unsupportedType (ggmlType : GgmlType) : DataSourceError :=
  .general s!"unsupported tensor type for inference: {ggmlType.name} (supported: F32, F16, BF16, Q4_0, Q5_0, Q8_0, Q4_K, Q5_K, Q6_K, Q2_K, Q3_K, Q8_K)"

def residentBytesFor (ggmlType : GgmlType) (numElements fileBytes : Nat) :
    Except DataSourceError Nat :=
  match ggmlType with
  | .f32 | .f16 | .bf16 =>
    match checkedMul numElements 4 with
    | none =>
      .error (.general s!"resident size overflow for {ggmlType.name} tensor with {numElements} elements")
    | some bytes => .ok bytes
  | .q4_0 | .q5_0 | .q8_0 | .q4_K | .q5_K | .q6_K | .q2_K | .q3_K | .q8_K => .ok fileBytes
  | _ => .error (unsupportedType ggmlType)

variable {R : Type}

/-- The variant of a decoded float type. -/
def ofFloat (ggmlType : GgmlType) (data : List R) (shape : List Nat) : Option (TensorData R) :=
  match ggmlType with
  | .f32 => some (.f32 data shape)
  | .f16 => some (.f16 data shape)
  | .bf16 => some (.bf16 data shape)
  | _ => none

def checkElements (ggmlType : GgmlType) (shape : List Nat) (numElements : Nat) :
    Except DataSourceError Unit :=
  match shapeElements shape with
  | none => .error (.general s!"{ggmlType.name} shape element count overflow")
  | some elements =>
    if elements ≠ numElements then
      .error (.general s!"{ggmlType.name} shape describes {elements} elements, metadata reports {numElements}")
    else .ok ()

def fromDecodedFloatVec (ggmlType : GgmlType) (shape : List Nat) (numElements : Nat)
    (data : List R) : Except DataSourceError (TensorData R) :=
  match ofFloat ggmlType data shape with
  | none => .error (.general s!"decoded float construction does not support {ggmlType.name}")
  | some tensor =>
    if data.length ≠ numElements then
      .error (.general s!"{ggmlType.name} data length mismatch: expected {numElements} elements, got {data.length}")
    else do
      checkElements ggmlType shape numElements
      return tensor

def fromF32Vec : List Nat → Nat → List R → Except DataSourceError (TensorData R) :=
  fromDecodedFloatVec .f32

def shape : TensorData R → List Nat
  | .f32 _ shape | .f16 _ shape | .bf16 _ shape => shape
  | .quantized tensor => tensor.shape

def ggmlType : TensorData R → GgmlType
  | .f32 _ _ => .f32
  | .f16 _ _ => .f16
  | .bf16 _ _ => .bf16
  | .quantized tensor => tensor.ggmlType

def asF32Slice : TensorData R → Option (List R × List Nat)
  | .f32 data shape | .f16 data shape | .bf16 data shape => some (data, shape)
  | .quantized _ => none

/-- Float tensors are held decoded, four bytes to a number. -/
def residentBytes : TensorData R → Nat
  | .f32 data _ | .f16 data _ | .bf16 data _ => data.length * 4
  | .quantized tensor => tensor.rawData.length

/-- One row of a float tensor. -/
def floatEmbedding {σ : Type} (overflowLabel : String) (outOfBounds : String) (data : List R)
    (tokenId nEmbd : Nat) : Exec σ DataSourceError (List R) := do
  let offset ← okOr (checkedMul tokenId nEmbd)
    (.general s!"{overflowLabel} embedding row offset overflow")
  let last ← okOr (checkedAdd offset nEmbd) (.general s!"{overflowLabel} embedding row end overflow")
  if last ≤ data.length then
    expect (slice data offset last) "range end index out of range"
  else throw (.general outOfBounds)

variable [F32 R] [Zero R] [Add R] [Sub R] [Mul R]

def fromBytes (ggmlType : GgmlType) (shape : List Nat) (numElements : Nat) (rawBytes : List UInt8)
    (hshape : ∀ dimension ∈ shape, dimension < u64Bound) (hraw : rawBytes.length < isizeBound) :
    Except DataSourceError (TensorData R) := do
  checkElements ggmlType shape numElements
  match ggmlType with
  | .f32 => return .f32 (← decodeF32 rawBytes numElements) shape
  | .f16 => return .f16 (← decodeF16 rawBytes numElements) shape
  | .bf16 => return .bf16 (← decodeBf16 rawBytes numElements) shape
  | .q4_0 | .q5_0 | .q8_0 | .q4_K | .q5_K | .q6_K | .q2_K | .q3_K | .q8_K =>
    return .quantized (← QuantizedTensor.new ggmlType shape numElements rawBytes hshape hraw)
  | _ => throw (unsupportedType ggmlType)

def matvec (td : TensorData R) (x : List R) : Writing R Unit :=
  match td.shape with
  | [inDim, outDim] =>
    match td with
    | .f32 data _ | .f16 data _ | .bf16 data _ =>
      mapErr (fun error => .general error.message) (matvecF32Reference data ⟨inDim, outDim⟩ x)
    | .quantized tensor => tensor.matvec x
  | _ => throw (.general s!"matvec expects a 2D tensor, got shape {td.shape}")

def getEmbedding {σ : Type} (td : TensorData R) (tokenId nEmbd : Nat) :
    Exec σ DataSourceError (List R) := do
  failIf (td.shape.length = 2 ∧ td.shape.head? ≠ some nEmbd)
    (.general s!"get_embedding expects shape {td.shape} with n_embd == shape[0] (ggml layout [n_embd, vocab]), got n_embd={nEmbd}")
  match td with
  | .f32 data _ =>
    floatEmbedding "F32"
      s!"token_id {tokenId} out of bounds for F32 embedding len {data.length} n_embd {nEmbd}" data tokenId nEmbd
  | .f16 data _ | .bf16 data _ =>
    floatEmbedding "F16/BF16" s!"token_id {tokenId} out of bounds for F16 embedding" data tokenId nEmbd
  | .quantized tensor => tensor.dequantizeRow tokenId

/-- `to_f32_vec`, and `into_f32_vec`, which gives the numbers themselves and not a copy. -/
def toF32Vec {σ : Type} : TensorData R → Exec σ DataSourceError (List R)
  | .f32 data _ | .f16 data _ | .bf16 data _ => pure data
  | .quantized tensor => tensor.dequantizeToF32

/-- The construction from bytes that a reader has returned.  A buffer of bytes is shorter
than `isizeBound`. -/
def ofReadBytes (ggmlType : GgmlType) (shape : List Nat) (numElements : Nat)
    (rawBytes : List UInt8) : Except DataSourceError (TensorData R) :=
  match hlarge : shape.find? (u64Bound ≤ ·) with
  | some dimension =>
    .error (.general s!"{ggmlType.name} tensor dimension {dimension} does not fit this platform")
  | none =>
    if hraw : rawBytes.length < isizeBound then
      fromBytes ggmlType shape numElements rawBytes (fun dimension hmem => by
        simpa using List.find?_eq_none.mp hlarge dimension hmem) hraw
    else .error (.general "capacity overflow")

end TensorData

/-- `decode_tensor_to_f32`. -/
def decodeTensorToF32 {σ R : Type} [F32 R] [Zero R] [Sub R] [Mul R] (bytes : List UInt8)
    (ggmlType : GgmlType) (numElements : Nat) : Exec σ DataSourceError (List R) :=
  match ggmlType with
  | .f32 => ofResult (decodeF32 bytes numElements)
  | .f16 => ofResult (decodeF16 bytes numElements)
  | .bf16 => ofResult (decodeBf16 bytes numElements)
  | _ =>
    match rowDecoder ggmlType with
    | some decode => do
      let (_, out) ← onLocal (List.replicate numElements 0) (decode bytes numElements)
      return out
    | none => throw (TensorData.unsupportedType ggmlType)

end Ramforge
