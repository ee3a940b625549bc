/-
Persistent weights: the embedding, the output norm and the output projection.

A weight of at most a quarter of the budget is kept resident.  A larger one is
streamed: an embedding is one row read from the file, and a product reads the rows in
chunks that fit the budget.
-/
import Ramforge.Core.Memory
import Ramforge.Runtime.PlanModel
import Ramforge.Runtime.TensorLoad

namespace Ramforge

open Rust Rust.Exec GgufDataSource

inductive PersistentWeight (R : Type) where
  | resident (tensor : TensorData R)
  | streamed (descriptor : TensorDescriptor)

/-- A call that reads the file and charges the budget. -/
abbrev Managed (α : Type) : Type := Exec (Host × MemoryBudget) String α

/-- The row layout of the quantized types that can be streamed. -/
def streamedLayout : GgmlType → Option (Nat × Nat)
  | .q4_0 => some (32, 18)
  | .q8_0 => some (32, 34)
  | .q4_K => some (256, 144)
  | .q5_K => some (256, 176)
  | .q6_K => some (256, 210)
  | .q2_K => some (256, 84)
  | .q3_K => some (256, 110)
  | .q8_K => some (256, 292)
  | _ => none

/-- The bytes of a row of `inDim` elements of the descriptor's type. -/
def rowBytesFor {σ : Type} (desc : TensorDescriptor) (inDim : Nat) : Exec σ String Nat :=
  match desc.ggmlType with
  | .f32 => okOr (checkedMul inDim 4) "F32 row byte size overflow"
  | .f16 | .bf16 => okOr (checkedMul inDim 2) "16-bit row byte size overflow"
  | ggmlType => do
    let (blockElements, blockBytes) ← okOr (streamedLayout ggmlType)
      ("unsupported persistent weight type for streaming: " ++ ggmlType.name)
    failIf (inDim % blockElements ≠ 0)
      (s!"row dimension {inDim} is not divisible by block size {blockElements} for " ++
        ggmlType.name)
    okOr (checkedMul (inDim / blockElements) blockBytes)
      (ggmlType.name ++ " row byte size overflow")

/-- A call on the host inside a temporary charge. -/
def withTempHost {α : Type} (name : String) (bytes : Nat) (f : Exec Host String α) : Managed α :=
  MemoryBudget.withTemp MemoryError.display name bytes (onFst f)

variable {R : Type} [F32 R] [Zero R] [Add R] [Sub R] [Mul R]

/-- What `copy_from_slice` says on buffers of different lengths. -/
def copyLengthMismatch : String :=
  "copy_from_slice: source slice length does not match destination slice length"

/-- `output.copy_from_slice(&row)`; the result is what `output` holds then. -/
def copyFromSlice {σ ε : Type} (output row : List R) : Exec σ ε (List R) :=
  expect (if row.length = output.length then some row else none) copyLengthMismatch

namespace PersistentWeight

/-- The shape checks on a streamed embedding. -/
def checkStreamedEmbedding {σ : Type} (desc : TensorDescriptor) (tokenId nEmbd : Nat) :
    Exec σ String Unit :=
  match desc.dimensions with
  | [rowWidth, rowCount] =>
    failIf (rowWidth ≠ nEmbd ∨ tokenId ≥ rowCount)
      ("streamed embedding shape mismatch: tensor '" ++ desc.name ++
        s!"' is [{rowWidth}, {rowCount}], requested row {tokenId} with width {nEmbd}")
  | _ => throw ("streamed embedding tensor '" ++ desc.name ++
      s!"' must be 2D, got {desc.dimensions}")

/-- The embedding of a token.  The result is what `output` holds after the call; after an
error nobody reads it. -/
def getEmbeddingInto (weight : PersistentWeight R) (tokenId nEmbd : Nat) (output : List R) :
    Managed (List R) := do
  failIf (nEmbd = 0 ∨ output.length ≠ nEmbd)
    s!"embedding output length mismatch: expected {nEmbd}, got {output.length}"
  let decodedBytes ← okOr (checkedMul nEmbd 4) "embedding output byte size overflow"
  match weight with
  | .resident tensor =>
    withTempHost "tmp:embd_row" decodedBytes do
      let row ← mapErr (fun error => "embedding lookup failed: " ++ DataSourceError.text error)
        (tensor.getEmbedding tokenId nEmbd)
      copyFromSlice output row
  | .streamed desc => do
    checkStreamedEmbedding desc tokenId nEmbd
    let elementOffset ← okOr (checkedMul tokenId nEmbd) "embedding row element offset overflow"
    if desc.ggmlType = .f32 then
      withTempHost "tmp:embd_row" decodedBytes do
        let row ← mapErr (fun error => "failed to read embedding row: " ++ DataSourceError.text error)
          (readF32TensorRangeByDescriptor desc elementOffset nEmbd)
        copyFromSlice output (row.map F32.fromBits)
    else do
      let rowBytes ← rowBytesFor desc nEmbd
      let byteOffset ← okOr (checkedMul tokenId rowBytes) "embedding row byte offset overflow"
      withTempHost "tmp:embd_row" rowBytes do
        let raw ← mapErr (fun error => "failed to read embedding row: " ++ DataSourceError.text error)
          (readTensorRangeByDescriptor desc byteOffset rowBytes)
        let (_, output) ← mapErr
          (fun error => "failed to dequantize embedding row: " ++ DataSourceError.text error)
          (onLocal output (decodeRowToF32 desc.ggmlType raw nEmbd))
        return output

def toF32Vec (weight : PersistentWeight R) : Exec Host String (List R) :=
  match weight with
  | .resident tensor => mapErr DataSourceError.text tensor.toF32Vec
  | .streamed desc =>
    let readError := fun error =>
      "failed to read persistent tensor '" ++ desc.name ++ "': " ++ DataSourceError.text error
    if desc.ggmlType = .f32 then do
      let data ← mapErr readError (readF32TensorByDescriptor desc)
      return data.map F32.fromBits
    else do
      let raw ← mapErr readError (readTensorByDescriptor desc)
      let tensor ← ofResult ((TensorData.ofReadBytes desc.ggmlType desc.dimensions
        desc.numElements raw).mapError
          fun error => "failed to create TensorData: " ++ DataSourceError.text error)
      mapErr DataSourceError.text tensor.toF32Vec

end PersistentWeight

/-! ## Streamed products -/

def maxStreamChunkBytes : Nat := 16 * 1024 * 1024

def streamChunkBudgetShare : Nat := 4

/-- What the chunks of a streamed product have in common. -/
structure StreamPlan where
  desc : TensorDescriptor
  inDim : Nat
  outDim : Nat
  rowBytes : Nat
  rowsPerChunk : Nat

/-- A call that fills `y` from the file. -/
abbrev Streaming (R α : Type) : Type := Exec (List R × Host) String α

/-- A row of a chunk: multiply it and store the sum. -/
def storeDot (plan : StreamPlan) (row x : List R) (o : Nat) : Streaming R Unit := do
  let sum ← Compute.rowSum plan.inDim row x
  onFst (store o sum)

/-- A chunk of an F32 tensor. -/
def f32Chunk (plan : StreamPlan) (x : List R) (rowStart rowsThis : Nat) (rowBuf : List R) :
    Streaming R (List R) := do
  let elementOffset ← okOr (checkedMul rowStart plan.inDim) "streamed F32 element offset overflow"
  let elementCount ← okOr (checkedMul rowsThis plan.inDim) "streamed F32 element count overflow"
  let bits ← onSnd (mapErr
    (fun error => "failed to read direct F32 chunk of '" ++ plan.desc.name ++ "': " ++
      DataSourceError.text error)
    (readF32TensorRangeByDescriptor plan.desc elementOffset elementCount))
  let chunk : List R := bits.map F32.fromBits
  forRange rowsThis (fun r rowBuf => do
    let chunkRowStart ← okOr (checkedMul r plan.inDim) "streamed F32 row offset overflow"
    let rowEnd ← okOr (checkedMul (r + 1) plan.inDim) "streamed F32 row end overflow"
    let row ← okOr (slice chunk chunkRowStart rowEnd) "streamed F32 row is outside chunk"
    storeDot plan row x (rowStart + r)
    return rowBuf) rowBuf

/-- A chunk of raw rows, each decoded over the one before it. -/
def rawChunk (plan : StreamPlan) (x : List R) (rowStart rowsThis : Nat) (rowBuf : List R) :
    Streaming R (List R) := do
  let offset ← okOr (checkedMul rowStart plan.rowBytes) "streamed matvec byte offset overflow"
  let len ← okOr (checkedMul rowsThis plan.rowBytes) "streamed matvec chunk length overflow"
  let chunk ← onSnd (mapErr
    (fun error => "failed to read chunk of '" ++ plan.desc.name ++ "': " ++ DataSourceError.text error)
    (readTensorRangeByDescriptor plan.desc offset len))
  forRange rowsThis (fun r rowBuf => do
    let rowOffset ← okOr (checkedMul r plan.rowBytes) "streamed matvec row offset overflow"
    let rowEnd ← okOr (checkedAdd rowOffset plan.rowBytes) "streamed matvec row end overflow"
    let rowSlice ← okOr (slice chunk rowOffset rowEnd)
      "streamed matvec decoded row is outside chunk"
    let (_, row) ← mapErr
      (fun error => "failed to decode row of '" ++ plan.desc.name ++ "': " ++
        DataSourceError.text error)
      (onLocal rowBuf (decodeRowToF32 plan.desc.ggmlType rowSlice plan.inDim))
    storeDot plan row x (rowStart + r)
    return row) rowBuf

structure StreamLocals (R : Type) where
  rowStart : Nat
  rowBuf : List R

/-- A round of the loop over the chunks. -/
def streamRound (plan : StreamPlan) (chunk : Nat → Nat → List R → Streaming R (List R))
    (l : StreamLocals R) : Streaming R (RoundEnd (StreamLocals R) Unit) := do
  if plan.outDim ≤ l.rowStart then return .leave ()
  else
    let rowsThis := min plan.rowsPerChunk (plan.outDim - l.rowStart)
    let rowBuf ← chunk l.rowStart rowsThis l.rowBuf
    return .again { rowStart := l.rowStart + rowsThis, rowBuf }

def streamRows (plan : StreamPlan) (chunk : Nat → Nat → List R → Streaming R (List R))
    (rowBuf : List R) : Streaming R Unit :=
  loopOn (fun l => plan.outDim - l.rowStart) (streamRound plan chunk) { rowStart := 0, rowBuf }

/-- The dimensions of a tensor that a product can be streamed from. -/
def streamedDims {σ : Type} (desc : TensorDescriptor) (xLen yLen : Nat) :
    Exec σ String (Nat × Nat) :=
  match desc.dimensions with
  | [inDim, outDim] => do
    failIf (inDim = 0 ∨ outDim = 0)
      ("streamed matvec requires non-zero dimensions, '" ++ desc.name ++
        s!"' has [{inDim}, {outDim}]")
    failIf (xLen ≠ inDim ∨ yLen ≠ outDim)
      ("streamed matvec arity mismatch (ggml layout [in, out]): '" ++ desc.name ++
        s!"' {desc.dimensions} implies in={inDim}, out={outDim}, but got x.len()={xLen}, y.len()={yLen}")
    return (inDim, outDim)
  | _ => throw ("streamed matvec expects a 2D tensor, '" ++ desc.name ++
      s!"' has shape {desc.dimensions}")

/-- `y = W * x` with the rows of `W` read in chunks.  The result is what `y` holds after the
call; after an error nobody reads it. -/
def streamedMatvecInto (desc : TensorDescriptor) (x y : List R) : Managed (List R) := do
  let (inDim, outDim) ← streamedDims desc x.length y.length
  let rowBytes ← rowBytesFor desc inDim
  let rowF32Bytes ← okOr (checkedMul inDim 4) "streamed matvec F32 row byte size overflow"
  let availShare := (← onSnd MemoryBudget.availableBytes) / streamChunkBudgetShare
  let chunkTarget := max (min availShare maxStreamChunkBytes) rowBytes
  let rowsPerChunk := max (chunkTarget / rowBytes) 1
  let chunkBytes ← okOr (checkedMul rowsPerChunk rowBytes)
    "streamed matvec chunk byte size overflow"
  let directF32 : Bool := desc.ggmlType = .f32
  let tempBytes ← (if directF32 then pure chunkBytes
    else okOr (checkedAdd chunkBytes rowF32Bytes) "streamed matvec temporary byte size overflow")
  let fits ← onSnd (MemoryBudget.canAllocate tempBytes)
  failIfM (!fits) do
    let available ← onSnd MemoryBudget.availableBytes
    let detail := if directF32 then "direct F32 chunk" else "raw chunk + decoded row buffer"
    return "RAM budget too small to stream tensor '" ++ desc.name ++
      s!"': need {tempBytes} bytes of temporary working set ({detail}), available {available}"
  let plan : StreamPlan := { desc, inDim, outDim, rowBytes, rowsPerChunk }
  withTempHost "tmp:streamed_matvec" tempBytes do
    if directF32 then do
      let (_, y) ← withLocal y (streamRows plan (f32Chunk plan x) [])
      return y
    else do
      reserveBuffer "streamed decoded row"
      let (_, y) ← withLocal y
        (streamRows plan (rawChunk plan x) (List.replicate inDim 0))
      return y

/-- `compute_logits_into`, on a weight of either kind. -/
def PersistentWeight.matvecInto (weight : PersistentWeight R) (x y : List R) : Managed (List R) :=
  match weight with
  | .resident tensor => do
    let (_, y) ← onLocal y (mapErr DataSourceError.text (tensor.matvec x))
    return y
  | .streamed desc => streamedMatvecInto desc x y

end Ramforge
