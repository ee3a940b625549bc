/-
The compute backend: the dense product over the settings it is made with.

A thread pool takes up the rows of a product in the order of its schedule.
-/
import Ramforge.Core.Compute
import Ramforge.Core.Tensor
import Ramforge.Runtime.Simd
import Ramforge.Rust.Parallel

namespace Ramforge

open Rust Rust.Exec

structure CpuBackend where
  threadCount : Nat
  threadCount_pos : 0 < threadCount
  useSimd : Bool
  /-- What `is_avx2_available` reports on the machine. -/
  avx2 : Bool
  pool : Schedule

namespace CpuBackend

def scalar (avx2 : Bool) (pool : Schedule) : CpuBackend :=
  { threadCount := 1, threadCount_pos := Nat.one_pos, useSimd := false, avx2, pool }

variable {R : Type} [Zero R] [Add R] [Mul R]

/-- One row of a threaded product, which has its own place of the output. -/
def matvecRow (backend : CpuBackend) (w : List R) (inDim : Nat) (x : List R) (o : Nat) :
    Exec (List R) String Unit := do
  let rowOffset := o * inDim
  let row ← expect (slice w rowOffset (rowOffset + inDim)) "range end index out of range"
  if backend.useSimd then
    let value ← Simd.dotF32Avx2 backend.avx2 row x
    store o value
  else
    let y ← self
    let yo ← index y o
    let (_, out) ← onLocal [yo] (orPanic (Compute.matvecF32Reference row ⟨inDim, 1⟩ x)
      fun _ => "threaded scalar backend row shape must be valid")
    let value ← index out 0
    store o value

def matvecRowsParallel (backend : CpuBackend) (w : List R) (inDim : Nat) (x : List R) :
    Exec (List R) String Unit := do
  let y ← self
  forEach (backend.pool.arrange (List.range y.length)) (backend.matvecRow w inDim x)

def matvec (backend : CpuBackend) (w : List R) (wShape : List Nat) (x : List R) :
    Exec (List R) String Unit :=
  match wShape with
  | [inDim, outDim] => do
    let y ← self
    let requiredWeights ← okOr (checkedMul inDim outDim)
      s!"backend matvec shape size overflow for ggml layout {wShape}"
    failIf (x.length ≠ inDim ∨ y.length ≠ outDim ∨ w.length < requiredWeights)
      s!"backend matvec arity mismatch (ggml layout [in, out]): shape {wShape} implies in={inDim}, out={outDim}, but got w.len()={w.length}, x.len()={x.length}, y.len()={y.length}"
    if backend.threadCount > 1 ∧ outDim ≥ 4 then backend.matvecRowsParallel w inDim x
    else if backend.useSimd then Simd.matvecF32Avx2 backend.avx2 w outDim inDim x
    else mapErr ComputeError.message (Compute.matvecF32Reference w ⟨inDim, outDim⟩ x)
  | _ => throw s!"backend matvec expects 2D w_shape [in, out] (ggml layout), got {wShape}"

end CpuBackend
end Ramforge

/-!
Products of quantized tensors: the serial kernels, and chunks of rows for the
workers of the backend.
-/

namespace Ramforge
namespace ComputeDispatch

open Rust Rust.Exec Quant

def quantParallelRowThreshold : Nat := 128

/-- The ranges `(start, count)` of rows. -/
def makeRowChunks (outDim nChunks : Nat) : List (Nat × Nat) :=
  let n := max (min nChunks outDim) 1
  let base := outDim / n
  let extra := outDim % n
  (Rust.forRange n (fun i out =>
    let count := base + if i < extra then 1 else 0
    (out.1 ++ [(out.2, count)], out.2 + count)) ([], 0)).1

variable {R : Type} [F32 R] [Zero R] [Add R] [Mul R]

/-- The type, the raw data and the kernel shape of a tensor with a row-parallel kernel. -/
def asQuantizedView : TensorData R → Option (GgmlType × List UInt8 × Nat × Nat)
  | .quantized tensor =>
    match tensor.ggmlType, tensor.shape with
    | .q4_0, [inDim, outDim] => some (.q4_0, tensor.rawData, outDim, inDim)
    | .q6_K, [inDim, outDim] => some (.q6_K, tensor.rawData, outDim, inDim)
    | _, _ => none
  | _ => none

/-- What a worker does with one range of rows. -/
def rowChunk (rowRange : List UInt8 → List Nat → List R → Nat → Option Nat → Writing R Unit)
    (raw : List UInt8) (inDim rowBytes : Nat) (x : List R) (range : Nat × Nat) :
    Exec (List R) String Unit := do
  let (rowStart, rowCount) := range
  let wOffset := wrappingMul rowStart rowBytes
  let wSub ← rawSlice raw wOffset (wOffset + wrappingMul rowCount rowBytes)
  onWindow rowStart (rowStart + rowCount)
    (mapErr DataSourceError.text (rowRange wSub [rowCount, inDim] x 0 none))

/-- The product of a format with a row-parallel kernel. -/
def rowParallelMatvec (backend : CpuBackend) (f : Format R)
    (rowRange : List UInt8 → List Nat → List R → Nat → Option Nat → Writing R Unit)
    (raw : List UInt8) (outDim inDim : Nat) (x : List R) : Exec (List R) String Unit :=
  if backend.threadCount > 1 ∧ outDim ≥ quantParallelRowThreshold then
    let blocksPerRow := inDim / f.qk
    let rowBytes := wrappingMul blocksPerRow f.blockSize
    let ranges := makeRowChunks outDim backend.threadCount
    forEach (backend.pool.arrange ranges) (rowChunk rowRange raw inDim rowBytes x)
  else mapErr DataSourceError.text (rowRange raw [outDim, inDim] x 0 none)

variable [Sub R]

/-- The compact kernel of a format without a row-parallel kernel. -/
def compactMatvec : GgmlType → Option (List UInt8 → List Nat → List R → Writing R Unit)
  | .q2_K => some matvecQ2K
  | .q3_K => some matvecQ3K
  | .q4_K => some matvecQ4K
  | .q5_0 => some matvecQ5_0
  | .q5_K => some matvecQ5K
  | .q8_0 => some matvecQ8_0
  | .q8_K => some matvecQ8K
  | _ => none

def unsupportedVariant (td : TensorData R) : String :=
  s!"optimized quantized dispatch received unsupported tensor variant {td.ggmlType.name}"

def optimizedQuantizedMatvec (td : TensorData R) (x : List R) : Exec (List R) String Unit :=
  match td with
  | .quantized tensor =>
    match compactMatvec tensor.ggmlType with
    | none => throw (unsupportedVariant td)
    | some kernel =>
      match tensor.shape with
      | [inDim, outDim] => mapErr DataSourceError.text (kernel tensor.rawData [outDim, inDim] x)
      | _ => throw s!"{tensor.ggmlType.name} matvec expects 2D tensor shape, got {tensor.shape}"
  | _ => throw (unsupportedVariant td)

def quantizedMatvecDispatch (backend : CpuBackend) (td : TensorData R) (x : List R) :
    Exec (List R) String Unit :=
  match asQuantizedView td with
  | some (.q4_0, raw, outDim, inDim) =>
    rowParallelMatvec backend .q4_0 matvecQ4_0RowRange raw outDim inDim x
  | some (.q6_K, raw, outDim, inDim) =>
    rowParallelMatvec backend .q6K matvecQ6KRowRange raw outDim inDim x
  | _ => optimizedQuantizedMatvec td x

end ComputeDispatch
end Ramforge
