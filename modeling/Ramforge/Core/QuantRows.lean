/-
Rows of quantized blocks: decoding a row, and products of quantized rows with a
vector.

The state of a call is the output slice, `out` or `y`.
-/
import Ramforge.Core.Quant
import Ramforge.Rust.Checked

namespace Ramforge
namespace Quant

open Rust Rust.Exec

/-- A block format, as the row functions use it. -/
structure Format (R : Type) where
  name : String
  qk : Nat
  blockSize : Nat
  /-- `from_bytes` and `dequantize` into an array. -/
  decode : List UInt8 → List R → Except DataSourceError (List R)

namespace Format

variable {R : Type} [F32 R] [Mul R]

def q4_0 : Format R :=
  ⟨"Q4_0", qk4_0, blockSizeQ4_0, fun bytes out => (BlockQ4_0.fromBytes bytes).map (·.dequantize out)⟩

def q5_0 : Format R :=
  ⟨"Q5_0", qk5_0, blockSizeQ5_0, fun bytes out => (BlockQ5_0.fromBytes bytes).map (·.dequantize out)⟩

def q8_0 : Format R :=
  ⟨"Q8_0", qk8_0, blockSizeQ8_0, fun bytes out => (BlockQ8_0.fromBytes bytes).map (·.dequantize out)⟩

def q4K [Sub R] : Format R :=
  ⟨"Q4_K", qkK, blockSizeQ4K, fun bytes out => (BlockQ4K.fromBytes bytes).map (·.dequantize out)⟩

def q5K [Sub R] : Format R :=
  ⟨"Q5_K", qkK, blockSizeQ5K, fun bytes out => (BlockQ5K.fromBytes bytes).map (·.dequantize out)⟩

def q6K : Format R :=
  ⟨"Q6_K", qkK, blockSizeQ6K, fun bytes out => (BlockQ6K.fromBytes bytes).map (·.dequantize out)⟩

def q2K [Sub R] : Format R :=
  ⟨"Q2_K", qkK, blockSizeQ2K, fun bytes out => (BlockQ2K.fromBytes bytes).map (·.dequantize out)⟩

def q3K : Format R :=
  ⟨"Q3_K", qkK, blockSizeQ3K, fun bytes out => (BlockQ3K.fromBytes bytes).map (·.dequantize out)⟩

def q8K : Format R :=
  ⟨"Q8_K", qkK, blockSizeQ8K, fun bytes out => (BlockQ8K.fromBytes bytes).map (·.dequantize out)⟩

end Format

section rows

variable {R : Type} [Zero R]

/-- A call that writes to a slice of numbers. -/
abbrev Writing (R α : Type) : Type := Exec (List R) DataSourceError α

/-- `out[lo..hi].copy_from_slice(&src)`. -/
def copyFromSlice (lo hi : Nat) (src : List R) : Writing R Unit := do
  let out ← self
  let out' ← expect (copyInto out lo hi src) "copy_from_slice: range or length mismatch"
  set out'

/-- One block of a row, through a zeroed array. -/
def dequantizeBlock (f : Format R) (bytes : List UInt8) (i : Nat) : Writing R Unit := do
  let tmp ← ofResult (f.decode (Rows.row f.blockSize bytes i) (List.replicate f.qk 0))
  copyFromSlice (i * f.qk) ((i + 1) * f.qk) tmp

def rowChecks (f : Format R) (bytes : List UInt8) (nElements : Nat) : Writing R Unit := do
  failIf (nElements % f.qk ≠ 0)
    (.general s!"{f.name} row size {nElements} not divisible by block size {f.qk}")
  failIf (bytes.length < wrappingMul (nElements / f.qk) f.blockSize)
    (.general s!"{f.name} row truncated: expected {wrappingMul (nElements / f.qk) f.blockSize} bytes, got {bytes.length}")

def dequantizeRow (f : Format R) (bytes : List UInt8) (nElements : Nat) : Writing R Unit := do
  rowChecks f bytes nElements
  forRange (min (nElements / f.qk) (chunkCount f.blockSize bytes))
    (fun i _ => dequantizeBlock f bytes i) ()

variable [F32 R] [Mul R]

def dequantizeRowQ4_0 : List UInt8 → Nat → Writing R Unit := dequantizeRow .q4_0

def dequantizeRowQ5_0 : List UInt8 → Nat → Writing R Unit := dequantizeRow .q5_0

/-- The Q8_0 row decoder decodes into the destination. -/
def dequantizeRowQ8_0 (bytes : List UInt8) (nElements : Nat) : Writing R Unit := do
  rowChecks .q8_0 bytes nElements
  forRange (min (nElements / qk8_0) (chunkCount blockSizeQ8_0 bytes)) (fun i _ => do
    let block ← ofResult (BlockQ8_0.fromBytes (Rows.row blockSizeQ8_0 bytes i))
    let out ← self
    let blockOut ← expect (slice out (i * qk8_0) ((i + 1) * qk8_0)) "range end index out of range"
    copyFromSlice (i * qk8_0) ((i + 1) * qk8_0) (block.dequantize blockOut)) ()

def dequantizeRowQ6K : List UInt8 → Nat → Writing R Unit := dequantizeRow .q6K

def dequantizeRowQ3K : List UInt8 → Nat → Writing R Unit := dequantizeRow .q3K

def dequantizeRowQ8K : List UInt8 → Nat → Writing R Unit := dequantizeRow .q8K

variable [Sub R]

def dequantizeRowQ4K : List UInt8 → Nat → Writing R Unit := dequantizeRow .q4K

def dequantizeRowQ5K : List UInt8 → Nat → Writing R Unit := dequantizeRow .q5K

def dequantizeRowQ2K : List UInt8 → Nat → Writing R Unit := dequantizeRow .q2K

end rows

/-! ## Fused row products -/

section fused

variable {σ R : Type} [F32 R] [Zero R] [Add R] [Mul R]

/-- What the loop over the blocks of a row assigns. -/
structure DotCursor (R : Type) where
  sum : R
  xOffset : Nat
  off : Nat

/-- The two values of byte `j`, in the order of the loop over a block. -/
def q4_0LaneDot (rowBytes : List UInt8) (x : List R) (d : R) (off xOffset j : Nat) (sum : R) :
    Exec σ DataSourceError R := do
  let byte ← index rowBytes (off + j)
  let q0 : Int := (byte &&& 0x0F).toNat - 8
  let q1 : Int := (byte >>> 4).toNat - 8
  let x0 ← index x (xOffset + j)
  let sum := sum + asF32 q0 * d * x0
  let x1 ← index x (xOffset + 16 + j)
  return sum + asF32 q1 * d * x1

def q4_0BlockDot (rowBytes : List UInt8) (x : List R) (c : DotCursor R) :
    Exec σ DataSourceError (DotCursor R) := do
  let b0 ← index rowBytes c.off
  let b1 ← index rowBytes (c.off + 1)
  let d : R := f16ToF32 (u16FromLe [b0, b1])
  let off := c.off + 2
  let sum ← forRange 16 (q4_0LaneDot rowBytes x d off c.xOffset) c.sum
  return { sum, xOffset := c.xOffset + qk4_0, off := off + 16 }

def q4_0RowDot (rowBytes : List UInt8) (blocksPerRow : Nat) (x : List R) :
    Exec σ DataSourceError R := do
  let c ← forRange blocksPerRow (fun _ c => q4_0BlockDot rowBytes x c)
    { sum := 0, xOffset := 0, off := 0 }
  return c.sum

/-- What the loop over the halves of a Q6_K block assigns. -/
structure HalfCursor (R : Type) where
  sum : R
  xOffset : Nat
  qlOff : Nat
  qhOff : Nat
  scOffBase : Nat

def q6KLaneDot (ql qh scales : List UInt8) (d : R) (x : List R) (c : HalfCursor R) (l : Nat)
    (sum : R) : Exec σ DataSourceError R := do
  let is := l / 16
  let qhByte ← index qh (c.qhOff + l)
  let qlLo ← index ql (c.qlOff + l)
  let qlHi ← index ql (c.qlOff + 32 + l)
  let s1 ← index scales (c.scOffBase + is)
  let s2 ← index scales (c.scOffBase + is + 2)
  let s3 ← index scales (c.scOffBase + is + 4)
  let s4 ← index scales (c.scOffBase + is + 6)
  let sc1 := asF32 s1.toInt8.toInt * d
  let sc2 := asF32 s2.toInt8.toInt * d
  let sc3 := asF32 s3.toInt8.toInt * d
  let sc4 := asF32 s4.toInt8.toInt * d
  let q1 : UInt8 := (qlLo &&& (0x0F : UInt8)) ||| ((qhByte &&& 0x03) <<< 4)
  let q2 : UInt8 := (qlHi &&& (0x0F : UInt8)) ||| (((qhByte >>> 2) &&& 0x03) <<< 4)
  let q3 : UInt8 := (qlLo >>> 4) ||| (((qhByte >>> 4) &&& (0x03 : UInt8)) <<< 4)
  let q4 : UInt8 := (qlHi >>> 4) ||| (((qhByte >>> 6) &&& (0x03 : UInt8)) <<< 4)
  let x1 ← index x (c.xOffset + l)
  let x2 ← index x (c.xOffset + l + 32)
  let x3 ← index x (c.xOffset + l + 64)
  let x4 ← index x (c.xOffset + l + 96)
  return sum + sc1 * asF32 (q1.toNat - 32) * x1 + sc2 * asF32 (q2.toNat - 32) * x2 +
    sc3 * asF32 (q3.toNat - 32) * x3 + sc4 * asF32 (q4.toNat - 32) * x4

def q6KHalfDot (ql qh scales : List UInt8) (d : R) (x : List R) (c : HalfCursor R) :
    Exec σ DataSourceError (HalfCursor R) := do
  let sum ← forRange 32 (q6KLaneDot ql qh scales d x c) c.sum
  return { sum, xOffset := c.xOffset + 128, qlOff := c.qlOff + 64, qhOff := c.qhOff + 32,
           scOffBase := c.scOffBase + 8 }

def q6KBlockDot (rowBytes : List UInt8) (x : List R) (c : DotCursor R) :
    Exec σ DataSourceError (DotCursor R) := do
  failIf (c.off + blockSizeQ6K > rowBytes.length)
    (.general s!"Q6_K row truncated: expected {blockSizeQ6K} bytes per block")
  let ql ← expect (slice rowBytes c.off (c.off + 128)) "range end index out of range"
  let qh ← expect (slice rowBytes (c.off + 128) (c.off + 192)) "range end index out of range"
  let scales ← expect (slice rowBytes (c.off + 192) (c.off + 208)) "range end index out of range"
  let b0 ← index rowBytes (c.off + 208)
  let b1 ← index rowBytes (c.off + 209)
  let d : R := f16ToF32 (u16FromLe [b0, b1])
  let h ← forRange (qkK / 128) (fun _ h => q6KHalfDot ql qh scales d x h)
    { sum := c.sum, xOffset := c.xOffset, qlOff := 0, qhOff := 0, scOffBase := 0 }
  return { sum := h.sum, xOffset := h.xOffset, off := c.off + blockSizeQ6K }

def q6KRowDot (rowBytes : List UInt8) (blocksPerRow : Nat) (x : List R) :
    Exec σ DataSourceError R := do
  let c ← forRange blocksPerRow (fun _ c => q6KBlockDot rowBytes x c)
    { sum := 0, xOffset := 0, off := 0 }
  return c.sum

/-! ## Quantized matrices times vectors -/

/-- One output row of a fused product, into the local slice. -/
def rowRangeRow (rowBytes blocksPerRow : Nat)
    (rowDot : List UInt8 → Nat → List R → Writing R R) (w : List UInt8) (x : List R)
    (rowStart i : Nat) : Writing R Unit := do
  let rb := wrappingMul (rowStart + i) rowBytes
  let row ← expect (slice w rb (rb + rowBytes)) "range end index out of range"
  let dot ← rowDot row blocksPerRow x
  modify fun y => y.set i dot

def matvecRowRange (f : Format R) (rowDot : List UInt8 → Nat → List R → Writing R R)
    (w : List UInt8) (wShape : List Nat) (x : List R) (rowStart : Nat) (rowCount : Option Nat) :
    Writing R Unit :=
  match wShape with
  | [outDim, inDim] => do
    let y ← self
    failIf (x.length ≠ inDim)
      (.general s!"matvec input shape mismatch: W {wShape}, x {x.length}")
    failIf (rowStart > outDim)
      (.general s!"{f.name} row start {rowStart} exceeds out_dim {outDim}")
    let rowCount := rowCount.getD (outDim - rowStart)
    let rowEnd ← okOr (checkedAdd rowStart rowCount) (.general s!"{f.name} row range overflow")
    failIf (rowEnd > outDim ∨ y.length ≠ rowCount)
      (.general s!"{f.name} row range {rowStart}..{rowEnd} requires local y length {rowCount}, got {y.length} for out_dim {outDim}")
    failIf (inDim % f.qk ≠ 0) (.general s!"{f.name} in_dim {inDim} not divisible by {f.qk}")
    let blocksPerRow := inDim / f.qk
    let rowBytes := wrappingMul blocksPerRow f.blockSize
    failIf (w.length < wrappingMul outDim rowBytes)
      (.general s!"{f.name} weight truncated: expected {wrappingMul outDim rowBytes} bytes, got {w.length}")
    forRange (rowEnd - rowStart) (fun i _ =>
      rowRangeRow rowBytes blocksPerRow rowDot w x rowStart i) ()
  | _ => throw (.general s!"{f.name} matvec expects 2D weight")

def matvecQ4_0RowRange : List UInt8 → List Nat → List R → Nat → Option Nat → Writing R Unit :=
  matvecRowRange .q4_0 q4_0RowDot

def matvecQ4_0 (w : List UInt8) (wShape : List Nat) (x : List R) : Writing R Unit :=
  matvecQ4_0RowRange w wShape x 0 none

def matvecQ6KRowRange : List UInt8 → List Nat → List R → Nat → Option Nat → Writing R Unit :=
  matvecRowRange .q6K q6KRowDot

def matvecQ6K (w : List UInt8) (wShape : List Nat) (x : List R) : Writing R Unit :=
  matvecQ6KRowRange w wShape x 0 none

/-- One block of an output row, decoded and multiplied. -/
def blockDot (f : Format R) (row : List UInt8) (x : List R) (blockIdx : Nat) (sum : R) :
    Writing R R := do
  let deq ← ofResult (f.decode (Rows.row f.blockSize row blockIdx) (List.replicate f.qk 0))
  let xOffset := blockIdx * f.qk
  forRange f.qk (fun j sum => do
    let v ← index deq j
    let xj ← index x (xOffset + j)
    return sum + v * xj) sum

def matvecBlocks (f : Format R) (w : List UInt8) (wShape : List Nat) (x : List R) :
    Writing R Unit :=
  match wShape with
  | [outDim, inDim] => do
    let y ← self
    failIf (x.length ≠ inDim ∨ y.length ≠ outDim)
      (.general s!"matvec shape mismatch: W {wShape}, x {x.length}, y {y.length}")
    failIf (inDim % f.qk ≠ 0) (.general s!"{f.name} in_dim {inDim} not divisible by {f.qk}")
    let rowBytes := wrappingMul (inDim / f.qk) f.blockSize
    failIf (w.length < wrappingMul outDim rowBytes)
      (.general s!"{f.name} weight truncated: expected {wrappingMul outDim rowBytes} bytes, got {w.length}")
    forRange outDim (fun i _ => do
      let rowStart := wrappingMul i rowBytes
      let row ← expect (slice w rowStart (rowStart + rowBytes)) "range end index out of range"
      let sum ← forRange (chunkCount f.blockSize row) (blockDot f row x) 0
      modify fun y => y.set i sum) ()
  | _ => throw (.general s!"{f.name} matvec expects 2D weight")

def matvecQ8_0 : List UInt8 → List Nat → List R → Writing R Unit := matvecBlocks .q8_0

def matvecQ5_0 : List UInt8 → List Nat → List R → Writing R Unit := matvecBlocks .q5_0

def matvecQ3K : List UInt8 → List Nat → List R → Writing R Unit := matvecBlocks .q3K

def matvecQ8K : List UInt8 → List Nat → List R → Writing R Unit := matvecBlocks .q8K

variable [Sub R]

def matvecQ4K : List UInt8 → List Nat → List R → Writing R Unit := matvecBlocks .q4K

def matvecQ5K : List UInt8 → List Nat → List R → Writing R Unit := matvecBlocks .q5K

def matvecQ2K : List UInt8 → List Nat → List R → Writing R Unit := matvecBlocks .q2K

end fused

end Quant
end Ramforge
