/-
The quantized block formats: a block out of its bytes, and its values.

Each decoder writes its output in loops over running offsets, and the
definitions below keep those offsets.  The arrays of a block have fixed lengths
and the loops have fixed bounds, so no index leaves its array.
-/
import Ramforge.Core.F32

namespace Ramforge
namespace Quant

open Rust

abbrev qk4_0 : Nat := 32
abbrev qk5_0 : Nat := 32
abbrev qk8_0 : Nat := 32
abbrev qkK : Nat := 256

abbrev blockSizeQ4_0 : Nat := 18
abbrev blockSizeQ5_0 : Nat := 22
abbrev blockSizeQ8_0 : Nat := 34
abbrev blockSizeQ4K : Nat := 144
abbrev blockSizeQ2K : Nat := 84
abbrev blockSizeQ3K : Nat := 110
abbrev blockSizeQ5K : Nat := 176
abbrev blockSizeQ6K : Nat := 210
abbrev blockSizeQ8K : Nat := 292

/-- `xs[i]` of an array. -/
def entry {α : Type} [Inhabited α] {n : Nat} (xs : Vector α n) (i : Nat) : α := xs[i]?.getD default

/-- `bytes[lo..lo + n]` as an array. -/
def arrayAt (bytes : List UInt8) (lo n : Nat) (h : lo + n ≤ bytes.length) : Vector UInt8 n :=
  Vector.ofFn fun i => bytes.get ⟨lo + i, by omega⟩

def truncated (name : String) (expected got : Nat) : DataSourceError :=
  .general s!"{name} block truncated: expected {expected} bytes, got {got}"

variable {R : Type} [F32 R]

/-- `value as f32`. -/
abbrev asF32 (value : Int) : R := F32.ofInt value

/-! ## Q4_0 -/

structure BlockQ4_0 (R : Type) where
  d : R
  qs : Vector UInt8 16

namespace BlockQ4_0

def fromBytes (bytes : List UInt8) : Except DataSourceError (BlockQ4_0 R) :=
  if h : bytes.length < 18 then .error (truncated "Q4_0" blockSizeQ4_0 bytes.length)
  else do
    let d ← readF16Le (bytes.take 2)
    return { d, qs := arrayAt bytes 2 16 (by omega) }

def dequantize [Mul R] (b : BlockQ4_0 R) (out : List R) : List R :=
  forRange 16 (fun j out =>
    let byte := entry b.qs j
    let q0 : Int := (byte &&& 0x0F).toNat - 8
    let q1 : Int := (byte >>> 4).toNat - 8
    (out.set j (asF32 q0 * b.d)).set (16 + j) (asF32 q1 * b.d)) out

end BlockQ4_0

/-! ## Q5_0 -/

structure BlockQ5_0 (R : Type) where
  d : R
  qh : Vector UInt8 4
  qs : Vector UInt8 16

namespace BlockQ5_0

def fromBytes (bytes : List UInt8) : Except DataSourceError (BlockQ5_0 R) :=
  if h : bytes.length < 22 then .error (truncated "Q5_0" blockSizeQ5_0 bytes.length)
  else do
    let d ← readF16Le (bytes.take 2)
    return { d, qh := arrayAt bytes 2 4 (by omega), qs := arrayAt bytes 6 16 (by omega) }

def dequantize [Mul R] (b : BlockQ5_0 R) (out : List R) : List R :=
  let qh := u32FromLe b.qh.toList
  forRange 16 (fun j out =>
    let xh0 := (((qh >>> j.toUInt32) <<< 4) &&& 0x10).toUInt8
    let xh1 := ((qh >>> (j + 12).toUInt32) &&& 0x10).toUInt8
    let q0 : Int := ((entry b.qs j &&& 0x0F) ||| xh0).toNat - 16
    let q1 : Int := ((entry b.qs j >>> 4) ||| xh1).toNat - 16
    (out.set j (asF32 q0 * b.d)).set (16 + j) (asF32 q1 * b.d)) out

end BlockQ5_0

/-! ## Q8_0 -/

structure BlockQ8_0 (R : Type) where
  d : R
  qs : Vector Int8 32

namespace BlockQ8_0

def fromBytes (bytes : List UInt8) : Except DataSourceError (BlockQ8_0 R) :=
  if h : bytes.length < 34 then .error (truncated "Q8_0" blockSizeQ8_0 bytes.length)
  else do
    let d ← readF16Le (bytes.take 2)
    return { d, qs := (arrayAt bytes 2 32 (by omega)).map UInt8.toInt8 }

def dequantize [Mul R] (b : BlockQ8_0 R) (out : List R) : List R :=
  forRange 32 (fun i out => out.set i (asF32 (entry b.qs i).toInt * b.d)) out

end BlockQ8_0

/-! ## Q4_K -/

structure BlockQ4K (R : Type) where
  d : R
  dmin : R
  scales : Vector UInt8 12
  qs : Vector UInt8 128

namespace BlockQ4K

def fromBytes (bytes : List UInt8) : Except DataSourceError (BlockQ4K R) :=
  if h : bytes.length < 144 then .error (truncated "Q4_K" blockSizeQ4K bytes.length)
  else do
    let d ← readF16Le (bytes.take 2)
    let dmin ← readF16Le ((bytes.drop 2).take 2)
    return { d, dmin, scales := arrayAt bytes 4 12 (by omega), qs := arrayAt bytes 16 128 (by omega) }

def getScaleMin (b : BlockQ4K R) (j : Nat) : UInt8 × UInt8 :=
  if j < 4 then
    let d := entry b.scales j &&& 63
    let m := entry b.scales (j + 4) &&& 63
    (d, m)
  else
    let d : UInt8 := (entry b.scales (j + 4) &&& (0xF : UInt8)) ||| ((entry b.scales (j - 4) >>> 6) <<< 4)
    let m : UInt8 := (entry b.scales (j + 4) >>> 4) ||| ((entry b.scales j >>> 6) <<< 4)
    (d, m)

/-- What the loop over the groups of 64 values assigns. -/
structure Cursor (R : Type) where
  out : List R
  yIdx : Nat
  is : Nat
  qOffset : Nat

def group [Mul R] [Sub R] (b : BlockQ4K R) (c : Cursor R) : Cursor R :=
  let (sc0, m0) := b.getScaleMin c.is
  let (sc1, m1) := b.getScaleMin (c.is + 1)
  let d1 := b.d * asF32 sc0.toNat
  let min1 := b.dmin * asF32 m0.toNat
  let d2 := b.d * asF32 sc1.toNat
  let min2 := b.dmin * asF32 m1.toNat
  let out := forRange 32 (fun l out =>
    out.set (c.yIdx + l) (d1 * asF32 (entry b.qs (c.qOffset + l) &&& 0x0F).toNat - min1)) c.out
  let yIdx := c.yIdx + 32
  let out := forRange 32 (fun l out =>
    out.set (yIdx + l) (d2 * asF32 (entry b.qs (c.qOffset + l) >>> 4).toNat - min2)) out
  { out, yIdx := yIdx + 32, is := c.is + 2, qOffset := c.qOffset + 32 }

def dequantize [Mul R] [Sub R] (b : BlockQ4K R) (out : List R) : List R :=
  (forRange (qkK / 64) (fun _ c => b.group c) { out, yIdx := 0, is := 0, qOffset := 0 }).out

end BlockQ4K

/-! ## Q5_K -/

structure BlockQ5K (R : Type) where
  d : R
  dmin : R
  scales : Vector UInt8 12
  qh : Vector UInt8 32
  qs : Vector UInt8 128

namespace BlockQ5K

def fromBytes (bytes : List UInt8) : Except DataSourceError (BlockQ5K R) :=
  if h : bytes.length < 176 then .error (truncated "Q5_K" blockSizeQ5K bytes.length)
  else do
    let d ← readF16Le (bytes.take 2)
    let dmin ← readF16Le ((bytes.drop 2).take 2)
    return { d, dmin, scales := arrayAt bytes 4 12 (by omega), qh := arrayAt bytes 16 32 (by omega),
             qs := arrayAt bytes 48 128 (by omega) }

def getScaleMin (b : BlockQ5K R) (j : Nat) : UInt8 × UInt8 :=
  if j < 4 then (entry b.scales j &&& 63, entry b.scales (j + 4) &&& 63)
  else
    let d : UInt8 := (entry b.scales (j + 4) &&& (0xF : UInt8)) ||| ((entry b.scales (j - 4) >>> 6) <<< 4)
    let m : UInt8 := (entry b.scales (j + 4) >>> 4) ||| ((entry b.scales j >>> 6) <<< 4)
    (d, m)

structure Cursor (R : Type) where
  out : List R
  yIdx : Nat
  is : Nat
  qOffset : Nat
  u1 : UInt8
  u2 : UInt8

/-- The high bit of a code, under the mask `u`. -/
def high (b : BlockQ5K R) (qOffset l : Nat) (u : UInt8) : UInt8 :=
  if entry b.qh (qOffset / 4 + l / 8) &&& u ≠ 0 then 16 else 0

def group [Mul R] [Sub R] (b : BlockQ5K R) (c : Cursor R) : Cursor R :=
  let (sc0, m0) := b.getScaleMin c.is
  let (sc1, m1) := b.getScaleMin (c.is + 1)
  let d1 := b.d * asF32 sc0.toNat
  let min1 := b.dmin * asF32 m0.toNat
  let d2 := b.d * asF32 sc1.toNat
  let min2 := b.dmin * asF32 m1.toNat
  let out := forRange 32 (fun l out =>
    let q := entry b.qs (c.qOffset + l) &&& 0xF
    out.set (c.yIdx + l) (d1 * asF32 (q + b.high c.qOffset l c.u1).toNat - min1)) c.out
  let yIdx := c.yIdx + 32
  let out := forRange 32 (fun l out =>
    let q := entry b.qs (c.qOffset + l) >>> 4
    out.set (yIdx + l) (d2 * asF32 (q + b.high c.qOffset l c.u2).toNat - min2)) out
  { out, yIdx := yIdx + 32, is := c.is + 2, qOffset := c.qOffset + 32, u1 := c.u1 <<< 2,
    u2 := c.u2 <<< 2 }

def dequantize [Mul R] [Sub R] (b : BlockQ5K R) (out : List R) : List R :=
  (forRange (qkK / 64) (fun _ c => b.group c)
    { out, yIdx := 0, is := 0, qOffset := 0, u1 := 1, u2 := 2 }).out

end BlockQ5K

/-! ## Q6_K -/

structure BlockQ6K (R : Type) where
  ql : Vector UInt8 128
  qh : Vector UInt8 64
  scales : Vector Int8 16
  d : R

namespace BlockQ6K

def fromBytes (bytes : List UInt8) : Except DataSourceError (BlockQ6K R) :=
  if h : bytes.length < 210 then .error (truncated "Q6_K" blockSizeQ6K bytes.length)
  else do
    let d ← readF16Le ((bytes.drop (192 + 16)).take 2)
    return { ql := arrayAt bytes 0 128 (by omega), qh := arrayAt bytes 128 64 (by omega),
             scales := (arrayAt bytes 192 16 (by omega)).map UInt8.toInt8, d }

structure Cursor (R : Type) where
  out : List R
  yPos : Nat
  qlOff : Nat
  qhOff : Nat
  scOff : Nat

def lane [Mul R] (b : BlockQ6K R) (c : Cursor R) (l : Nat) (out : List R) : List R :=
  let is := l / 16
  let qh := entry b.qh (c.qhOff + l)
  let q1 : UInt8 := (entry b.ql (c.qlOff + l) &&& (0xF : UInt8)) ||| ((qh &&& 3) <<< 4)
  let q2 : UInt8 := (entry b.ql (c.qlOff + 32 + l) &&& (0xF : UInt8)) ||| ((qh >>> 2 &&& 3) <<< 4)
  let q3 : UInt8 := (entry b.ql (c.qlOff + l) >>> 4) ||| ((qh >>> 4 &&& 3) <<< 4)
  let q4 : UInt8 := (entry b.ql (c.qlOff + 32 + l) >>> 4) ||| ((qh >>> 6 &&& 3) <<< 4)
  let out := out.set (c.yPos + l) (b.d * asF32 (entry b.scales (c.scOff + is)).toInt * asF32 (q1.toNat - 32))
  let out := out.set (c.yPos + l + 32)
    (b.d * asF32 (entry b.scales (c.scOff + is + 2)).toInt * asF32 (q2.toNat - 32))
  let out := out.set (c.yPos + l + 64)
    (b.d * asF32 (entry b.scales (c.scOff + is + 4)).toInt * asF32 (q3.toNat - 32))
  out.set (c.yPos + l + 96) (b.d * asF32 (entry b.scales (c.scOff + is + 6)).toInt * asF32 (q4.toNat - 32))

def half [Mul R] (b : BlockQ6K R) (c : Cursor R) : Cursor R :=
  { out := forRange 32 (b.lane c) c.out, yPos := c.yPos + 128, qlOff := c.qlOff + 64,
    qhOff := c.qhOff + 32, scOff := c.scOff + 8 }

def dequantize [Mul R] (b : BlockQ6K R) (out : List R) : List R :=
  (forRange (qkK / 128) (fun _ c => b.half c)
    { out, yPos := 0, qlOff := 0, qhOff := 0, scOff := 0 }).out

end BlockQ6K

/-! ## Q2_K -/

structure BlockQ2K (R : Type) where
  scales : Vector UInt8 16
  qs : Vector UInt8 64
  d : R
  dmin : R

namespace BlockQ2K

def fromBytes (bytes : List UInt8) : Except DataSourceError (BlockQ2K R) :=
  if h : bytes.length < 84 then .error (truncated "Q2_K" blockSizeQ2K bytes.length)
  else do
    let d ← readF16Le ((bytes.drop 80).take 2)
    let dmin ← readF16Le ((bytes.drop 82).take 2)
    return { scales := arrayAt bytes 0 16 (by omega), qs := arrayAt bytes 16 64 (by omega), d, dmin }

structure Cursor (R : Type) where
  out : List R
  yIdx : Nat
  is : Nat
  qOffset : Nat
  shift : UInt8

/-- Sixteen values under the scale byte `is`, from the quants at `qOffset + base`. -/
def run [Mul R] [Sub R] (b : BlockQ2K R) (base : Nat) (c : Cursor R) : Cursor R :=
  let sc := entry b.scales c.is
  let dl := b.d * asF32 (sc &&& 0xF).toNat
  let ml := b.dmin * asF32 (sc >>> 4).toNat
  let out := forRange 16 (fun l out =>
    let q := (entry b.qs (c.qOffset + base + l) >>> c.shift) &&& 3
    out.set (c.yIdx + l) (dl * asF32 q.toNat - ml)) c.out
  { c with out, yIdx := c.yIdx + 16, is := c.is + 1 }

def round [Mul R] [Sub R] (b : BlockQ2K R) (c : Cursor R) : Cursor R :=
  let c := b.run 16 (b.run 0 c)
  { c with shift := c.shift + 2 }

def half [Mul R] [Sub R] (b : BlockQ2K R) (c : Cursor R) : Cursor R :=
  let c := forRange 4 (fun _ c => b.round c) { c with shift := 0 }
  { c with qOffset := c.qOffset + 32 }

def dequantize [Mul R] [Sub R] (b : BlockQ2K R) (out : List R) : List R :=
  (forRange (qkK / 128) (fun _ c => b.half c)
    { out, yIdx := 0, is := 0, qOffset := 0, shift := 0 }).out

end BlockQ2K

/-! ## Q3_K -/

structure BlockQ3K (R : Type) where
  hmask : Vector UInt8 32
  qs : Vector UInt8 64
  scales : Vector UInt8 12
  d : R

namespace BlockQ3K

def fromBytes (bytes : List UInt8) : Except DataSourceError (BlockQ3K R) :=
  if h : bytes.length < 110 then .error (truncated "Q3_K" blockSizeQ3K bytes.length)
  else do
    let d ← readF16Le ((bytes.drop 108).take 2)
    return { hmask := arrayAt bytes 0 32 (by omega), qs := arrayAt bytes 32 64 (by omega),
             scales := arrayAt bytes 96 12 (by omega), d }

def kmask1 : UInt32 := 0x03030303

def kmask2 : UInt32 := 0x0F0F0F0F

def u32ToLe (v : UInt32) : List UInt8 := LittleEndian.toBytes 4 v.toNat

/-- The 32-bit word `i` of the packed scales. -/
def word (b : BlockQ3K R) (i : Nat) : UInt32 :=
  u32FromLe [entry b.scales (i * 4), entry b.scales (i * 4 + 1), entry b.scales (i * 4 + 2),
    entry b.scales (i * 4 + 3)]

def scalesBytes (b : BlockQ3K R) : List UInt8 :=
  let tmp := b.word 2
  let aux0Orig := b.word 0
  let aux1Orig := b.word 1
  let aux2 := ((aux0Orig >>> 4) &&& kmask2) ||| (((tmp >>> 4) &&& kmask1) <<< 4)
  let aux3 := ((aux1Orig >>> 4) &&& kmask2) ||| (((tmp >>> 6) &&& kmask1) <<< 4)
  let aux0 := (aux0Orig &&& kmask2) ||| (((tmp >>> 0) &&& kmask1) <<< 4)
  let aux1 := (aux1Orig &&& kmask2) ||| (((tmp >>> 2) &&& kmask1) <<< 4)
  [aux0, aux1, aux2, aux3].flatMap u32ToLe

def scalesI8 (b : BlockQ3K R) : List Int8 := b.scalesBytes.map UInt8.toInt8

structure Cursor (R : Type) where
  out : List R
  yIdx : Nat
  qOffset : Nat
  shift : UInt8
  m : UInt8

/-- Sixteen values under the scale `j`, from the quants at `qOffset + base` and
the high bits at `base`. -/
def run [Mul R] (b : BlockQ3K R) (j base : Nat) (c : Cursor R) : Cursor R :=
  let sc := ((b.scalesI8)[j]?.getD 0).toInt - 32
  let dl := b.d * asF32 sc
  let out := forRange 16 (fun l out =>
    let q : Int := ((entry b.qs (c.qOffset + base + l) >>> c.shift) &&& 3).toNat
    let q := q - if entry b.hmask (base + l) &&& c.m ≠ 0 then 0 else 4
    out.set (c.yIdx + l) (dl * asF32 q)) c.out
  { c with out, yIdx := c.yIdx + 16 }

def round [Mul R] (b : BlockQ3K R) (j : Nat) (c : Cursor R) : Cursor R :=
  let c := b.run (j + 4) 16 (b.run j 0 c)
  { c with shift := c.shift + 2, m := c.m <<< 1 }

def half [Mul R] (b : BlockQ3K R) (c : Cursor R) : Cursor R :=
  let c := forRange 4 b.round { c with shift := 0 }
  { c with qOffset := c.qOffset + 32 }

def dequantize [Mul R] (b : BlockQ3K R) (out : List R) : List R :=
  (forRange (qkK / 128) (fun _ c => b.half c)
    { out, yIdx := 0, qOffset := 0, shift := 0, m := 1 }).out

end BlockQ3K

/-! ## Q8_K

The sums `bsums` of a block are stored and no decoder reads them. -/

structure BlockQ8K (R : Type) where
  d : R
  qs : Vector Int8 256

namespace BlockQ8K

def fromBytes (bytes : List UInt8) : Except DataSourceError (BlockQ8K R) :=
  if h : bytes.length < 292 then .error (truncated "Q8_K" blockSizeQ8K bytes.length)
  else do
    let d ← readF32Le (bytes.take 4)
    return { d, qs := (arrayAt bytes 4 256 (by omega)).map UInt8.toInt8 }

def dequantize [Mul R] (b : BlockQ8K R) (out : List R) : List R :=
  forRange 256 (fun i out => out.set i (b.d * asF32 (entry b.qs i).toInt)) out

end BlockQ8K

end Quant
end Ramforge
