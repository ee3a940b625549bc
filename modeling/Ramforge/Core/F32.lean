/-
The `f32` arithmetic the numeric code is written over.

A number type `R` has its own `+`, `-`, `*` and `0`; `F32 R` adds the two ways a
number is made.  Results about exact arithmetic take `R` to be a commutative
ring, and results about which numbers are combined take `R` to be free terms.
-/
import Ramforge.Core.DataSource
import Ramforge.Rust.Buffer

namespace Ramforge

open Rust

class F32 (R : Type) where
  /-- `f32::from_bits`. -/
  fromBits : UInt32 → R
  /-- `as f32` of an integer. -/
  ofInt : Int → R

/-- The number of a finite bit pattern. -/
def rationalOfBits (bits : UInt32) : ℚ :=
  let exponent : Nat := bits.toNat / 2 ^ 23 % 256
  let fraction : Nat := bits.toNat % 2 ^ 23
  let magnitude : ℚ :=
    if exponent = 255 then 0
    else if exponent = 0 then fraction / 2 ^ 149
    else (2 ^ 23 + fraction) * 2 ^ exponent / 2 ^ 150
  if bits.toNat / 2 ^ 31 = 1 then -magnitude else magnitude

instance : F32 ℚ := ⟨rationalOfBits, fun value => value⟩

namespace Quant

variable {R : Type} [F32 R]

/-- The rounds of `while (f & 0x400) == 0 { f <<= 1; e += 1; }`.  A non-zero
fraction has ten bits, so ten rounds are enough. -/
def normalizeFrac : Nat → UInt32 → UInt32 → UInt32 × UInt32
  | 0, f, e => (f, e)
  | n + 1, f, e => if f &&& 0x400 = 0 then normalizeFrac n (f <<< 1) (e + 1) else (f, e)

def f16ToF32Bits (bits : UInt16) : UInt32 :=
  let sign := ((bits >>> 15) &&& 1).toUInt32
  let exp := ((bits >>> 10) &&& 0x1F).toUInt32
  let frac := (bits &&& 0x3FF).toUInt32
  if exp = 0 then
    if frac = 0 then sign <<< 31
    else
      let fe := normalizeFrac 10 frac 0
      let f := fe.1 &&& 0x3FF
      let exp := 127 - 15 - fe.2
      (sign <<< 31) ||| (exp <<< 23) ||| (f <<< 13)
  else if exp = 0x1F then (sign <<< 31) ||| ((0xFF : UInt32) <<< 23) ||| (frac <<< 13)
  else
    let exp := exp + (127 - 15)
    (sign <<< 31) ||| (exp <<< 23) ||| (frac <<< 13)

def f16ToF32 (bits : UInt16) : R := F32.fromBits (f16ToF32Bits bits)

def u16FromLe (bytes : List UInt8) : UInt16 := UInt16.ofNat (LittleEndian.ofBytes bytes)

def u32FromLe (bytes : List UInt8) : UInt32 := UInt32.ofNat (LittleEndian.ofBytes bytes)

def readF16Le (bytes : List UInt8) : Except DataSourceError R :=
  if bytes.length < 2 then .error (.general "truncated f16")
  else .ok (f16ToF32 (u16FromLe (bytes.take 2)))

def readF32Le (bytes : List UInt8) : Except DataSourceError R :=
  if bytes.length < 4 then .error (.general "truncated f32")
  else .ok (F32.fromBits (u32FromLe (bytes.take 4)))

end Quant
end Ramforge
