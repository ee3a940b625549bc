/-
The value types of GGUF metadata and the element types of GGUF tensors.
-/
import Mathlib.Tactic
import Ramforge.Rust.Checked

namespace Ramforge

inductive GgufValueType where
  | uInt8 | int8 | uInt16 | int16 | uInt32 | int32 | float32 | bool | string | array
  | uInt64 | int64 | float64
deriving DecidableEq, Repr

namespace GgufValueType

def fromU32 : Nat → Option GgufValueType
  | 0 => some .uInt8
  | 1 => some .int8
  | 2 => some .uInt16
  | 3 => some .int16
  | 4 => some .uInt32
  | 5 => some .int32
  | 6 => some .float32
  | 7 => some .bool
  | 8 => some .string
  | 9 => some .array
  | 10 => some .uInt64
  | 11 => some .int64
  | 12 => some .float64
  | _ => none

/-- The discriminant, `self as u32`. -/
def toU32 : GgufValueType → Nat
  | .uInt8 => 0
  | .int8 => 1
  | .uInt16 => 2
  | .int16 => 3
  | .uInt32 => 4
  | .int32 => 5
  | .float32 => 6
  | .bool => 7
  | .string => 8
  | .array => 9
  | .uInt64 => 10
  | .int64 => 11
  | .float64 => 12

theorem fromU32_toU32 (t : GgufValueType) : fromU32 t.toU32 = some t := by
  cases t <;> rfl

theorem toU32_lt (t : GgufValueType) : t.toU32 < 256 ^ 4 := by
  cases t <;> decide

end GgufValueType

/-- A metadata value.  Floats are kept as their bits. -/
inductive MetadataValue where
  | uInt8 (v : UInt8)
  | int8 (v : Int8)
  | uInt16 (v : UInt16)
  | int16 (v : Int16)
  | uInt32 (v : UInt32)
  | int32 (v : Int32)
  | float32 (bits : UInt32)
  | bool (v : Bool)
  | string (v : String)
  | array (elementType : GgufValueType) (values : List MetadataValue)
  | uInt64 (v : UInt64)
  | int64 (v : Int64)
  | float64 (bits : UInt64)

namespace MetadataValue

def valueType : MetadataValue → GgufValueType
  | .uInt8 _ => .uInt8
  | .int8 _ => .int8
  | .uInt16 _ => .uInt16
  | .int16 _ => .int16
  | .uInt32 _ => .uInt32
  | .int32 _ => .int32
  | .float32 _ => .float32
  | .bool _ => .bool
  | .string _ => .string
  | .array _ _ => .array
  | .uInt64 _ => .uInt64
  | .int64 _ => .int64
  | .float64 _ => .float64

/-- `v as u64` of a signed number. -/
def signedAsU64 (v : Int) : Nat := (v % 2 ^ 64).toNat

def asU64 : MetadataValue → Option Nat
  | .uInt8 v => some v.toNat
  | .int8 v => some (signedAsU64 v.toInt)
  | .uInt16 v => some v.toNat
  | .int16 v => some (signedAsU64 v.toInt)
  | .uInt32 v => some v.toNat
  | .int32 v => some (signedAsU64 v.toInt)
  | .uInt64 v => some v.toNat
  | .int64 v => some (signedAsU64 v.toInt)
  | _ => none

def asString : MetadataValue → Option String
  | .string s => some s
  | _ => none

theorem signedAsU64_lt (v : Int) : signedAsU64 v < 2 ^ 64 := by
  unfold signedAsU64
  have hnonneg := Int.emod_nonneg v (b := 2 ^ 64) (by decide)
  have hlt := Int.emod_lt_of_pos v (b := 2 ^ 64) (by decide)
  omega

theorem asU64_lt {v : MetadataValue} {n : Nat} (h : v.asU64 = some n) : n < 2 ^ 64 := by
  cases v <;> cases h
  case uInt8 v => exact Nat.lt_trans v.toNat_lt (by decide)
  case uInt16 v => exact Nat.lt_trans v.toNat_lt (by decide)
  case uInt32 v => exact Nat.lt_trans v.toNat_lt (by decide)
  case uInt64 v => exact v.toNat_lt
  all_goals exact signedAsU64_lt _

end MetadataValue

inductive GgmlType where
  | f32 | f16 | q4_0 | q4_1 | q5_0 | q5_1 | q8_0 | q8_1
  | q2_K | q3_K | q4_K | q5_K | q6_K | q8_K
  | iq2_XXS | iq2_XS | iq3_XXS | iq1_S | iq4_NL | iq3_S | iq2_S | iq4_XS
  | i8 | i16 | i32 | i64 | f64 | iq1_M | bf16 | tq1_0 | tq2_0 | mxfp4
  | iq4_0 | iq4_NL_B16 | iq4_NL_B32 | iq4_NL_B64 | iq4_SQ | iq4_K
  | iq5_0 | iq5_NL | iq5_SQ | iq5_K | iq6_0 | iq6_NL | iq6_K | iq2_K | iq2_0 | iq3_T | iq8_0 | q3_I
  | unknown (v : Nat)
deriving DecidableEq, Repr

namespace GgmlType

def fromU32 : Nat → GgmlType
  | 0 => .f32
  | 1 => .f16
  | 2 => .q4_0
  | 3 => .q4_1
  | 6 => .q5_0
  | 7 => .q5_1
  | 8 => .q8_0
  | 9 => .q8_1
  | 10 => .q2_K
  | 11 => .q3_K
  | 12 => .q4_K
  | 13 => .q5_K
  | 14 => .q6_K
  | 15 => .q8_K
  | 16 => .iq2_XXS
  | 17 => .iq2_XS
  | 18 => .iq3_XXS
  | 19 => .iq1_S
  | 20 => .iq4_NL
  | 21 => .iq3_S
  | 22 => .iq2_S
  | 23 => .iq4_XS
  | 24 => .i8
  | 25 => .i16
  | 26 => .i32
  | 27 => .i64
  | 28 => .f64
  | 29 => .iq1_M
  | 30 => .bf16
  | 34 => .tq1_0
  | 35 => .tq2_0
  | 39 => .mxfp4
  | 32 => .iq4_0
  | 33 => .iq4_NL_B16
  | 36 => .iq4_NL_B32
  | 37 => .iq4_NL_B64
  | 38 => .iq4_SQ
  | 40 => .iq8_0
  | 41 => .q3_I
  | v => .unknown v

def name : GgmlType → String
  | .f32 => "F32"
  | .f16 => "F16"
  | .q4_0 => "Q4_0"
  | .q4_1 => "Q4_1"
  | .q5_0 => "Q5_0"
  | .q5_1 => "Q5_1"
  | .q8_0 => "Q8_0"
  | .q8_1 => "Q8_1"
  | .q2_K => "Q2_K"
  | .q3_K => "Q3_K"
  | .q4_K => "Q4_K"
  | .q5_K => "Q5_K"
  | .q6_K => "Q6_K"
  | .q8_K => "Q8_K"
  | .iq2_XXS => "IQ2_XXS"
  | .iq2_XS => "IQ2_XS"
  | .iq3_XXS => "IQ3_XXS"
  | .iq1_S => "IQ1_S"
  | .iq4_NL => "IQ4_NL"
  | .iq3_S => "IQ3_S"
  | .iq2_S => "IQ2_S"
  | .iq4_XS => "IQ4_XS"
  | .i8 => "I8"
  | .i16 => "I16"
  | .i32 => "I32"
  | .i64 => "I64"
  | .f64 => "F64"
  | .iq1_M => "IQ1_M"
  | .bf16 => "BF16"
  | .tq1_0 => "TQ1_0"
  | .tq2_0 => "TQ2_0"
  | .mxfp4 => "MXFP4"
  | .iq4_0 => "IQ4_0"
  | .iq4_NL_B16 => "IQ4_NL_B16"
  | .iq4_NL_B32 => "IQ4_NL_B32"
  | .iq4_NL_B64 => "IQ4_NL_B64"
  | .iq4_SQ => "IQ4_SQ"
  | .iq4_K => "IQ4_K"
  | .iq5_0 => "IQ5_0"
  | .iq5_NL => "IQ5_NL"
  | .iq5_SQ => "IQ5_SQ"
  | .iq5_K => "IQ5_K"
  | .iq6_0 => "IQ6_0"
  | .iq6_NL => "IQ6_NL"
  | .iq6_K => "IQ6_K"
  | .iq2_K => "IQ2_K"
  | .iq2_0 => "IQ2_0"
  | .iq3_T => "IQ3_T"
  | .iq8_0 => "IQ8_0"
  | .q3_I => "Q3_I"
  | .unknown v => s!"UNKNOWN({v})"

/-- `(block_size, type_size)` where the type is known. -/
def typeInfo : GgmlType → Option (Nat × Nat)
  | .f32 => some (1, 4)
  | .f16 => some (1, 2)
  | .bf16 => some (1, 2)
  | .f64 => some (1, 8)
  | .i8 => some (1, 1)
  | .i16 => some (1, 2)
  | .i32 => some (1, 4)
  | .i64 => some (1, 8)
  | .q4_0 => some (32, 18)
  | .q4_1 => some (32, 20)
  | .q5_0 => some (32, 22)
  | .q5_1 => some (32, 24)
  | .q8_0 => some (32, 34)
  | .q8_1 => some (32, 40)
  | .q2_K => some (256, 84)
  | .q3_K => some (256, 110)
  | .q4_K => some (256, 144)
  | .q5_K => some (256, 176)
  | .q6_K => some (256, 210)
  | .q8_K => some (256, 292)
  | .iq2_XXS => some (256, 66)
  | .iq2_XS => some (256, 74)
  | .iq3_XXS => some (256, 98)
  | .iq1_S => some (256, 50)
  | .iq4_NL => some (32, 18)
  | .iq3_S => some (256, 110)
  | .iq2_S => some (256, 82)
  | .iq4_XS => some (256, 136)
  | .iq1_M => some (256, 56)
  | .tq1_0 => some (256, 54)
  | .tq2_0 => some (256, 70)
  | .mxfp4 => some (32, 18)
  | _ => none

def asU32 : GgmlType → Nat
  | .f32 => 0
  | .f16 => 1
  | .q4_0 => 2
  | .q4_1 => 3
  | .q5_0 => 6
  | .q5_1 => 7
  | .q8_0 => 8
  | .q8_1 => 9
  | .q2_K => 10
  | .q3_K => 11
  | .q4_K => 12
  | .q5_K => 13
  | .q6_K => 14
  | .q8_K => 15
  | .iq2_XXS => 16
  | .iq2_XS => 17
  | .iq3_XXS => 18
  | .iq1_S => 19
  | .iq4_NL => 20
  | .iq3_S => 21
  | .iq2_S => 22
  | .iq4_XS => 23
  | .i8 => 24
  | .i16 => 25
  | .i32 => 26
  | .i64 => 27
  | .f64 => 28
  | .iq1_M => 29
  | .bf16 => 30
  | .tq1_0 => 34
  | .tq2_0 => 35
  | .mxfp4 => 39
  | .iq4_0 => 32
  | .iq4_NL_B16 => 33
  | .iq4_NL_B32 => 36
  | .iq4_NL_B64 => 37
  | .iq4_SQ => 38
  | .iq4_K => 27
  | .iq5_0 => 28
  | .iq5_NL => 29
  | .iq5_SQ => 30
  | .iq5_K => 31
  | .iq6_0 => 32
  | .iq6_NL => 33
  | .iq6_K => 34
  | .iq2_K => 35
  | .iq2_0 => 38
  | .iq3_T => 39
  | .iq8_0 => 40
  | .q3_I => 41
  | .unknown v => v

/-- No tag loses its number, known or not. -/
theorem asU32_fromU32 (v : Nat) : (fromU32 v).asU32 = v := by
  unfold fromU32
  split <;> rfl

/-- Blocks and their sizes are positive, so a byte length is a real division. -/
theorem typeInfo_pos {t : GgmlType} {blockSize typeSize : Nat}
    (h : t.typeInfo = some (blockSize, typeSize)) : 0 < blockSize ∧ 0 < typeSize := by
  cases t <;> cases h <;> decide

end GgmlType
end Ramforge

/-!
A GGUF model as the parser leaves it: metadata, and where each tensor lies in
the file.
-/

namespace Ramforge

open Rust

structure TensorDescriptor where
  name : String
  dimensions : List Nat
  ggmlType : GgmlType
  /-- Relative to the start of the tensor data section. -/
  offset : Nat
  /-- Absolute in the file. -/
  fileOffset : Nat
  byteLength : Option Nat
  numElements : Nat
deriving DecidableEq

abbrev Metadata : Type := Std.ExtTreeMap String MetadataValue

structure GgufModel where
  path : String
  fileSize : Nat
  version : Nat
  metadata : Metadata
  tensors : List TensorDescriptor
  alignment : Nat
  dataStartOffset : Nat

namespace GgufModel

def getMetadata (m : GgufModel) (key : String) : Option MetadataValue := m.metadata[key]?

end GgufModel

/-- `offset` rounded up to a multiple of `alignment`, in a build without overflow
checks. -/
def alignOffset (offset alignment : Nat) : Nat :=
  if alignment = 0 then offset
  else
    let remainder := offset % alignment
    if remainder = 0 then offset else wrappingAdd offset (alignment - remainder)

/-- The first multiple of `alignment` at or above `offset`. -/
def IsAlignedEnd (offset alignment result : Nat) : Prop :=
  if alignment = 0 then result = offset
  else alignment ∣ result ∧ offset ≤ result ∧ result < offset + alignment

theorem IsAlignedEnd.le {offset alignment result : Nat} (h : IsAlignedEnd offset alignment result) :
    offset ≤ result := by
  unfold IsAlignedEnd at h
  split at h <;> omega

/-- Rounding up a file position does not leave `u64`, whatever the alignment. -/
theorem alignOffset_isAlignedEnd {offset alignment : Nat} (hoffset : offset < 2 ^ 63)
    (halignment : alignment < 2 ^ 64) :
    IsAlignedEnd offset alignment (alignOffset offset alignment) := by
  unfold IsAlignedEnd alignOffset
  by_cases h0 : alignment = 0
  · rw [if_pos h0, if_pos h0]
  rw [if_neg h0, if_neg h0]
  have hrem := Nat.mod_lt offset (Nat.pos_of_ne_zero h0)
  have hdiv := Nat.div_add_mod offset alignment
  show alignment ∣ (if offset % alignment = 0 then _ else _) ∧ _
  by_cases hr : offset % alignment = 0
  · rw [if_pos hr]
    exact ⟨Nat.dvd_of_mod_eq_zero hr, Nat.le_refl _, by omega⟩
  rw [if_neg hr]
  have hup : offset + (alignment - offset % alignment) =
      alignment * (offset / alignment + 1) := by
    rw [Nat.mul_succ]
    omega
  have hfit : offset + (alignment - offset % alignment) < u64Bound := by
    show _ < 2 ^ 64
    -- below the alignment the result is the alignment; above it, less than twice the offset
    rcases Nat.lt_or_ge offset alignment with hlt | hge
    · rw [Nat.mod_eq_of_lt hlt]
      omega
    · omega
  rw [wrappingAdd, Nat.mod_eq_of_lt hfit]
  exact ⟨⟨_, hup⟩, by omega, by omega⟩

end Ramforge
