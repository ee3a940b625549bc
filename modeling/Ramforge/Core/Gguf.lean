/-
The GGUF header parser.

The header is read front to back through `Reader`, and the tensor descriptors
are computed from it afterwards.  Multi-byte numbers are little-endian, a string
is its length and its bytes, and an array is its element type, its length and
its elements.
-/
import Ramforge.Core.Model
import Ramforge.Rust.ByteReader
import Ramforge.Rust.LittleEndian

namespace Ramforge

open Rust Rust.Exec

inductive GgufError where
  | invalidMagic (magic : List UInt8)
  | unsupportedVersion (version : Nat)
  | truncated (message : String)
  | invalidStringUtf8
  | invalidMetadataType (valueType : Nat)
  | invalidStringLength (len : Nat)
  | invalidDimensionsCount (count : Nat)
  | general (message : String)
deriving DecidableEq, Repr

/-- A file on disk.  The operating system counts its bytes in a signed 64-bit
number. -/
structure FileBytes where
  bytes : List UInt8
  length_lt : bytes.length < 2 ^ 63

namespace Gguf

/-- `"GGUF"`. -/
def ggufMagic : List UInt8 := [0x47, 0x47, 0x55, 0x46]

def defaultAlignment : Nat := 32

def maxStringLen : Nat := 10 * 1024 * 1024

def maxDimensions : Nat := 8

def maxKvCount : Nat := 100000

def maxTensorCount : Nat := 10000000

/-- The limit on an array's length, which the source writes in place. -/
def maxArrayLen : Nat := 10000000

abbrev Read (α : Type) : Type := Exec Reader GgufError α

def readExactBytes (len : Nat) : Read (List UInt8) :=
  Reader.readExact len (.truncated s!"expected {len} bytes, got EOF")

/-- A number of `width` bytes; `name` is its type in the error. -/
def readLe (width : Nat) (name : String) : Read Nat := do
  let bytes ← Reader.readExact width (.truncated ("unexpected EOF while reading " ++ name))
  return LittleEndian.ofBytes bytes

def readU8 : Read UInt8 := do return UInt8.ofNat (← readLe 1 "u8")

def readU16Le : Read UInt16 := do return UInt16.ofNat (← readLe 2 "u16")

def readU32Le : Read UInt32 := do return UInt32.ofNat (← readLe 4 "u32")

def readU64Le : Read UInt64 := do return UInt64.ofNat (← readLe 8 "u64")

def readI8 : Read Int8 := do return (← readU8).toInt8

def readI16Le : Read Int16 := do return (← readU16Le).toInt16

def readI32Le : Read Int32 := do return (← readU32Le).toInt32

def readI64Le : Read Int64 := do return (← readU64Le).toInt64

def readBool : Read Bool := do return (← readU8) != 0

def readString : Read String := do
  let len ← readU64Le
  failIf (maxStringLen < len.toNat) (.invalidStringLength len.toNat)
  let bytes ← readExactBytes len.toNat
  okOr (String.fromUTF8? ⟨bytes.toArray⟩) .invalidStringUtf8

def readMetadataValue : GgufValueType → Read MetadataValue
  | .uInt8 => do return .uInt8 (← readU8)
  | .int8 => do return .int8 (← readI8)
  | .uInt16 => do return .uInt16 (← readU16Le)
  | .int16 => do return .int16 (← readI16Le)
  | .uInt32 => do return .uInt32 (← readU32Le)
  | .int32 => do return .int32 (← readI32Le)
  | .float32 => do return .float32 (← readU32Le)
  | .bool => do return .bool (← readBool)
  | .string => do return .string (← readString)
  | .uInt64 => do return .uInt64 (← readU64Le)
  | .int64 => do return .int64 (← readI64Le)
  | .float64 => do return .float64 (← readU64Le)
  | .array => throw (.general "nested array type not expected in scalar value path")

def readValueType : Read GgufValueType := do
  let tag ← readU32Le
  okOr (GgufValueType.fromU32 tag.toNat) (.invalidMetadataType tag.toNat)

def readArrayValue : Read MetadataValue := do
  let arrayType ← readValueType
  failIf (arrayType = .array) (.general "array of arrays is not supported")
  let arrayLen ← readU64Le
  failIf (maxArrayLen < arrayLen.toNat)
    (.general s!"array length too large: {arrayLen.toNat}")
  let values ← Reader.times
    (if arrayType = .string then do return .string (← readString)
      else readMetadataValue arrayType) arrayLen.toNat
  return .array arrayType values

/-- The value of a key, by its type. -/
def readValue (valueType : GgufValueType) : Read MetadataValue :=
  if valueType = .array then readArrayValue
  else if valueType = .string then do return .string (← readString)
  else readMetadataValue valueType

/-- A round of the metadata loop. -/
def readKv : Read (String × MetadataValue) := do
  let key ← readString
  let valueType ← readValueType
  let value ← readValue valueType
  return (key, value)

/-- A tensor descriptor as the header has it. -/
structure TensorInfo where
  name : String
  dims : List UInt64
  ty : UInt32
  offset : UInt64
deriving DecidableEq

/-- A round of the tensor loop. -/
def readTensorInfo : Read TensorInfo := do
  let name ← readString
  let nDims ← readU32Le
  failIf (maxDimensions < nDims.toNat) (.invalidDimensionsCount nDims.toNat)
  let dims ← Reader.times readU64Le nDims.toNat
  let ty ← readU32Le
  let offset ← readU64Le
  return { name, dims, ty, offset }

/-- What the header holds, in the order of the file. -/
structure RawHeader where
  version : Nat
  metadata : List (String × MetadataValue)
  tensors : List TensorInfo

/-- `parse_gguf_file` up to the position after the tensor infos. -/
def readHeader : Read RawHeader := do
  let magic ← readExactBytes 4
  failIf (magic ≠ ggufMagic) (.invalidMagic magic)
  let version ← readU32Le
  failIf (version ≠ 1 ∧ version ≠ 2 ∧ version ≠ 3) (.unsupportedVersion version.toNat)
  let tensorCount ← readU64Le
  let kvCount ← readU64Le
  failIf (maxTensorCount < tensorCount.toNat)
    (.general s!"tensor count too large: {tensorCount.toNat}")
  failIf (maxKvCount < kvCount.toNat)
    (.general s!"metadata kv count too large: {kvCount.toNat}")
  let metadata ← Reader.times readKv kvCount.toNat
  let tensors ← Reader.times readTensorInfo tensorCount.toNat
  return { version := version.toNat, metadata, tensors }

/-- The map after every `metadata.insert(key, value)` of the loop. -/
def metadataOf (kvs : List (String × MetadataValue)) : Metadata :=
  kvs.foldl (fun metadata kv => metadata.insert kv.1 kv.2) ∅

def alignmentOf (metadata : Metadata) : Nat :=
  ((metadata["general.alignment"]?).bind MetadataValue.asU64).getD defaultAlignment

def numElementsOf (dims : List Nat) : Nat :=
  if dims = [] then 1
  else (dims.foldlM (fun acc d => checkedMul acc d) 1).getD (u64Bound - 1)

def byteLengthOf (ggmlType : GgmlType) (numElements : Nat) : Option Nat :=
  match ggmlType.typeInfo with
  | some (blockSize, typeSize) =>
    if numElements = u64Bound - 1 then none
    else checkedMul ((numElements + blockSize - 1) / blockSize) typeSize
  | none => none

def descriptorOf (dataStart : Nat) (info : TensorInfo) : TensorDescriptor :=
  let ggmlType := GgmlType.fromU32 info.ty.toNat
  let dimensions := info.dims.map UInt64.toNat
  let numElements := numElementsOf dimensions
  { name := info.name
    dimensions
    ggmlType
    offset := info.offset.toNat
    -- not checked: it wraps in a build without overflow checks
    fileOffset := wrappingAdd dataStart info.offset.toNat
    byteLength := byteLengthOf ggmlType numElements
    numElements }

/-- The model of a header that ends at `afterTensorInfoPos`. -/
def modelOf (path : String) (fileSize : Nat) (header : RawHeader) (afterTensorInfoPos : Nat) :
    GgufModel :=
  let metadata := metadataOf header.metadata
  let alignment := alignmentOf metadata
  let dataStart := alignOffset afterTensorInfoPos alignment
  { path
    fileSize
    version := header.version
    metadata
    tensors := header.tensors.map (descriptorOf dataStart)
    alignment
    dataStartOffset := dataStart }

def parseGgufFile (path : String) (file : FileBytes) : Outcome GgufError GgufModel :=
  match readHeader { inner := file.bytes, position := 0 } with
  | (.ok header, r) => .ok (modelOf path file.bytes.length header r.position)
  | (.err e, _) => .err e
  | (.panic message, _) => .panic message

end Gguf
end Ramforge

/-!
The canonical bytes of a GGUF header.

`Header` is a header within the parser's limits: a value that the parser would
refuse cannot be built.
-/

namespace Ramforge
namespace Gguf

open Rust

def encodeString (s : String) : List UInt8 :=
  LittleEndian.toBytes 8 s.utf8ByteSize ++ s.toByteArray.data.toList

/-- The payload of a value that is no array. -/
def encodeScalar : MetadataValue → List UInt8
  | .uInt8 v => LittleEndian.toBytes 1 v.toNat
  | .int8 v => LittleEndian.toBytes 1 v.toUInt8.toNat
  | .uInt16 v => LittleEndian.toBytes 2 v.toNat
  | .int16 v => LittleEndian.toBytes 2 v.toUInt16.toNat
  | .uInt32 v => LittleEndian.toBytes 4 v.toNat
  | .int32 v => LittleEndian.toBytes 4 v.toUInt32.toNat
  | .float32 bits => LittleEndian.toBytes 4 bits.toNat
  | .bool v => LittleEndian.toBytes 1 (if v then 1 else 0)
  | .string s => encodeString s
  | .array _ _ => []
  | .uInt64 v => LittleEndian.toBytes 8 v.toNat
  | .int64 v => LittleEndian.toBytes 8 v.toUInt64.toNat
  | .float64 bits => LittleEndian.toBytes 8 bits.toNat

def encodeValueType (t : GgufValueType) : List UInt8 := LittleEndian.toBytes 4 t.toU32

def encodeValue : MetadataValue → List UInt8
  | .array elementType values =>
    encodeValueType elementType ++ (LittleEndian.toBytes 8 values.length ++
      values.flatMap encodeScalar)
  | v => encodeScalar v

def encodeKv (kv : String × MetadataValue) : List UInt8 :=
  encodeString kv.1 ++ (encodeValueType kv.2.valueType ++ encodeValue kv.2)

def encodeDim (d : UInt64) : List UInt8 := LittleEndian.toBytes 8 d.toNat

def encodeTensorInfo (t : TensorInfo) : List UInt8 :=
  encodeString t.name ++ (LittleEndian.toBytes 4 t.dims.length ++ (t.dims.flatMap encodeDim ++
    (LittleEndian.toBytes 4 t.ty.toNat ++ LittleEndian.toBytes 8 t.offset.toNat)))

def RawHeader.encode (h : RawHeader) : List UInt8 :=
  ggufMagic ++ (LittleEndian.toBytes 4 h.version ++ (LittleEndian.toBytes 8 h.tensors.length ++
    (LittleEndian.toBytes 8 h.metadata.length ++ (h.metadata.flatMap encodeKv ++
      h.tensors.flatMap encodeTensorInfo))))

def StringFits (s : String) : Prop := s.utf8ByteSize ≤ maxStringLen

def ScalarFits : MetadataValue → Prop
  | .string s => StringFits s
  | .array _ _ => False
  | _ => True

def ValueFits : MetadataValue → Prop
  | .array elementType values =>
    elementType ≠ .array ∧ values.length ≤ maxArrayLen ∧
      ∀ v ∈ values, v.valueType = elementType ∧ ScalarFits v
  | v => ScalarFits v

structure TensorFits (t : TensorInfo) : Prop where
  name_fits : StringFits t.name
  dims_le : t.dims.length ≤ maxDimensions

instance (s : String) : Decidable (StringFits s) :=
  inferInstanceAs (Decidable (s.utf8ByteSize ≤ maxStringLen))

instance : DecidablePred ScalarFits
  | .string s => inferInstanceAs (Decidable (StringFits s))
  | .array _ _ => isFalse id
  | .uInt8 _ | .int8 _ | .uInt16 _ | .int16 _ | .uInt32 _ | .int32 _ | .float32 _ | .bool _
  | .uInt64 _ | .int64 _ | .float64 _ => isTrue trivial

instance : DecidablePred ValueFits
  | .array elementType values =>
    inferInstanceAs (Decidable (elementType ≠ .array ∧ values.length ≤ maxArrayLen ∧
      ∀ v ∈ values, v.valueType = elementType ∧ ScalarFits v))
  | .string s => inferInstanceAs (Decidable (StringFits s))
  | .uInt8 _ | .int8 _ | .uInt16 _ | .int16 _ | .uInt32 _ | .int32 _ | .float32 _ | .bool _
  | .uInt64 _ | .int64 _ | .float64 _ => isTrue trivial

instance (t : TensorInfo) : Decidable (TensorFits t) :=
  decidable_of_iff (StringFits t.name ∧ t.dims.length ≤ maxDimensions)
    ⟨fun h => ⟨h.1, h.2⟩, fun h => ⟨h.name_fits, h.dims_le⟩⟩

/-- A header within the limits of the parser. -/
structure Header extends RawHeader where
  version_supported : version = 1 ∨ version = 2 ∨ version = 3
  kvCount_le : metadata.length ≤ maxKvCount
  keys_nodup : (metadata.map Prod.fst).Nodup
  keys_fit : ∀ kv ∈ metadata, StringFits kv.1
  values_fit : ∀ kv ∈ metadata, ValueFits kv.2
  tensorCount_le : tensors.length ≤ maxTensorCount
  tensors_fit : ∀ t ∈ tensors, TensorFits t

theorem three_supported : 3 = 1 ∨ 3 = 2 ∨ 3 = 3 := by decide

end Gguf
end Ramforge
