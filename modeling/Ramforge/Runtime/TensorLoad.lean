/-
Tensors from the file into their resident representation.

F32 is read into its final storage.  Everything else is read as raw bytes, which the
construction decodes or keeps.
-/
import Ramforge.Core.GgufRoundTrip
import Ramforge.Core.Tensor
import Ramforge.Core.TensorRead

namespace Ramforge

open Rust Rust.Exec GgufDataSource

/-- `try_reserve_exact` of a buffer that is filled at once. -/
def reserveBuffer (label : String) : Exec Host String Unit := do
  let reserve ← nextReserve
  let _ ← ofResult (reserve.mapError fun error => "failed to reserve " ++ label ++ ": " ++ error)

variable {R : Type} [F32 R]

/-- `.map_err(..)` with the name of the tensor in front of the text. -/
def readError (name : String) (error : DataSourceError) : String :=
  "failed to read tensor '" ++ name ++ "': " ++ error.text

def createError (name : String) (error : DataSourceError) : String :=
  "failed to create TensorData for '" ++ name ++ "': " ++ error.text

def loadTensorData (desc : TensorDescriptor) : Exec Host String (TensorData R) :=
  if desc.ggmlType = .f32 then do
    let data ← mapErr (readError desc.name) (readF32TensorByDescriptor desc)
    ofResult ((TensorData.fromF32Vec desc.dimensions desc.numElements
      (data.map F32.fromBits)).mapError (createError desc.name))
  else do
    let rawBytes ← mapErr (readError desc.name) (readTensorByDescriptor desc)
    ofResult ((TensorData.ofReadBytes desc.ggmlType desc.dimensions desc.numElements
      rawBytes).mapError (createError desc.name))

/-- The types that are held decoded. -/
def isFloatType (ggmlType : GgmlType) : Bool :=
  ggmlType = .f32 ∨ ggmlType = .f16 ∨ ggmlType = .bf16

def loadTensorDataFromBorrowedBytes [Zero R] [Sub R] [Mul R] (desc : TensorDescriptor)
    (bytes : List UInt8) : Exec Host String (TensorData R) :=
  if isFloatType desc.ggmlType then do
    let decoded ← mapErr (fun error => "failed to decode tensor '" ++ desc.name ++ "': " ++ error.text)
      (decodeTensorToF32 bytes desc.ggmlType desc.numElements)
    ofResult ((TensorData.fromDecodedFloatVec desc.ggmlType desc.dimensions desc.numElements
      decoded).mapError (createError desc.name))
  else do
    reserveBuffer "grouped quantized tensor"
    ofResult ((TensorData.ofReadBytes desc.ggmlType desc.dimensions desc.numElements
      bytes).mapError (createError desc.name))

/-! ## The size of a loaded tensor -/

omit [F32 R] in
theorem of_fromDecodedFloatVec {ggmlType : GgmlType} {shape : List Nat} {numElements : Nat}
    {data : List R} {tensor : TensorData R}
    (h : TensorData.fromDecodedFloatVec ggmlType shape numElements data = .ok tensor) :
    TensorData.ofFloat ggmlType data shape = some tensor ∧ data.length = numElements := by
  unfold TensorData.fromDecodedFloatVec at h
  split at h
  · cases h
  · rename_i found hfound
    split at h
    · cases h
    · rename_i hlen
      cases hcheck : TensorData.checkElements ggmlType shape numElements with
      | error e =>
        rw [hcheck] at h
        cases h
      | ok u =>
        rw [hcheck] at h
        cases h
        exact ⟨hfound, not_not.mp hlen⟩

omit [F32 R] in
theorem rawData_of_new {ggmlType : GgmlType} {shape : List Nat} {numElements : Nat}
    {rawData : List UInt8} {hshape : ∀ dimension ∈ shape, dimension < u64Bound}
    {hraw : rawData.length < isizeBound} {tensor : QuantizedTensor}
    (h : QuantizedTensor.new ggmlType shape numElements rawData hshape hraw = .ok tensor) :
    tensor.rawData = rawData := by
  unfold QuantizedTensor.new at h
  split at h
  · cases h
  · split at h
    · cases h
    · split at h
      · cases h
      · split at h
        · cases h
        · split at h
          · cases h
          · split at h
            · cases h
            · cases h
              rfl

omit [F32 R] in
theorem length_of_decodeFloat {f : FloatFormat R} {bytes : List UInt8} {numElements : Nat}
    {data : List R} (h : decodeFloat f bytes numElements = .ok data) : data.length = numElements := by
  unfold decodeFloat at h
  split at h
  · cases h
  · split at h
    · cases h
    · cases h
      rw [FloatFormat.elements, List.length_map, List.length_range]

/-- The types that are held decoded take four bytes a number. -/
theorem residentBytesFor_float {ggmlType : GgmlType} {numElements fileBytes resident : Nat}
    (htype : isFloatType ggmlType = true)
    (h : TensorData.residentBytesFor ggmlType numElements fileBytes = .ok resident) :
    resident = numElements * 4 := by
  unfold TensorData.residentBytesFor at h
  cases ggmlType
  case f32 | f16 | bf16 =>
    simp only at h
    split at h
    · cases h
    · rename_i bytes hmul
      cases h
      exact (checkedMul_eq_some.mp hmul).2
  all_goals cases htype

theorem residentBytes_of_ofReadBytes {ggmlType : GgmlType} {shape : List Nat} {numElements : Nat}
    {rawBytes : List UInt8} {tensor : TensorData R} {resident : Nat}
    (h : TensorData.ofReadBytes ggmlType shape numElements rawBytes = .ok tensor)
    (hresident : TensorData.residentBytesFor ggmlType numElements rawBytes.length = .ok resident) :
    tensor.residentBytes = resident := by
  unfold TensorData.ofReadBytes at h
  split at h
  · cases h
  · split at h
    · obtain ⟨_, -, h⟩ := of_except_bind_ok h
      cases ggmlType
      case f32 | f16 | bf16 =>
        obtain ⟨data, hdata, h⟩ := of_except_bind_ok h
        cases h
        rw [residentBytesFor_float rfl hresident]
        exact congrArg (· * 4) (length_of_decodeFloat hdata)
      case q4_0 | q5_0 | q8_0 | q4_K | q5_K | q6_K | q2_K | q3_K | q8_K =>
        obtain ⟨quantized, hnew, h⟩ := of_except_bind_ok h
        cases h
        cases hresident
        exact congrArg List.length (rawData_of_new hnew)
      all_goals cases h
    · cases h

/-- The bytes of a loaded tensor are those its descriptor promises. -/
theorem residentBytes_of_loadTensorData {desc : TensorDescriptor} {host host' : Host}
    {tensor : TensorData R} {fileBytes resident : Nat}
    (h : loadTensorData desc host = (.ok tensor, host')) (hlen : desc.byteLength = some fileBytes)
    (hresident : TensorData.residentBytesFor desc.ggmlType desc.numElements fileBytes =
      .ok resident) : tensor.residentBytes = resident := by
  unfold loadTensorData at h
  split at h
  · rename_i htype
    obtain ⟨data, s₁, -, h⟩ := of_bind_ok h
    obtain ⟨htensor, hdata⟩ := of_fromDecodedFloatVec (of_ofResult_mapError_ok h).1
    cases htensor
    rw [residentBytesFor_float (by rw [htype]; rfl) hresident]
    exact congrArg (· * 4) hdata
  · obtain ⟨raw, s₁, hread, h⟩ := of_bind_ok h
    have hraw := length_of_readTensorByDescriptor (of_mapErr_ok hread)
    rw [hlen] at hraw
    cases hraw
    exact residentBytes_of_ofReadBytes (of_ofResult_mapError_ok h).1 hresident

end Ramforge

/-!
The residency that is charged before a load is the residency of what is loaded.
-/

namespace Ramforge
namespace TensorData

open Rust Rust.Exec

variable {R : Type} [F32 R]

omit [F32 R] in
/-- A decoded payload has at least as many bytes as its format asks for. -/
theorem length_ge_of_decodeFloat {f : FloatFormat R} {bytes : List UInt8} {numElements : Nat}
    {data : List R} (h : decodeFloat f bytes numElements = .ok data) :
    numElements * f.width ≤ bytes.length := by
  unfold decodeFloat at h
  split at h
  next => cases h
  next expected hmul =>
    obtain ⟨-, rfl⟩ := checkedMul_eq_some.mp hmul
    split at h
    next => cases h
    next hlen => exact Nat.not_lt.mp hlen

omit [F32 R] in
/-- A float tensor of at least two bytes a number, in a buffer. -/
theorem residentBytesFor_of_decodeFloat {f : FloatFormat R} {bytes : List UInt8}
    {numElements : Nat} {data : List R} (hwidth : 2 ≤ f.width)
    (h : decodeFloat f bytes numElements = .ok data) (hbuffer : bytes.length < isizeBound) :
    checkedMul numElements 4 = some (data.length * 4) := by
  have hlen := length_ge_of_decodeFloat h
  have htwo : numElements * 2 ≤ numElements * f.width := Nat.mul_le_mul_left _ hwidth
  have hbuffer : bytes.length < 2 ^ 63 := hbuffer
  have hfits : numElements * 4 < 2 ^ 64 := by omega
  rw [length_of_decodeFloat h]
  exact checkedMul_of_lt hfits

/-- What `from_bytes` keeps is what `resident_bytes_for` says of its arguments. -/
theorem residentBytesFor_of_fromBytes {ggmlType : GgmlType} {shape : List Nat} {numElements : Nat}
    {rawBytes : List UInt8} {hshape : ∀ dimension ∈ shape, dimension < u64Bound}
    {hraw : rawBytes.length < isizeBound} {tensor : TensorData R}
    (h : fromBytes ggmlType shape numElements rawBytes hshape hraw = .ok tensor) :
    residentBytesFor ggmlType numElements rawBytes.length = .ok tensor.residentBytes ∧
      tensor.residentBytes < u64Bound := by
  obtain ⟨_, -, h⟩ := of_except_bind_ok h
  have hfloat : ∀ {f : FloatFormat R} {data : List R}, 2 ≤ f.width →
      decodeFloat f rawBytes numElements = .ok data →
      checkedMul numElements 4 = some (data.length * 4) ∧ data.length * 4 < u64Bound := by
    intro f data hwidth hdata
    have hmul := residentBytesFor_of_decodeFloat hwidth hdata hraw
    have hbound := (checkedMul_eq_some.mp hmul).1
    rw [← length_of_decodeFloat hdata] at hbound
    exact ⟨hmul, hbound⟩
  cases ggmlType
  case f32 | f16 | bf16 =>
    obtain ⟨data, hdata, h⟩ := of_except_bind_ok h
    cases h
    obtain ⟨hmul, hbound⟩ := hfloat (Nat.le_of_ble_eq_true rfl) hdata
    exact ⟨by rw [residentBytesFor, hmul]; rfl, hbound⟩
  case q4_0 | q5_0 | q8_0 | q4_K | q5_K | q6_K | q2_K | q3_K | q8_K =>
    obtain ⟨quantized, hnew, h⟩ := of_except_bind_ok h
    cases h
    have hsame : quantized.rawData.length = rawBytes.length := congrArg List.length (rawData_of_new hnew)
    refine ⟨?_, Nat.lt_of_le_of_lt (Nat.le_of_eq hsame) (Nat.lt_trans hraw (by decide))⟩
    rw [residentBytes, hsame]
    rfl
  all_goals cases h

/-- The dimensions of a parsed tensor are `u64`s. -/
theorem dimensions_lt_of_parse {path : String} {file : FileBytes} {m : GgufModel}
    (hparse : Gguf.parseGgufFile path file = .ok m) {t : TensorDescriptor} (ht : t ∈ m.tensors) :
    ∀ dimension ∈ t.dimensions, dimension < u64Bound := by
  obtain ⟨header, used, rest, -, -, rfl⟩ := Gguf.parseGgufFile_cases hparse
  obtain ⟨info, -, rfl⟩ := List.mem_map.mp ht
  intro dimension hdimension
  obtain ⟨d, -, rfl⟩ := List.mem_map.mp hdimension
  exact d.toNat_lt

/-- For every tensor of a parsed file and every payload of its length, in a buffer. -/
theorem residentBytes_planned {path : String} {file : FileBytes} {m : GgufModel}
    (hparse : Gguf.parseGgufFile path file = .ok m) {t : TensorDescriptor} (ht : t ∈ m.tensors)
    {payload : List UInt8} (hpayload : t.byteLength = some payload.length)
    (hbuffer : payload.length < isizeBound) {tensor : TensorData R}
    (h : fromBytes t.ggmlType t.dimensions t.numElements payload
      (dimensions_lt_of_parse hparse ht) hbuffer = .ok tensor) :
    (∀ byteLength, t.byteLength = some byteLength →
      residentBytesFor t.ggmlType t.numElements byteLength = .ok tensor.residentBytes) ∧
      tensor.residentBytes < u64Bound := by
  obtain ⟨hplanned, hbound⟩ := residentBytesFor_of_fromBytes h
  refine ⟨fun byteLength hlength => ?_, hbound⟩
  rw [hpayload] at hlength
  cases hlength
  exact hplanned

theorem no_keys : ∀ kv ∈ ([] : List (String × MetadataValue)), Gguf.StringFits kv.1 :=
  fun _ h => absurd h List.not_mem_nil

theorem no_values : ∀ kv ∈ ([] : List (String × MetadataValue)), Gguf.ValueFits kv.2 :=
  fun _ h => absurd h List.not_mem_nil

/-- A header with one tensor of two half-precision numbers. -/
def halfHeader : Gguf.Header where
  version := 3
  metadata := []
  tensors := [{ name := "t", dims := [2], ty := 1, offset := 0 }]
  version_supported := Gguf.three_supported
  kvCount_le := Nat.zero_le _
  keys_nodup := List.nodup_nil
  keys_fit := no_keys
  values_fit := no_values
  tensorCount_le := by decide
  tensors_fit := List.forall_mem_singleton.mpr (by decide +kernel)

def halfFile : FileBytes where
  bytes := halfHeader.encode
  length_lt := by decide +kernel

def halfPayload : List UInt8 := [0, 60, 0, 192]

theorem residentBytes_planned_half :
    ∃ tensor : TensorData ℚ, tensor.residentBytes = 8 ∧
      residentBytesFor .f16 2 4 = .ok tensor.residentBytes ∧ tensor.residentBytes < u64Bound := by
  have hparse := Gguf.parseGgufFile_of_encode "model.gguf"
    (show halfFile.bytes = halfHeader.encode ++ [] from (List.append_nil _).symm)
  have hplanned := residentBytes_planned (R := ℚ) hparse List.mem_cons_self
    (show _ = some halfPayload.length from rfl) (by decide) rfl
  exact ⟨_, rfl, hplanned.1 4 rfl, hplanned.2⟩

end TensorData
end Ramforge
