/-
The tensor that a part of the file holds.

A tensor read on its own, a tensor out of a buffer of several, and the tensor that a streamed
weight makes for one use are the same function of the bytes in the file.
-/
import Ramforge.Core.FileContents
import Ramforge.Runtime.Persistent

namespace Ramforge

open Rust Rust.Exec GgufDataSource

variable {R : Type} [F32 R]

/-- The format of a type that is held decoded. -/
def floatFormat : GgmlType → Option (FloatFormat R)
  | .f32 => some .f32
  | .f16 => some .f16
  | .bf16 => some .bf16
  | _ => none

/-- The tensor that `bytes` hold. -/
def TensorDescriptor.contents (desc : TensorDescriptor) (bytes : List UInt8) : Option (TensorData R) :=
  match floatFormat desc.ggmlType with
  | some f => TensorData.ofFloat desc.ggmlType (f.elements bytes desc.numElements) desc.dimensions
  | none =>
    (TensorData.ofReadBytes desc.ggmlType desc.dimensions desc.numElements bytes).toOption

/-- The bits of the numbers, one by one, are those of the format. -/
theorem FloatFormat.elements_f32 {bytes : List UInt8} {n : Nat} (hlen : bytes.length = n * sizeOfF32) :
    (f32sOf bytes).map F32.fromBits = (FloatFormat.f32 : FloatFormat R).elements bytes n := by
  unfold sizeOfF32 at hlen
  fun_induction f32sOf bytes generalizing n with
  | case1 b₀ b₁ b₂ b₃ bytes ih =>
    simp only [List.length_cons] at hlen
    obtain ⟨m, rfl⟩ : ∃ m, n = m + 1 := ⟨n - 1, by omega⟩
    rw [List.map_cons, ih (n := m) (by omega), elements, elements, List.range_succ_eq_map, List.map_cons,
      List.map_map]
    refine congrArg₂ List.cons rfl (List.map_congr_left fun i _ => congrArg _ ?_)
    show Rows.row 4 bytes i = Rows.row 4 (b₀ :: b₁ :: b₂ :: b₃ :: bytes) (i + 1)
    rw [Nat.add_comm i 1, ← Rows.row_drop]
    rfl
  | case2 bytes hshort =>
    rcases bytes with _ | ⟨b₀, _ | ⟨b₁, _ | ⟨b₂, _ | ⟨b₃, bytes⟩⟩⟩⟩
    · obtain rfl : n = 0 := by simpa using hlen.symm
      rfl
    · simp only [List.length_cons, List.length_nil] at hlen
      omega
    · simp only [List.length_cons, List.length_nil] at hlen
      omega
    · simp only [List.length_cons, List.length_nil] at hlen
      omega
    · exact (hshort b₀ b₁ b₂ b₃ bytes rfl).elim

omit [F32 R] in
theorem decodeFloat_eq_ok {f : FloatFormat R} {bytes : List UInt8} {n : Nat} {data : List R}
    (h : decodeFloat f bytes n = .ok data) : data = f.elements bytes n := by
  unfold decodeFloat at h
  split at h
  · cases h
  · split at h
    · cases h
    · cases h
      rfl

namespace TensorDescriptor

variable {desc : TensorDescriptor} {bytes : List UInt8} {tensor : TensorData R}

theorem contents_of_ofReadBytes (h : TensorData.ofReadBytes desc.ggmlType desc.dimensions
    desc.numElements bytes = .ok tensor) : desc.contents bytes = some tensor := by
  by_cases hfloat : (floatFormat desc.ggmlType : Option (FloatFormat R)) = none
  · rw [contents, hfloat, h]
    rfl
  · have hopen := h
    unfold TensorData.ofReadBytes at hopen
    split at hopen
    · cases hopen
    · split at hopen
      · obtain ⟨_, -, hopen⟩ := of_except_bind_ok hopen
        rw [contents]
        cases htype : desc.ggmlType
        case f32 | f16 | bf16 =>
          rw [htype] at hopen
          obtain ⟨data, hdata, hopen⟩ := of_except_bind_ok hopen
          cases hopen
          rw [decodeFloat_eq_ok hdata]
          rfl
        all_goals
          rw [htype] at hfloat
          exact absurd rfl hfloat
      · cases hopen

end TensorDescriptor

/-- The tensor of the descriptor, as the files hold it. -/
def Stored (files : List (GgufShardLayout × List UInt8)) (desc : TensorDescriptor)
    (tensor : TensorData R) : Prop :=
  ∃ len bytes, desc.byteLength = some len ∧ IsRange files desc.fileOffset len bytes ∧
    desc.contents bytes = some tensor

theorem Stored.unique {files : List (GgufShardLayout × List UInt8)} {desc : TensorDescriptor}
    {tensor tensor' : TensorData R} (h : Stored files desc tensor) (h' : Stored files desc tensor') :
    tensor = tensor' := by
  obtain ⟨len, bytes, hlen, hbytes, hcontents⟩ := h
  obtain ⟨len', bytes', hlen', hbytes', hcontents'⟩ := h'
  obtain rfl := Option.some.inj (hlen.symm.trans hlen')
  obtain rfl := hbytes.unique hbytes'
  exact Option.some.inj (hcontents.symm.trans hcontents')

section reads

variable {source : GgufDataSource} {desc : TensorDescriptor} {tensor : TensorData R}

/-- A tensor that is read on its own. -/
theorem stored_of_loadTensorData (htiled : Tiled source.files) {host host' : Host}
    (hhost : OnHost (Serves source) host) (h : loadTensorData desc host = (.ok tensor, host')) :
    Stored source.files desc tensor := by
  unfold loadTensorData at h
  split at h
  · rename_i htype
    obtain ⟨values, s₁, hread, h⟩ := of_bind_ok h
    obtain ⟨hlen, hvalues⟩ := isF32Range_of_readF32TensorRangeByDescriptor htiled hhost
      (of_mapErr_ok hread)
    obtain ⟨htensor, -⟩ := of_fromDecodedFloatVec (of_ofResult_mapError_ok h).1
    obtain ⟨-, bytes, hbytes, rfl⟩ := hvalues
    rw [Nat.zero_mul, Nat.add_zero] at hbytes
    refine ⟨_, bytes, hlen, hbytes, ?_⟩
    rw [TensorDescriptor.contents, htype, ← htensor, FloatFormat.elements_f32 hbytes.length]
    rfl
  · obtain ⟨raw, s₁, hread, h⟩ := of_bind_ok h
    obtain ⟨len, hlen, hbytes⟩ := isRange_of_readTensorByDescriptor htiled hhost (of_mapErr_ok hread)
    exact ⟨len, raw, hlen, hbytes,
      TensorDescriptor.contents_of_ofReadBytes (of_ofResult_mapError_ok h).1⟩

variable [Zero R] [Sub R] [Mul R]

/-- A tensor out of a buffer of several. -/
theorem contents_of_loadTensorDataFromBorrowedBytes {bytes : List UInt8} {host host' : Host}
    (h : loadTensorDataFromBorrowedBytes desc bytes host = (.ok tensor, host')) :
    desc.contents bytes = some tensor := by
  unfold loadTensorDataFromBorrowedBytes at h
  split at h
  · rename_i hfloat
    obtain ⟨data, s₁, hdecode, h⟩ := of_bind_ok h
    obtain ⟨htensor, -⟩ := of_fromDecodedFloatVec (of_ofResult_mapError_ok h).1
    have hdecode := of_mapErr_ok hdecode
    rw [TensorDescriptor.contents]
    cases htype : desc.ggmlType
    case f32 | f16 | bf16 =>
      rw [htype] at hdecode htensor
      rw [← htensor, decodeFloat_eq_ok (of_ofResult_ok hdecode).1]
      rfl
    all_goals
      rw [htype] at hfloat
      cases hfloat
  · obtain ⟨_, s₁, -, h⟩ := of_bind_ok h
    exact TensorDescriptor.contents_of_ofReadBytes (of_ofResult_mapError_ok h).1

end reads

/-! ## Two uses of one persistent weight -/

section coincide

variable [Zero R] [Sub R] [Mul R]

theorem QuantizedTensor.coincides_dequantizeToF32 {σ : Type} {I : σ → Prop} (tensor : QuantizedTensor) :
    Coincides (Both I) (tensor.dequantizeToF32 : Exec σ DataSourceError (List R)) tensor.dequantizeToF32 := by
  unfold QuantizedTensor.dequantizeToF32
  split
  · exact (Coincides.onLocal _).bind fun _ => .pure _
  · exact .throw _ _

theorem QuantizedTensor.coincides_dequantizeRow {σ : Type} {I : σ → Prop} (tensor : QuantizedTensor)
    (rowIdx : Nat) :
    Coincides (Both I) (tensor.dequantizeRow rowIdx : Exec σ DataSourceError (List R))
      (tensor.dequantizeRow rowIdx) := by
  unfold QuantizedTensor.dequantizeRow
  split
  · exact .throw _ _
  · exact (Coincides.failIf _ _ _ _).bind fun _ => tensor.coincides_dequantizeToF32
  · refine (Coincides.failIf _ _ _ _).bind fun _ => (Coincides.okOr _ _ _).bind fun layout => ?_
    refine (Coincides.failIf _ _ _ _).bind fun _ => (Coincides.okOr _ _ _).bind fun _ =>
      (Coincides.okOr _ _ _).bind fun _ => (Coincides.okOr _ _ _).bind fun _ =>
        (Coincides.failIf _ _ _ _).bind fun _ => (Coincides.expect _ _).bind fun row => ?_
    split
    · exact (Coincides.onLocal _).bind fun _ => .pure _
    · exact .panic _
  · exact .throw _ _

theorem TensorData.coincides_getEmbedding {σ : Type} {I : σ → Prop} (tensor : TensorData R)
    (tokenId nEmbd : Nat) :
    Coincides (Both I) (tensor.getEmbedding tokenId nEmbd : Exec σ DataSourceError (List R))
      (tensor.getEmbedding tokenId nEmbd) := by
  have hfloat : ∀ label text data, Coincides (Both I)
      (floatEmbedding label text data tokenId nEmbd : Exec σ DataSourceError (List R))
      (floatEmbedding label text data tokenId nEmbd) := by
    intro label text data
    refine (Coincides.okOr _ _ _).bind fun _ => (Coincides.okOr _ _ _).bind fun _ => ?_
    split
    · exact .expect _ _
    · exact .throw _ _
  refine (Coincides.failIf _ _ _ _).bind fun _ => ?_
  cases tensor with
  | quantized tensor => exact tensor.coincides_dequantizeRow tokenId
  | f32 data shape | f16 data shape | bf16 data shape => exact hfloat _ _ _

theorem TensorData.coincides_toF32Vec {σ : Type} {I : σ → Prop} (tensor : TensorData R) :
    Coincides (Both I) (tensor.toF32Vec : Exec σ DataSourceError (List R)) tensor.toF32Vec := by
  cases tensor with
  | quantized tensor => exact tensor.coincides_dequantizeToF32
  | f32 data shape | f16 data shape | bf16 data shape => exact .pure _

/-- The bodies coincide; the charges of the two scopes do not matter. -/
theorem coincides_withTempHost {α : Type} {J : List Answer × GgufDataSource → Prop}
    {f f' : Exec Host String α} (h : Coincides (Both (OnHost J)) f f') (name name' : String)
    (bytes bytes' : Nat) :
    Coincides (Both fun s : Host × MemoryBudget => OnHost J s.1) (withTempHost name bytes f)
      (withTempHost name' bytes' f') := by
  intro s s' hs a t a' t' hrun hrun'
  obtain ⟨b, b₁, hf⟩ := MemoryBudget.of_withTemp_ok hrun
  obtain ⟨b', b₁', hf'⟩ := MemoryBudget.of_withTemp_ok hrun'
  exact h s.1 s'.1 hs a t.1 a' t'.1 (of_onFst_ok hf).1 (of_onFst_ok hf').1

namespace PersistentWeight

variable {source : GgufDataSource} (htiled : Tiled source.files)
include htiled

/-- An embedding is a function of the file, the token and the buffer. -/
theorem coincides_getEmbeddingInto [Add R] (weight : PersistentWeight R) (tokenId nEmbd : Nat)
    (output : List R) :
    Coincides (Both fun s : Host × MemoryBudget => OnHost (Serves source) s.1)
      (weight.getEmbeddingInto tokenId nEmbd output) (weight.getEmbeddingInto tokenId nEmbd output) := by
  refine (Coincides.failIf _ _ _ _).bind fun _ => (Coincides.okOr _ _ _).bind fun decodedBytes => ?_
  cases weight with
  | resident tensor =>
    refine coincides_withTempHost ?_ _ _ _ _
    exact ((tensor.coincides_getEmbedding tokenId nEmbd).mapErr _ _).bind fun _ => .expect _ _
  | streamed desc =>
    have hcheck : Coincides (Both fun s : Host × MemoryBudget => OnHost (Serves source) s.1)
        (checkStreamedEmbedding desc tokenId nEmbd) (checkStreamedEmbedding desc tokenId nEmbd) := by
      unfold checkStreamedEmbedding
      split
      · exact .failIf _ _ _ _
      · exact .throw _ _
    refine hcheck.bind fun _ => (Coincides.okOr _ _ _).bind fun elementOffset => ?_
    show Coincides _ (if _ then _ else _) (if _ then _ else _)
    split
    · refine coincides_withTempHost ?_ _ _ _ _
      exact ((coincides_readF32TensorRangeByDescriptor htiled desc elementOffset nEmbd).mapErr _ _).bind
        fun _ => .expect _ _
    · have hrow : Coincides (Both fun s : Host × MemoryBudget => OnHost (Serves source) s.1)
          (rowBytesFor desc nEmbd) (rowBytesFor desc nEmbd) := by
        unfold rowBytesFor
        split
        · exact .okOr _ _ _
        · exact .okOr _ _ _
        · exact .okOr _ _ _
        · exact (Coincides.okOr _ _ _).bind fun _ => (Coincides.failIf _ _ _ _).bind fun _ =>
            .okOr _ _ _
      refine hrow.bind fun rowBytes => (Coincides.okOr _ _ _).bind fun byteOffset =>
        coincides_withTempHost ?_ _ _ _ _
      exact ((coincides_readTensorRangeByDescriptor htiled desc byteOffset rowBytes).mapErr _ _).bind
        fun raw => (Coincides.mapErr _ _ (Coincides.onLocal _)).bind fun _ => .pure _

/-- So are the numbers of a weight that is used once. -/
theorem coincides_toF32Vec (weight : PersistentWeight R) :
    Coincides (Both (OnHost (Serves source))) weight.toF32Vec weight.toF32Vec := by
  cases weight with
  | resident tensor => exact tensor.coincides_toF32Vec.mapErr _ _
  | streamed desc =>
    show Coincides _ (if _ then _ else _) (if _ then _ else _)
    split
    · exact ((coincides_readF32TensorRangeByDescriptor htiled desc 0 desc.numElements).mapErr _ _).bind
        fun _ => .pure _
    · exact ((coincides_readTensorByDescriptor htiled desc).mapErr _ _).bind fun raw =>
        (Coincides.ofResult _).bind fun tensor => (TensorData.coincides_toF32Vec tensor).mapErr _ _

end PersistentWeight

end coincide

end Ramforge
