/-
The load of one tensor, by what its descriptor says.

A descriptor that the parser has written knows the bytes of its tensor.  What the bytes
become when they are held is known from it as well, and so is whether they can be held:
a quantized tensor has to be a whole number of blocks.
-/
import Ramforge.Core.Gguf
import Ramforge.Core.ModelSet
import Ramforge.Core.TensorRead
import Ramforge.Runtime.Accounting
import Ramforge.Runtime.TensorLoad

namespace Ramforge

open Rust Rust.Exec GgufDataSource

namespace TensorDescriptor

/-- As the parser leaves a descriptor. -/
structure Sized (desc : TensorDescriptor) : Prop where
  dimensions_lt : ∀ dimension ∈ desc.dimensions, dimension < u64Bound
  numElements : desc.numElements = Gguf.numElementsOf desc.dimensions
  byteLength : desc.byteLength = Gguf.byteLengthOf desc.ggmlType desc.numElements

theorem sized_descriptorOf (dataStart : Nat) (info : Gguf.TensorInfo) :
    (Gguf.descriptorOf dataStart info).Sized := by
  refine ⟨?_, rfl, rfl⟩
  intro dimension hmem
  obtain ⟨d, -, rfl⟩ := List.mem_map.mp hmem
  exact d.toNat_lt

theorem sized_of_parse {path : String} {file : FileBytes} {model : GgufModel}
    (h : Gguf.parseGgufFile path file = .ok model) : ∀ desc ∈ model.tensors, desc.Sized := by
  unfold Gguf.parseGgufFile at h
  split at h
  · cases h
    intro desc hmem
    obtain ⟨info, -, rfl⟩ := List.mem_map.mp hmem
    exact sized_descriptorOf _ info
  · cases h
  · cases h

/-- Moving a descriptor to the virtual data space leaves its size alone. -/
theorem sized_mergedModel {set : GgufModelSet}
    (hfirst : ∀ desc ∈ set.first.tensors, desc.Sized)
    (hshards : ∀ shard ∈ set.shards, ∀ desc ∈ shard.tensors, desc.Sized) :
    ∀ desc ∈ set.mergedModel.tensors, desc.Sized := by
  have hmerged : ∀ (shards : List GgufModel) (virtualStart : Nat),
      (∀ shard ∈ shards, ∀ desc ∈ shard.tensors, desc.Sized) →
      ∀ desc ∈ GgufModelSet.mergedFrom virtualStart shards, desc.Sized := by
    intro shards
    induction shards with
    | nil => exact fun _ _ desc hmem => absurd hmem List.not_mem_nil
    | cons shard rest ih =>
      intro virtualStart hall desc hmem
      rcases List.mem_append.mp hmem with hmem | hmem
      · obtain ⟨original, horiginal, rfl⟩ := List.mem_map.mp hmem
        obtain ⟨hlt, hcount, hlen⟩ := hall shard List.mem_cons_self original horiginal
        exact ⟨hlt, hcount, hlen⟩
      · exact ih _ (fun shard hmem => hall shard (List.mem_cons_of_mem _ hmem)) desc hmem
  unfold GgufModelSet.mergedModel
  split
  · exact hmerged set.shards 0 hshards
  · exact hfirst

/-- The bytes that the tensor holds once it is loaded. -/
def residentSize (desc : TensorDescriptor) : Option Nat :=
  desc.byteLength.bind fun fileBytes =>
    (TensorData.residentBytesFor desc.ggmlType desc.numElements fileBytes).toOption

/-- A quantized tensor is a whole number of blocks. -/
def WholeBlocks (desc : TensorDescriptor) : Prop :=
  ∀ layout, Compute.blockLayout desc.ggmlType = some layout → desc.numElements % layout.1 = 0

instance (desc : TensorDescriptor) : Decidable desc.WholeBlocks :=
  decidable_of_iff
    ((Compute.blockLayout desc.ggmlType).all fun layout => desc.numElements % layout.1 = 0) (by
    simp only [WholeBlocks, Option.all_eq_true, decide_eq_true_eq])

variable {desc : TensorDescriptor} {fileBytes resident : Nat}

theorem residentSize_eq (hlen : desc.byteLength = some fileBytes)
    (hresident : TensorData.residentBytesFor desc.ggmlType desc.numElements fileBytes =
      .ok resident) : desc.residentSize = some resident := by
  rw [residentSize, hlen, Option.bind_some, hresident]
  rfl

namespace Sized

variable (hsized : desc.Sized)

include hsized

theorem shapeElements_eq (hlen : desc.byteLength = some fileBytes) :
    shapeElements desc.dimensions = some desc.numElements := by
  have hknown := hsized.byteLength.symm.trans hlen
  unfold Gguf.byteLengthOf at hknown
  split at hknown
  · split at hknown
    · cases hknown
    · rename_i hne
      rw [hsized.numElements] at hne ⊢
      unfold Gguf.numElementsOf at hne ⊢
      split
      · rename_i hnil
        rw [hnil]
        rfl
      · rename_i hcons
        rw [if_neg hcons] at hne
        show desc.dimensions.foldlM checkedMul 1 = _
        cases hfold : desc.dimensions.foldlM checkedMul 1 with
        | none =>
          rw [hfold] at hne
          exact absurd rfl hne
        | some n => rfl
  · cases hknown

theorem byteLength_eq {blockSize typeSize : Nat} (hlen : desc.byteLength = some fileBytes)
    (htype : desc.ggmlType.typeInfo = some (blockSize, typeSize)) :
    fileBytes = (desc.numElements + blockSize - 1) / blockSize * typeSize ∧ fileBytes < u64Bound := by
  have hknown := hsized.byteLength.symm.trans hlen
  rw [Gguf.byteLengthOf, htype] at hknown
  simp only at hknown
  split at hknown
  · cases hknown
  · obtain ⟨hlt, rfl⟩ := checkedMul_eq_some.mp hknown
    exact ⟨rfl, hlt⟩

/-- The charge of a load covers the tensor, and at most half as much again. -/
theorem loadCharge_bounds {charge : Nat} (hlen : desc.byteLength = some fileBytes)
    (hresident : TensorData.residentBytesFor desc.ggmlType desc.numElements fileBytes =
      .ok resident)
    (hcharge : tensorLoadChargeBytes desc.ggmlType fileBytes = .ok charge) :
    resident ≤ charge ∧ 2 * charge ≤ 3 * resident := by
  obtain rfl := tensorLoadChargeBytes_eq_ok hcharge
  have hwidth : ∀ width, desc.ggmlType.typeInfo = some (1, width) →
      fileBytes = desc.numElements * width := by
    intro width htype
    rw [(hsized.byteLength_eq hlen htype).1, Nat.div_one, Nat.add_sub_cancel]
  have hfloat : ∀ bytes, checkedMul desc.numElements 4 = some bytes →
      bytes = desc.numElements * 4 := fun bytes hmul => (checkedMul_eq_some.mp hmul).2
  unfold TensorData.residentBytesFor at hresident
  generalize htype : desc.ggmlType = ggmlType at *
  cases ggmlType
  case f32 | f16 | bf16 =>
    simp only at hresident
    split at hresident
    · cases hresident
    · rename_i bytes hmul
      cases hresident
      rw [hfloat _ hmul, hwidth _ rfl]
      simp only [loadFactor]
      omega
  case q4_0 | q5_0 | q8_0 | q4_K | q5_K | q6_K | q2_K | q3_K | q8_K =>
    cases hresident
    simp only [loadFactor]
    omega
  all_goals cases hresident

end Sized

end TensorDescriptor

/-! ## The tensor itself -/

theorem typeInfo_of_blockLayout {ggmlType : GgmlType} {layout : Nat × Nat}
    (h : Compute.blockLayout ggmlType = some layout) : ggmlType.typeInfo = some layout := by
  cases ggmlType <;> cases h <;> rfl

theorem wholeBlocks_of_new {ggmlType : GgmlType} {shape : List Nat} {numElements : Nat}
    {rawData : List UInt8} {hshape : ∀ dimension ∈ shape, dimension < u64Bound}
    {hraw : rawData.length < isizeBound} {tensor : QuantizedTensor}
    (h : QuantizedTensor.new ggmlType shape numElements rawData hshape hraw = .ok tensor) :
    ∀ layout, Compute.blockLayout ggmlType = some layout → numElements % layout.1 = 0 := by
  intro layout hlayout
  unfold QuantizedTensor.new at h
  split at h
  · cases h
  · rename_i qk blockSize hfound
    rw [hfound] at hlayout
    cases hlayout
    split at h
    · cases h
    · rename_i hdivisible
      exact not_not.mp hdivisible

theorem exists_new {ggmlType : GgmlType} {shape : List Nat} {numElements qk blockSize : Nat}
    {rawData : List UInt8} (hshape : ∀ dimension ∈ shape, dimension < u64Bound)
    (hraw : rawData.length < isizeBound)
    (hlayout : Compute.blockLayout ggmlType = some (qk, blockSize))
    (hdivisible : numElements % qk = 0) (helements : shapeElements shape = some numElements)
    (hsize : numElements / qk * blockSize < u64Bound)
    (hlen : numElements / qk * blockSize ≤ rawData.length) :
    ∃ tensor, QuantizedTensor.new ggmlType shape numElements rawData hshape hraw = .ok tensor := by
  unfold QuantizedTensor.new
  split
  · rename_i hnone
    rw [hlayout] at hnone
    cases hnone
  · rename_i qk' blockSize' hfound
    rw [hlayout] at hfound
    cases hfound
    rw [dif_neg (not_not.mpr hdivisible)]
    split
    · rename_i hnone
      rw [helements] at hnone
      cases hnone
    · rename_i elements hcount
      rw [helements] at hcount
      cases hcount
      rw [dif_neg (not_not.mpr rfl)]
      split
      · rename_i hnone
        rw [checkedMul_of_lt hsize] at hnone
        cases hnone
      · rename_i bytes hbytes
        rw [checkedMul_of_lt hsize] at hbytes
        cases hbytes
        rw [dif_neg (Nat.not_lt.mpr hlen)]
        exact ⟨_, rfl⟩

variable {R : Type} [F32 R]

omit [F32 R] in
theorem exists_ofFloat (data : List R) (shape : List Nat) {ggmlType : GgmlType}
    (h : isFloatType ggmlType = true) :
    ∃ tensor, TensorData.ofFloat ggmlType data shape = some tensor := by
  cases ggmlType <;> first | exact ⟨_, rfl⟩ | cases h

omit [F32 R] in
theorem exists_fromDecodedFloatVec {ggmlType : GgmlType} {shape : List Nat} {numElements : Nat}
    {data : List R} (htype : isFloatType ggmlType = true) (hlen : data.length = numElements)
    (helements : shapeElements shape = some numElements) :
    ∃ tensor, TensorData.fromDecodedFloatVec ggmlType shape numElements data = .ok tensor := by
  obtain ⟨tensor, htensor⟩ := exists_ofFloat data shape htype
  refine ⟨tensor, ?_⟩
  unfold TensorData.fromDecodedFloatVec TensorData.checkElements
  rw [htensor, helements]
  simp only [hlen, ne_eq, not_true, if_false]
  rfl

omit [F32 R] in
theorem exists_decodeFloat {f : FloatFormat R} {bytes : List UInt8} {numElements : Nat}
    (h : bytes.length = numElements * f.width) (hlt : bytes.length < u64Bound) :
    ∃ data, decodeFloat f bytes numElements = .ok data := by
  refine ⟨f.elements bytes numElements, ?_⟩
  unfold decodeFloat
  rw [checkedMul_of_lt (by rw [← h]; exact hlt)]
  simp only
  rw [if_neg (by rw [h]; exact Nat.lt_irrefl _)]

/-- The construction from the bytes of a descriptor fails on a broken block only. -/
theorem exists_ofReadBytes {desc : TensorDescriptor} {rawBytes : List UInt8} {resident : Nat}
    (hsized : desc.Sized) (hlen : desc.byteLength = some rawBytes.length)
    (hresident : TensorData.residentBytesFor desc.ggmlType desc.numElements rawBytes.length =
      .ok resident) (hsmall : rawBytes.length < isizeBound) (hblocks : desc.WholeBlocks) :
    ∃ tensor : TensorData R, TensorData.ofReadBytes desc.ggmlType desc.dimensions desc.numElements
      rawBytes = .ok tensor := by
  have helements := hsized.shapeElements_eq hlen
  have hcheck : TensorData.checkElements desc.ggmlType desc.dimensions desc.numElements = .ok () := by
    unfold TensorData.checkElements
    rw [helements]
    simp
  have hbound : rawBytes.length < u64Bound := Nat.lt_trans hsmall (by decide)
  have hfloat : ∀ (f : FloatFormat R) (make : List R → TensorData R),
      desc.ggmlType.typeInfo = some (1, f.width) →
      ∃ tensor, (do let data ← decodeFloat f rawBytes desc.numElements; return make data) =
        (.ok tensor : Except DataSourceError (TensorData R)) := by
    intro f make htype
    obtain ⟨hwidth, -⟩ := hsized.byteLength_eq hlen htype
    rw [Nat.div_one, Nat.add_sub_cancel] at hwidth
    obtain ⟨data, hdata⟩ := exists_decodeFloat hwidth hbound
    exact ⟨make data, by rw [hdata]; rfl⟩
  have hquantized : ∀ (layout : Nat × Nat) hshape,
      Compute.blockLayout desc.ggmlType = some layout →
      ∃ tensor, QuantizedTensor.new desc.ggmlType desc.dimensions desc.numElements rawBytes hshape
        hsmall = .ok tensor := by
    intro layout hshape hlayout
    have hdivisible := hblocks layout hlayout
    have htype := typeInfo_of_blockLayout hlayout
    obtain ⟨hbytes, hlt⟩ := hsized.byteLength_eq hlen htype
    have hpos := (GgmlType.typeInfo_pos htype).1
    have hwhole : (desc.numElements + layout.1 - 1) / layout.1 = desc.numElements / layout.1 := by
      obtain ⟨k, hk⟩ := Nat.dvd_of_mod_eq_zero hdivisible
      rw [hk, Nat.mul_div_cancel_left k hpos, Nat.add_sub_assoc hpos,
        Nat.mul_add_div hpos, Nat.div_eq_of_lt (by omega), Nat.add_zero]
    rw [hwhole] at hbytes
    exact exists_new hshape hsmall hlayout hdivisible helements (by rw [← hbytes]; exact hlt)
      (Nat.le_of_eq hbytes.symm)
  unfold TensorData.ofReadBytes
  split
  · rename_i dimension hlarge
    have hmem := List.mem_of_find?_eq_some hlarge
    have hge := List.find?_some hlarge
    exact absurd (hsized.dimensions_lt dimension hmem) (Nat.not_lt.mpr (of_decide_eq_true hge))
  · rw [dif_pos hsmall]
    unfold TensorData.fromBytes
    rw [hcheck]
    unfold TensorData.residentBytesFor at hresident
    revert hfloat hquantized hresident
    generalize desc.ggmlType = ggmlType
    intro hresident hfloat hquantized
    cases ggmlType
    case f32 => exact hfloat .f32 (.f32 · desc.dimensions) rfl
    case f16 => exact hfloat .f16 (.f16 · desc.dimensions) rfl
    case bf16 => exact hfloat .bf16 (.bf16 · desc.dimensions) rfl
    case q4_0 | q5_0 | q8_0 | q4_K | q5_K | q6_K | q2_K | q3_K | q8_K =>
      obtain ⟨quantized, hnew⟩ := hquantized _ hsized.dimensions_lt rfl
      exact ⟨.quantized quantized, by simp only [hnew]; rfl⟩
    all_goals cases hresident

/-! ## The load -/

namespace GgufDataSource

/-- The read behind `load_tensor_data`. -/
def readPayload (desc : TensorDescriptor) : Exec Host DataSourceError Unit :=
  if desc.ggmlType = .f32 then do
    let _ ← readF32TensorByDescriptor desc
    return ()
  else do
    let _ ← readTensorByDescriptor desc
    return ()

theorem length_of_readF32Range {reserve : Reserve} {fileOffset elementCount : Nat}
    {s s' : List Answer × GgufDataSource} {data : List UInt32}
    (h : readF32Range reserve fileOffset elementCount s = (.ok data, s')) :
    data.length = elementCount := by
  obtain ⟨byteLength, hmul, h⟩ := of_okOr_bind_ok h
  obtain ⟨-, rfl⟩ := checkedMul_eq_some.mp hmul
  split at h
  · rename_i hzero
    cases h
    exact hzero.symm
  · obtain ⟨memory, s₁, -, h⟩ := of_bind_ok h
    obtain ⟨r, s₂, hread, h⟩ := of_bind_ok h
    cases h
    refine length_f32sOf elementCount ?_
    rw [length_of_readExactInto hread, length_spare]

theorem length_of_readF32TensorRangeByDescriptor {desc : TensorDescriptor}
    {elementOffset elementCount : Nat} {host host' : Host} {data : List UInt32}
    (h : readF32TensorRangeByDescriptor desc elementOffset elementCount host = (.ok data, host')) :
    data.length = elementCount := by
  obtain ⟨-, h⟩ := of_failIf_bind_ok h
  obtain ⟨_, -, h⟩ := of_okOr_bind_ok h
  obtain ⟨_, -, h⟩ := of_okOr_bind_ok h
  obtain ⟨-, h⟩ := of_failIf_bind_ok h
  obtain ⟨_, -, h⟩ := of_okOr_bind_ok h
  obtain ⟨-, h⟩ := of_failIf_bind_ok h
  obtain ⟨_, -, h⟩ := of_okOr_bind_ok h
  obtain ⟨_, -, h⟩ := of_okOr_bind_ok h
  obtain ⟨_, -, h⟩ := of_okOr_bind_ok h
  rw [self_bind_run] at h
  obtain ⟨_, _, -, h⟩ := of_bind_ok h
  obtain ⟨_, _, -, h⟩ := of_bind_ok h
  exact length_of_readF32Range (of_onSnd_ok h).1

end GgufDataSource

/-- Once its bytes are read, a tensor of whole blocks is loaded. -/
theorem exists_loadTensorData {desc : TensorDescriptor} {fileBytes resident : Nat}
    {host host' : Host} (hsized : desc.Sized) (hlen : desc.byteLength = some fileBytes)
    (hresident : TensorData.residentBytesFor desc.ggmlType desc.numElements fileBytes =
      .ok resident) (hsmall : fileBytes < isizeBound) (hblocks : desc.WholeBlocks)
    (hread : readPayload desc host = (.ok (), host')) :
    ∃ tensor : TensorData R, loadTensorData desc host = (.ok tensor, host') := by
  unfold loadTensorData
  unfold readPayload at hread
  by_cases htype : desc.ggmlType = .f32
  · rw [if_pos htype] at hread ⊢
    obtain ⟨data, s₁, hdata, hdone⟩ := of_bind_ok hread
    cases hdone
    have hcount := length_of_readF32TensorRangeByDescriptor hdata
    have hdecoded : (data.map (F32.fromBits (R := R))).length = desc.numElements := by
      rw [List.length_map, hcount]
    obtain ⟨tensor, htensor⟩ := exists_fromDecodedFloatVec (show isFloatType .f32 = true from rfl)
      hdecoded (hsized.shapeElements_eq hlen)
    refine ⟨tensor, ?_⟩
    have hbits : mapErr (readError desc.name) (readF32TensorByDescriptor desc) host =
        (.ok data, host') := by
      rw [mapErr_run, hdata]
      rfl
    rw [bind_of_ok hbits]
    show ofResult ((TensorData.fromDecodedFloatVec .f32 _ _ _).mapError _) _ = _
    rw [htensor]
    rfl
  · rw [if_neg htype] at hread ⊢
    obtain ⟨raw, s₁, hraw, hdone⟩ := of_bind_ok hread
    cases hdone
    have hcount := length_of_readTensorByDescriptor hraw
    rw [hlen] at hcount
    cases hcount
    obtain ⟨tensor, htensor⟩ := exists_ofReadBytes (R := R) hsized hlen hresident hsmall hblocks
    refine ⟨tensor, ?_⟩
    have hbytes : mapErr (readError desc.name) (readTensorByDescriptor desc) host =
        (.ok raw, host') := by
      rw [mapErr_run, hraw]
      rfl
    rw [bind_of_ok hbytes, htensor]
    rfl

/-- What was loaded is a whole number of blocks. -/
theorem wholeBlocks_of_loadTensorData {desc : TensorDescriptor} {host host' : Host}
    {tensor : TensorData R} (h : loadTensorData desc host = (.ok tensor, host')) :
    desc.WholeBlocks := by
  unfold loadTensorData at h
  split at h
  · rename_i htype
    intro layout hlayout
    rw [htype] at hlayout
    cases hlayout
  · obtain ⟨raw, s₁, -, h⟩ := of_bind_ok h
    have hbytes := (of_ofResult_mapError_ok h).1
    unfold TensorData.ofReadBytes at hbytes
    split at hbytes
    · cases hbytes
    · split at hbytes
      · obtain ⟨_, -, hbytes⟩ := of_except_bind_ok hbytes
        unfold TensorDescriptor.WholeBlocks
        revert hbytes
        generalize desc.ggmlType = ggmlType
        intro hbytes
        cases ggmlType
        case q4_0 | q5_0 | q8_0 | q4_K | q5_K | q6_K | q2_K | q3_K | q8_K =>
          obtain ⟨quantized, hnew, -⟩ := of_except_bind_ok hbytes
          exact wholeBlocks_of_new hnew
        all_goals
          intro layout hlayout
          cases hlayout
      · cases hbytes

end Ramforge
