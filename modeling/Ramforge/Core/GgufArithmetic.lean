/-
The positions that the header parser computes, in both kinds of build.

The end of the header is rounded up without leaving `u64`, whatever the alignment says.
The offset of a tensor comes from the file and is added without a check.
-/
import Ramforge.Core.GgufRoundTrip
import Ramforge.Rust.Checked

namespace Ramforge

open Rust Rust.Exec Rust.Reader

def alignOffsetIn (build : Build) (offset alignment : Nat) : Option Nat :=
  if alignment = 0 then some offset
  else
    let remainder := offset % alignment
    if remainder = 0 then some offset else build.add offset (alignment - remainder)

namespace Gguf

def descriptorIn (build : Build) (dataStart : Nat) (info : TensorInfo) : Option TensorDescriptor :=
  (build.add dataStart info.offset.toNat).map fun fileOffset =>
    { descriptorOf dataStart info with fileOffset }

def modelIn (build : Build) (path : String) (fileSize : Nat) (header : RawHeader)
    (afterTensorInfoPos : Nat) : Option GgufModel := do
  let metadata := metadataOf header.metadata
  let alignment := alignmentOf metadata
  let dataStart ← alignOffsetIn build afterTensorInfoPos alignment
  let tensors ← header.tensors.mapM (descriptorIn build dataStart)
  return {
    path
    fileSize
    version := header.version
    metadata
    tensors
    alignment
    dataStartOffset := dataStart }

/-- `parse_gguf_file` in a build of either kind. -/
def parseGgufFileIn (build : Build) (path : String) (file : FileBytes) :
    Outcome GgufError GgufModel :=
  match readHeader { inner := file.bytes, position := 0 } with
  | (.ok header, r) =>
    match modelIn build path file.bytes.length header r.position with
    | some model => .ok model
    | none => .panic Build.addOverflow
  | (.err e, _) => .err e
  | (.panic message, _) => .panic message

section release

theorem add_release (a b : Nat) : Build.release.add a b = some (wrappingAdd a b) := by
  unfold Build.add
  split
  next h => rw [wrappingAdd, Nat.mod_eq_of_lt h]
  next => rfl

theorem alignOffsetIn_release (offset alignment : Nat) :
    alignOffsetIn .release offset alignment = some (alignOffset offset alignment) := by
  unfold alignOffsetIn alignOffset
  split
  next => rfl
  next =>
    simp only
    split
    next => rfl
    next => exact add_release _ _

theorem descriptorIn_release (dataStart : Nat) (info : TensorInfo) :
    descriptorIn .release dataStart info = some (descriptorOf dataStart info) := by
  rw [descriptorIn, add_release]
  rfl

/-- The parser of a build without overflow checks. -/
theorem parseGgufFileIn_release (path : String) (file : FileBytes) :
    parseGgufFileIn .release path file = parseGgufFile path file := by
  have hmodel : ∀ fileSize header position,
      modelIn .release path fileSize header position =
        some (modelOf path fileSize header position) := by
    intro fileSize header position
    have htensors : ∀ dataStart, header.tensors.mapM (descriptorIn .release dataStart) =
        some (header.tensors.map (descriptorOf dataStart)) := fun dataStart => by
      rw [funext (descriptorIn_release dataStart)]
      exact List.mapM_pure
    rw [modelIn, alignOffsetIn_release, Option.bind_eq_bind, Option.bind_some, htensors]
    rfl
  unfold parseGgufFileIn parseGgufFile
  rcases readHeader { inner := file.bytes, position := 0 } with ⟨header | e | p, r⟩
  · simp only [hmodel]
  · rfl
  · rfl

end release

/-! ## Positions -/

/-- The positions of a model are those of the file, as unbounded numbers. -/
structure TruePositions (headerEnd : Nat) (m : GgufModel) : Prop where
  dataStart : IsAlignedEnd headerEnd m.alignment m.dataStartOffset
  fileOffset : ∀ t ∈ m.tensors, t.fileOffset = m.dataStartOffset + t.offset

/-- The file begins with a header of `headerEnd` bytes. -/
def HasHeader (file : FileBytes) (header : RawHeader) (headerEnd : Nat) : Prop :=
  ∃ used rest, file.bytes = used ++ rest ∧ used.length = headerEnd ∧
    Decodes readHeader used header

/-- Each position of the header is a `u64`. -/
def PositionsFit (header : RawHeader) (headerEnd : Nat) : Prop :=
  ∀ dataStart, IsAlignedEnd headerEnd (alignmentOf (metadataOf header.metadata)) dataStart →
    dataStart < u64Bound ∧ ∀ info ∈ header.tensors, dataStart + info.offset.toNat < u64Bound

/-- What is parsed has true positions, and positions that do not fit are an error. -/
def ParsesExactly (build : Build) (path : String) (file : FileBytes) : Prop :=
  (∀ m, parseGgufFileIn build path file = .ok m →
    ∃ header headerEnd, HasHeader file header headerEnd ∧ TruePositions headerEnd m) ∧
  ∀ header headerEnd, HasHeader file header headerEnd → ¬PositionsFit header headerEnd →
    ∃ e, parseGgufFileIn build path file = .err e

section exact

variable {build : Build} {path : String} {file : FileBytes} {header : RawHeader} {headerEnd : Nat}
  {m : GgufModel}

theorem HasHeader.run (h : HasHeader file header headerEnd) :
    ∃ rest, readHeader { inner := file.bytes, position := 0 } = (.ok header, ⟨rest, headerEnd⟩) := by
  obtain ⟨used, rest, hsplit, rfl, hdecodes⟩ := h
  have hread := hdecodes rest 0
  rw [← hsplit, Nat.zero_add] at hread
  exact ⟨rest, hread⟩

theorem HasHeader.end_lt (h : HasHeader file header headerEnd) : headerEnd < 2 ^ 63 := by
  obtain ⟨used, rest, hsplit, rfl, -⟩ := h
  have hlength := file.length_lt
  rw [hsplit, List.length_append] at hlength
  omega

theorem hasHeader_of_run {r : Reader}
    (h : readHeader { inner := file.bytes, position := 0 } = (.ok header, r)) :
    HasHeader file header r.position := by
  have hstream := readHeader_streams { inner := file.bytes, position := 0 }
  rw [h] at hstream
  obtain ⟨used, hsplit, hdecodes⟩ := hstream
  have hagain := hdecodes r.inner 0
  rw [← hsplit, Nat.zero_add] at hagain
  have hr : r = ⟨r.inner, used.length⟩ := congrArg Prod.snd (h.symm.trans hagain)
  exact ⟨used, r.inner, hsplit, by rw [hr], hdecodes⟩

/-- The start of the data, in both builds. -/
theorem alignOffsetIn_eq (build : Build) {offset alignment : Nat} (hoffset : offset < 2 ^ 63)
    (halignment : alignment < 2 ^ 64) :
    alignOffsetIn build offset alignment = some (alignOffset offset alignment) := by
  cases build with
  | release => exact alignOffsetIn_release offset alignment
  | debug =>
    have hle := (alignOffset_isAlignedEnd hoffset halignment).le
    unfold alignOffsetIn
    unfold alignOffset at hle ⊢
    by_cases hzero : alignment = 0
    · rw [if_pos hzero, if_pos hzero]
    rw [if_neg hzero] at hle
    rw [if_neg hzero, if_neg hzero]
    simp only at hle ⊢
    by_cases hmultiple : offset % alignment = 0
    · rw [if_pos hmultiple, if_pos hmultiple]
    rw [if_neg hmultiple] at hle
    rw [if_neg hmultiple, if_neg hmultiple]
    -- a sum that wraps would lie before the offset
    have hle : offset ≤ (offset + (alignment - offset % alignment)) % 2 ^ 64 := hle
    have hfits : offset + (alignment - offset % alignment) < 2 ^ 64 := by omega
    rw [Build.add, if_pos hfits, wrappingAdd, Nat.mod_eq_of_lt hfits]

/-- The descriptor with the position it has in the file. -/
def placedDescriptor (dataStart : Nat) (info : TensorInfo) : TensorDescriptor :=
  { descriptorOf dataStart info with fileOffset := dataStart + info.offset.toNat }

theorem mapM_descriptorIn (build : Build) {dataStart : Nat} {infos : List TensorInfo}
    (h : ∀ info ∈ infos, dataStart + info.offset.toNat < u64Bound) :
    infos.mapM (descriptorIn build dataStart) = some (infos.map (placedDescriptor dataStart)) := by
  induction infos with
  | nil => rfl
  | cons info rest ih =>
    have hfirst : descriptorIn build dataStart info = some (placedDescriptor dataStart info) := by
      rw [descriptorIn, Build.add_of_lt (h info List.mem_cons_self)]
      rfl
    rw [List.mapM_cons, hfirst, ih fun other hother => h other (List.mem_cons_of_mem _ hother)]
    rfl

/-- Where the positions fit, both builds give the same true positions. -/
theorem modelIn_of_fit (build : Build) (path : String) (h : HasHeader file header headerEnd)
    (hfit : PositionsFit header headerEnd) (fileSize : Nat) :
    ∃ m, modelIn build path fileSize header headerEnd = some m ∧ TruePositions headerEnd m := by
  have haligned := alignOffset_isAlignedEnd h.end_lt (alignmentOf_lt (metadataOf header.metadata))
  have htensors := mapM_descriptorIn build (hfit _ haligned).2
  rw [modelIn, alignOffsetIn_eq build h.end_lt (alignmentOf_lt _), Option.bind_eq_bind,
    Option.bind_some, htensors]
  refine ⟨_, rfl, haligned, fun t ht => ?_⟩
  obtain ⟨info, -, rfl⟩ := List.mem_map.mp ht
  rfl

/-- A file with a header is never an error: it parses, or the call panics. -/
theorem parseGgufFileIn_of_header (h : HasHeader file header headerEnd) (e : GgufError) :
    parseGgufFileIn build path file ≠ .err e := by
  obtain ⟨rest, hrun⟩ := h.run
  rw [parseGgufFileIn, hrun]
  simp only
  cases modelIn build path file.bytes.length header headerEnd with
  | none => exact fun h => by cases h
  | some m => exact fun h => by cases h

end exact

/-- The parser is exact on exactly the files whose header, if they have one, has positions
that fit. -/
theorem parseGgufFileIn_exact_iff (build : Build) (path : String) (file : FileBytes) :
    ParsesExactly build path file ↔
      ∀ header headerEnd, HasHeader file header headerEnd → PositionsFit header headerEnd := by
  constructor
  · intro hexact header headerEnd hheader
    by_contra hunfit
    obtain ⟨e, he⟩ := hexact.2 header headerEnd hheader hunfit
    exact parseGgufFileIn_of_header hheader e he
  · intro hfit
    refine ⟨fun m hm => ?_, fun header headerEnd hheader hunfit =>
      absurd (hfit header headerEnd hheader) hunfit⟩
    unfold parseGgufFileIn at hm
    rcases hrun : readHeader { inner := file.bytes, position := 0 } with ⟨header | e | p, r⟩ <;>
      rw [hrun] at hm
    · have hheader := hasHeader_of_run hrun
      obtain ⟨m', hm', htrue⟩ := modelIn_of_fit build path hheader
        (hfit header r.position hheader) file.bytes.length
      simp only [hm'] at hm
      obtain rfl := Outcome.ok.inj hm
      exact ⟨header, r.position, hheader, htrue⟩
    · cases hm
    · cases hm

/-! ## An offset that wraps -/

/-- A header with one tensor, whose offset is the last `u64`. -/
def farHeader : Header where
  version := 3
  metadata := []
  tensors := [{ name := "t", dims := [1], ty := 0, offset := 18446744073709551615 }]
  version_supported := three_supported
  kvCount_le := by decide
  keys_nodup := by decide
  keys_fit := by decide +kernel
  values_fit := by decide +kernel
  tensorCount_le := by decide
  tensors_fit := by decide +kernel

def farFile : FileBytes where
  bytes := farHeader.encode
  length_lt := by decide +kernel

theorem far_hasHeader : HasHeader farFile farHeader.toRawHeader 57 :=
  ⟨farHeader.encode, [], (List.append_nil _).symm, by decide +kernel, readHeader_decodes farHeader⟩

theorem far_alignment : alignmentOf (metadataOf farHeader.metadata) = 32 := by decide +kernel

theorem far_unfit : ¬PositionsFit farHeader.toRawHeader 57 := by
  intro hfit
  have haligned : IsAlignedEnd 57 (alignmentOf (metadataOf farHeader.metadata)) 64 := by
    rw [far_alignment, IsAlignedEnd]
    decide
  exact absurd ((hfit 64 haligned).2 _ List.mem_cons_self) (by decide)

/-- The data begin at byte 64, and the tensor is said to lie at byte 63; a debug build
panics. -/
theorem farFile_not_exact :
    (∃ m, parseGgufFileIn .release "model.gguf" farFile = .ok m ∧ m.dataStartOffset = 64 ∧
      m.tensors.map TensorDescriptor.fileOffset = [63]) ∧
    parseGgufFileIn .debug "model.gguf" farFile = .panic Build.addOverflow ∧
    ¬ParsesExactly .release "model.gguf" farFile ∧ ¬ParsesExactly .debug "model.gguf" farFile := by
  obtain ⟨rest, hrun⟩ := far_hasHeader.run
  have hinexact : ∀ build, ¬ParsesExactly build "model.gguf" farFile := fun build hexact => by
    obtain ⟨e, he⟩ := hexact.2 _ _ far_hasHeader far_unfit
    exact parseGgufFileIn_of_header far_hasHeader e he
  refine ⟨?_, ?_, hinexact .release, hinexact .debug⟩
  · rw [parseGgufFileIn, hrun]
    simp only [modelIn, far_alignment]
    exact ⟨_, rfl, rfl, rfl⟩
  · rw [parseGgufFileIn, hrun]
    simp only [modelIn, far_alignment]
    rfl

end Gguf
end Ramforge
