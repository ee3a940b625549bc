/-
Tensors read by their descriptors.

A request is checked against the descriptor and against the size of the data source
before a byte is read.
-/
import Ramforge.Core.DataSourceRead
import Ramforge.Core.DataSourceRun
import Ramforge.Rust.Ends
import Ramforge.Rust.Scope

namespace Ramforge
namespace GgufDataSource

open Rust Rust.Exec

/-- What a reader draws on: the answers of `try_reserve_exact` to come, in front of those
of the operating system and the files.  When none are left memory is granted. -/
abbrev Host : Type := List Reserve × List Answer × GgufDataSource

def nextReserve {ε : Type} : Exec Host ε Reserve := fun s =>
  (.ok (s.1.headD (.ok fun _ => 0)), (s.1.tail, s.2))

/-- `byte_length.ok_or_else(..)` of the data source. -/
def knownLength {σ : Type} (desc : TensorDescriptor) : Exec σ DataSourceError Nat :=
  okOr desc.byteLength (.unknownByteLength desc.name desc.ggmlType.name)

def validateBoundsAt {σ : Type} (source : GgufDataSource) (fileOffset length : Nat)
    (desc : TensorDescriptor) : Exec σ DataSourceError Unit := do
  failIf (fileOffset < source.model.dataStartOffset)
    (.invalidOffset ("tensor '" ++ desc.name ++
      s!"' file_offset {fileOffset} is before data_start {source.model.dataStartOffset}"))
  let stop ← okOr (checkedAdd fileOffset length)
    (.invalidRange ("file range overflow for tensor '" ++ desc.name ++
      s!"': {fileOffset} + {length}"))
  failIf (stop > source.fileSize) (.outOfBounds desc.name fileOffset length source.fileSize)

def validateBounds {σ : Type} (source : GgufDataSource) (desc : TensorDescriptor)
    (byteLength : Nat) : Exec σ DataSourceError Unit :=
  source.validateBoundsAt desc.fileOffset byteLength desc

def readRange (fileOffset length : Nat) : Exec Host DataSourceError (List UInt8) := do
  let reserve ← nextReserve
  let (_, buffer) ← onSnd (withLocal [] (readRangeInto reserve fileOffset length))
  return buffer

def readTensorByDescriptor (desc : TensorDescriptor) : Exec Host DataSourceError (List UInt8) := do
  let byteLength ← knownLength desc
  let s ← self
  s.2.2.validateBounds desc byteLength
  readRange desc.fileOffset byteLength

/-- A part of a tensor of any type; `offset` counts from the start of the tensor. -/
def readTensorRangeByDescriptor (desc : TensorDescriptor) (offset length : Nat) :
    Exec Host DataSourceError (List UInt8) := do
  let byteLength ← knownLength desc
  failIf (offset > byteLength)
    (.invalidRange (s!"offset {offset} beyond tensor '" ++ desc.name ++ s!"' length {byteLength}"))
  let rangeEnd ← okOr (checkedAdd offset length)
    (.invalidRange (s!"range offset {offset} + length {length} overflows for tensor '" ++
      desc.name ++ "'"))
  failIf (rangeEnd > byteLength)
    (.invalidRange (s!"range offset {offset} + length {length} exceeds tensor '" ++ desc.name ++
      s!"' length {byteLength}"))
  let fileOffset ← okOr (checkedAdd desc.fileOffset offset)
    (.invalidRange ("file offset overflow for tensor '" ++ desc.name ++
      s!"': {desc.fileOffset} + {offset}"))
  let s ← self
  s.2.2.validateBoundsAt fileOffset length desc
  readRange fileOffset length

/-- A range of elements of an F32 tensor, by the bits of the numbers. -/
def readF32TensorRangeByDescriptor (desc : TensorDescriptor) (elementOffset elementCount : Nat) :
    Exec Host DataSourceError (List UInt32) := do
  failIf (desc.ggmlType ≠ .f32)
    (.general ("direct F32 read requires F32 tensor '" ++ desc.name ++ "', got " ++
      desc.ggmlType.name))
  let byteLength ← knownLength desc
  let expectedByteLength ← okOr (checkedMul desc.numElements sizeOfF32)
    (.invalidRange ("F32 tensor '" ++ desc.name ++ "' byte length overflows"))
  failIf (byteLength ≠ expectedByteLength)
    (.invalidRange ("F32 tensor '" ++ desc.name ++
      s!"' descriptor length {byteLength} does not match {desc.numElements} elements ({expectedByteLength} bytes)"))
  let elementEnd ← okOr (checkedAdd elementOffset elementCount)
    (.invalidRange ("F32 element range overflow for tensor '" ++ desc.name ++
      s!"': {elementOffset} + {elementCount}"))
  failIf (elementEnd > desc.numElements)
    (.invalidRange (s!"F32 element range {elementOffset}..{elementEnd} exceeds tensor '" ++
      desc.name ++ s!"' element count {desc.numElements}"))
  let relativeByteOffset ← okOr (checkedMul elementOffset sizeOfF32)
    (.invalidRange ("F32 byte offset overflow for tensor '" ++ desc.name ++ "'"))
  let rangeByteLength ← okOr (checkedMul elementCount sizeOfF32)
    (.invalidRange ("F32 byte length overflow for tensor '" ++ desc.name ++ "'"))
  let fileOffset ← okOr (checkedAdd desc.fileOffset relativeByteOffset)
    (.invalidRange ("F32 file offset overflow for tensor '" ++ desc.name ++ "'"))
  let s ← self
  s.2.2.validateBoundsAt fileOffset rangeByteLength desc
  let reserve ← nextReserve
  onSnd (readF32Range reserve fileOffset elementCount)

def readF32TensorByDescriptor (desc : TensorDescriptor) :
    Exec Host DataSourceError (List UInt32) :=
  readF32TensorRangeByDescriptor desc 0 desc.numElements

/-- A round of the loop over the tensors of a coalesced range. -/
def checkRequest {σ : Type} (source : GgufDataSource) (fileOffset rangeEnd logicalBytes : Nat)
    (descriptor : TensorDescriptor) : Exec σ DataSourceError Nat := do
  let tensorBytes ← knownLength descriptor
  source.validateBounds descriptor tensorBytes
  let tensorEnd ← okOr (checkedAdd descriptor.fileOffset tensorBytes)
    (.invalidRange ("tensor '" ++ descriptor.name ++ "' range overflows"))
  failIf (descriptor.fileOffset < fileOffset ∨ tensorEnd > rangeEnd)
    (.invalidRange ("tensor '" ++ descriptor.name ++
      s!"' is outside coalesced range {fileOffset}..{rangeEnd}"))
  okOr (checkedAdd logicalBytes tensorBytes)
    (.invalidRange "coalesced logical tensor byte count overflows")

/-- `read_coalesced_tensor_range_into` on the buffer in front of the host. -/
def readCoalescedTensorRangeInto (descriptors : List TensorDescriptor)
    (fileOffset byteLength : Nat) : Exec (List UInt8 × Host) DataSourceError Unit := do
  let first ← okOr descriptors.head? (.invalidRange "coalesced tensor read is empty")
  let rangeEnd ← okOr (checkedAdd fileOffset byteLength)
    (.invalidRange "coalesced tensor range overflows")
  let s ← self
  let source := s.2.2.2
  source.validateBoundsAt fileOffset byteLength first
  let logicalBytes ← descriptors.foldlM (source.checkRequest fileOffset rangeEnd) 0
  failIf (logicalBytes > byteLength)
    (.invalidRange "coalesced tensors overlap or exceed the physical range")
  let reserve ← onSnd nextReserve
  onPart (fun s => (s.1, s.2.2)) (fun t s => (t.1, s.2.1, t.2))
    (readRangeInto reserve fileOffset byteLength)

/-! ## The length of what a read returns -/

theorem length_of_readChunk {physicalOffset chunkLength : Nat} {s s' : List Answer × FileState}
    {bytes : List UInt8}
    (h : FileState.readChunk physicalOffset chunkLength s = (.ok bytes, s')) :
    bytes.length = chunkLength := by
  obtain ⟨_, s₁, -, h⟩ := of_bind_ok h
  obtain ⟨r, s₂, hread, h⟩ := of_bind_ok h
  obtain ⟨answer, s₃, -, hread⟩ := of_bind_ok hread
  cases answer with
  | serve =>
    simp only [self_bind_run] at hread
    split at hread
    · cases hread
      obtain ⟨_, -, h⟩ := of_okOr_bind_ok h
      cases h
      rw [List.length_take, List.length_drop]
      omega
    · cases hread
      cases h
  | fail error cursor =>
    cases hread
    cases h

theorem length_of_withShard {k : Nat} {physicalOffset chunkLength : Nat}
    {s s' : List Answer × GgufDataSource} {bytes : List UInt8}
    (h : withShard k (FileState.readChunk physicalOffset chunkLength) s = (.ok bytes, s')) :
    bytes.length = chunkLength := by
  unfold withShard at h
  split at h
  · cases h
  · exact length_of_readChunk (Prod.ext (Prod.mk.inj h).1 rfl)

theorem length_of_readExactInto {fileOffset : Nat} {destination : List UInt8}
    {s s' : List Answer × GgufDataSource} {r : List UInt8 × Nat}
    (h : readExactInto fileOffset destination s = (.ok r, s')) :
    r.1.length = destination.length := by
  unfold readExactInto at h
  split at h
  · rename_i hempty
    cases h
    rw [hempty]
  · refine loopN_of_ok (P := fun r => r.1.length = destination.length)
      (J := fun l : ReadLocals => l.destination.length = destination.length) ?_ ?_ rfl h
    · intro l s l' s' hl hround
      unfold readRound at hround
      split at hround
      · cases hround
      · obtain ⟨_, -, hround⟩ := of_okOr_bind_ok hround
        obtain ⟨⟨shard, k⟩, -, hround⟩ := of_okOr_bind_ok hround
        obtain ⟨_, -, hround⟩ := of_okOr_bind_ok hround
        obtain ⟨bytes, s₁, hread, hround⟩ := of_bind_ok hround
        have hlen := length_of_withShard hread
        cases hround
        rw [← hl]
        simp only [List.length_append, List.length_take, List.length_drop]
        omega
    · intro l s a s' hl hround
      unfold readRound at hround
      split at hround
      · cases hround
        exact hl
      · obtain ⟨_, -, hround⟩ := of_okOr_bind_ok hround
        obtain ⟨⟨shard, k⟩, -, hround⟩ := of_okOr_bind_ok hround
        obtain ⟨_, -, hround⟩ := of_okOr_bind_ok hround
        obtain ⟨bytes, s₁, hread, hround⟩ := of_bind_ok hround
        cases hround

theorem length_of_readRange {fileOffset length : Nat} {host host' : Host} {bytes : List UInt8}
    (h : readRange fileOffset length host = (.ok bytes, host')) : bytes.length = length := by
  obtain ⟨reserve, s₁, -, h⟩ := of_bind_ok h
  obtain ⟨⟨_, buffer⟩, s₂, hread, h⟩ := of_bind_ok h
  cases h
  have hlocal : withLocal [] (readRangeInto reserve fileOffset length) s₁.2 =
      (.ok ((), bytes), host'.2) := Prod.ext (Prod.mk.inj hread).1 (congrArg (·.2) (Prod.mk.inj hread).2)
  unfold withLocal at hlocal
  rcases hrun : readRangeInto reserve fileOffset length ([], s₁.2) with ⟨o, b, t⟩
  rw [hrun] at hlocal
  cases o with
  | ok u =>
    cases hlocal
    unfold readRangeInto at hrun
    rw [modify_bind_run] at hrun
    obtain ⟨memory, _, -, hrun⟩ := of_bind_ok hrun
    obtain ⟨r, s₃, hfill, hrun⟩ := of_bind_ok hrun
    have hbytes : r.1 = bytes := congrArg (·.2.1) hrun
    have hlen := length_of_readExactInto (Prod.ext (Prod.mk.inj hfill).1 rfl)
    rw [← hbytes, hlen, spare, List.length_map, List.length_range]
  | err e => cases hlocal
  | panic p => cases hlocal

theorem length_of_readTensorByDescriptor {desc : TensorDescriptor} {host host' : Host}
    {bytes : List UInt8} (h : readTensorByDescriptor desc host = (.ok bytes, host')) :
    desc.byteLength = some bytes.length := by
  obtain ⟨byteLength, hknown, h⟩ := of_okOr_bind_ok h
  rw [self_bind_run] at h
  obtain ⟨_, s₁, -, h⟩ := of_bind_ok h
  rw [hknown, length_of_readRange h]

end GgufDataSource
end Ramforge

/-!
What reads leave as it was: the model, its size, and the bytes of the files.
-/

namespace Ramforge

open Rust Rust.Exec

namespace FileState

theorem keeps_contents_readChunk {contents : FileBytes} (physicalOffset chunkLength : Nat) :
    Keeps (fun s : List Answer × FileState => s.2.file.contents = contents)
      (readChunk physicalOffset chunkLength) := by
  have hanswer : Keeps (fun s : List Answer × FileState => s.2.file.contents = contents)
      nextAnswer := fun _ hs => hs
  have hcursor : ∀ cursor, Keeps (fun s : List Answer × FileState => s.2.file.contents = contents)
      (modify (setCursor cursor) : Locked PUnit) := fun _ _ hs => hs
  have hposition : ∀ position, Keeps (fun s : List Answer × FileState => s.2.file.contents = contents)
      (modify (setPosition position) : Locked PUnit) := fun _ _ hs => hs
  have hseek : Keeps (fun s : List Answer × FileState => s.2.file.contents = contents)
      (seek physicalOffset) := by
    refine hanswer.bind fun answer => ?_
    cases answer
    · exact (hcursor _).bind fun _ => .pure _
    · exact (hcursor _).bind fun _ => .pure _
  have hread : Keeps (fun s : List Answer × FileState => s.2.file.contents = contents)
      (readExact chunkLength) := by
    refine hanswer.bind fun answer => ?_
    cases answer
    · refine Keeps.self.bind fun s => ?_
      show Keeps _ (if _ then _ else _)
      split
      · exact (hcursor _).bind fun _ => .pure _
      · exact (hcursor _).bind fun _ => .pure _
    · exact (hcursor _).bind fun _ => .pure _
  refine Keeps.bind (Keeps.self.bind fun s => ?_) fun _ => hread.bind fun r => ?_
  · show Keeps _ (if _ then _ else _)
    split
    · exact .pure _
    · refine hseek.bind fun r => ?_
      cases r
      · exact (hposition _).bind fun _ => .throw _
      · exact hposition _
  · cases r
    · exact (hposition _).bind fun _ => .throw _
    · exact (Keeps.okOr _ _).bind fun _ => (hposition _).bind fun _ => .pure _

end FileState

namespace GgufDataSource

/-- Everything but the state of the open files. -/
structure SameData (source source' : GgufDataSource) : Prop where
  model : source'.model = source.model
  fileSize : source'.fileSize = source.fileSize
  files : source'.files = source.files

namespace SameData

variable {source source₁ source₂ : GgufDataSource}

theorem refl (source : GgufDataSource) : SameData source source := ⟨rfl, rfl, rfl⟩

theorem trans (h₁ : SameData source source₁) (h₂ : SameData source₁ source₂) :
    SameData source source₂ :=
  ⟨h₂.model.trans h₁.model, h₂.fileSize.trans h₁.fileSize, h₂.files.trans h₁.files⟩

end SameData

/-- On the answers and the data source. -/
def Unwritten (source : GgufDataSource) (s : List Answer × GgufDataSource) : Prop :=
  SameData source s.2

theorem keeps_withShard (source : GgufDataSource) (k physicalOffset chunkLength : Nat) :
    Keeps (Unwritten source) (withShard k (FileState.readChunk physicalOffset chunkLength)) := by
  intro s hs
  unfold withShard
  cases hk : s.2.shards[k]? with
  | none => exact hs
  | some shard =>
    refine hs.trans ⟨rfl, rfl, ?_⟩
    have hcontents := FileState.keeps_contents_readChunk physicalOffset chunkLength
      (s.1, shard.state) rfl
    obtain ⟨hlt, rfl⟩ := List.getElem?_eq_some_iff.mp hk
    apply List.ext_getElem?
    intro j
    simp only [files, List.getElem?_map, List.getElem?_set]
    by_cases hj : k = j
    · subst hj
      rw [if_pos rfl, if_pos hlt, List.getElem?_eq_getElem hlt]
      simp only [Option.map_some]
      rw [hcontents]
    · rw [if_neg hj]

theorem keeps_readExactInto (source : GgufDataSource) (fileOffset : Nat) (destination : List UInt8) :
    Keeps (Unwritten source) (readExactInto fileOffset destination) := by
  unfold readExactInto
  split
  · exact .pure _
  · refine .loopOn (fun l => ?_) _ _
    unfold readRound
    split
    · exact .pure _
    · refine (Keeps.okOr _ _).bind fun _ => Keeps.self.bind fun s => (Keeps.okOr _ _).bind fun p => ?_
      obtain ⟨shard, k⟩ := p
      refine (Keeps.okOr _ _).bind fun _ => (keeps_withShard source _ _ _).bind fun bytes => .pure _

theorem keeps_readRangeInto (source : GgufDataSource) (reserve : Reserve) (fileOffset length : Nat) :
    Keeps (fun s : List UInt8 × List Answer × GgufDataSource => Unwritten source s.2)
      (readRangeInto reserve fileOffset length) := by
  refine Keeps.bind (fun _ hs => hs) fun _ => (Keeps.ofResult _).bind fun _ =>
    (keeps_readExactInto source fileOffset _).onSnd.bind fun r => ?_
  exact fun _ hs => hs

theorem keeps_readF32Range (source : GgufDataSource) (reserve : Reserve)
    (fileOffset elementCount : Nat) :
    Keeps (Unwritten source) (readF32Range reserve fileOffset elementCount) := by
  refine (Keeps.okOr _ _).bind fun byteLength => ?_
  split
  · exact .pure _
  · exact (Keeps.ofResult _).bind fun _ => (keeps_readExactInto source fileOffset _).bind fun _ =>
      .pure _

/-- On what a reader draws on. -/
def HostUnwritten (source : GgufDataSource) (host : Host) : Prop := Unwritten source host.2

variable (source : GgufDataSource)

theorem keeps_nextReserve {ε : Type} : Keeps (HostUnwritten source) (nextReserve (ε := ε)) :=
  fun _ hs => hs

theorem keeps_validateBoundsAt {σ : Type} {I : σ → Prop} (at' : GgufDataSource)
    (fileOffset length : Nat) (desc : TensorDescriptor) :
    Keeps I (at'.validateBoundsAt fileOffset length desc : Exec σ DataSourceError Unit) :=
  (Keeps.failIf _ _).bind fun _ => (Keeps.okOr _ _).bind fun _ => .failIf _ _

theorem keeps_readRange (fileOffset length : Nat) :
    Keeps (HostUnwritten source) (readRange fileOffset length) :=
  (keeps_nextReserve source).bind fun reserve =>
    (keeps_readRangeInto source reserve fileOffset length).withLocal.onSnd.bind fun r => .pure r.2

theorem keeps_readTensorByDescriptor (desc : TensorDescriptor) :
    Keeps (HostUnwritten source) (readTensorByDescriptor desc) :=
  (Keeps.okOr _ _).bind fun _ => Keeps.self.bind fun _ => (keeps_validateBoundsAt _ _ _ _).bind fun _ =>
    keeps_readRange source _ _

theorem keeps_readTensorRangeByDescriptor (desc : TensorDescriptor) (offset length : Nat) :
    Keeps (HostUnwritten source) (readTensorRangeByDescriptor desc offset length) :=
  (Keeps.okOr _ _).bind fun _ => (Keeps.failIf _ _).bind fun _ => (Keeps.okOr _ _).bind fun _ =>
    (Keeps.failIf _ _).bind fun _ => (Keeps.okOr _ _).bind fun _ => Keeps.self.bind fun _ =>
      (keeps_validateBoundsAt _ _ _ _).bind fun _ => keeps_readRange source _ _

theorem keeps_readF32TensorRangeByDescriptor (desc : TensorDescriptor)
    (elementOffset elementCount : Nat) :
    Keeps (HostUnwritten source) (readF32TensorRangeByDescriptor desc elementOffset elementCount) :=
  (Keeps.failIf _ _).bind fun _ => (Keeps.okOr _ _).bind fun _ => (Keeps.okOr _ _).bind fun _ =>
    (Keeps.failIf _ _).bind fun _ => (Keeps.okOr _ _).bind fun _ => (Keeps.failIf _ _).bind fun _ =>
      (Keeps.okOr _ _).bind fun _ => (Keeps.okOr _ _).bind fun _ => (Keeps.okOr _ _).bind fun _ =>
        Keeps.self.bind fun _ => (keeps_validateBoundsAt _ _ _ _).bind fun _ =>
          (keeps_nextReserve source).bind fun reserve =>
            (keeps_readF32Range source reserve _ _).onSnd

end GgufDataSource
end Ramforge
