/-
Reading byte ranges of a model's files.

Each shard keeps an open file and a cached position.  A read seeks only where
the cached position is not the wanted one.  The operating system's cursor is
kept apart from the cached position, and every seek and every read asks the
operating system for its answer, which may be a failure that leaves the cursor
anywhere.
-/
import Ramforge.Core.ModelSet
import Ramforge.Rust.Loop

namespace Ramforge

open Rust Rust.Exec

inductive IoError where
  | unexpectedEof
  | os (code : Nat)
deriving DecidableEq, Repr

inductive DataSourceError where
  | io (error : IoError)
  | tensorNotFound (name : String)
  | invalidOffset (message : String)
  | invalidRange (message : String)
  | outOfBounds (name : String) (fileOffset byteLength fileSize : Nat)
  | unknownByteLength (name typeName : String)
  | general (message : String)
deriving DecidableEq, Repr

/-- The text of an I/O error.  The words the operating system has for a code are left out. -/
def IoError.text : IoError → String
  | .unexpectedEof => "failed to fill whole buffer"
  | .os code => s!"os error {code}"

/-- `error.to_string()`. -/
def DataSourceError.text : DataSourceError → String
  | .io error => s!"I/O error: {error.text}"
  | .tensorNotFound name => s!"tensor not found: {name}"
  | .invalidOffset message => s!"invalid tensor offset: {message}"
  | .invalidRange message => s!"invalid range: {message}"
  | .outOfBounds name fileOffset byteLength fileSize =>
    s!"tensor data extends beyond file: tensor '{name}' file_offset {fileOffset} + byte_length {byteLength} > file_size {fileSize}"
  | .unknownByteLength name typeName =>
    s!"tensor byte length unknown: cannot determine size for tensor '{name}' (type {typeName})"
  | .general message => s!"general data source error: {message}"

/-- An open file: its bytes and the cursor of the operating system. -/
structure OpenFile where
  contents : FileBytes
  cursor : Nat

/-- What the operating system does with a seek or a read: serve it, or fail and
leave the cursor somewhere. -/
inductive Answer where
  | serve
  | fail (error : IoError) (cursor : Nat)
deriving DecidableEq, Repr

structure FileState where
  file : OpenFile
  position : Option Nat

structure ShardSource where
  layout : GgufShardLayout
  state : FileState

structure GgufDataSource where
  model : GgufModel
  shards : List ShardSource
  fileSize : Nat

namespace FileState

/-- A call on one locked file, under the answers still to come.  When none are
left every request is served. -/
abbrev Locked (α : Type) : Type := Exec (List Answer × FileState) DataSourceError α

def nextAnswer : Locked Answer := fun s => (.ok (s.1.headD .serve), (s.1.tail, s.2))

def setCursor (cursor : Nat) (s : List Answer × FileState) : List Answer × FileState :=
  (s.1, { s.2 with file := { s.2.file with cursor } })

def setPosition (position : Option Nat) (s : List Answer × FileState) :
    List Answer × FileState :=
  (s.1, { s.2 with position })

/-- `File::seek(SeekFrom::Start(offset))`. -/
def seek (offset : Nat) : Locked (Except IoError Nat) := do
  match ← nextAnswer with
  | .serve => do
    modify (setCursor offset)
    return .ok offset
  | .fail error cursor => do
    modify (setCursor cursor)
    return .error error

/-- `File::read_exact` into a buffer of `len` bytes.  The end of the file is met
with the cursor on it. -/
def readExact (len : Nat) : Locked (Except IoError (List UInt8)) := do
  match ← nextAnswer with
  | .serve => do
    let s ← self
    let file := s.2.file
    if file.cursor + len ≤ file.contents.bytes.length then do
      modify (setCursor (file.cursor + len))
      return .ok ((file.contents.bytes.drop file.cursor).take len)
    else do
      modify (setCursor (max file.cursor file.contents.bytes.length))
      return .error .unexpectedEof
  | .fail error cursor => do
    modify (setCursor cursor)
    return .error error

def ensureFilePosition (fileOffset : Nat) : Locked Unit := do
  let s ← self
  if s.2.position = some fileOffset then pure ()
  else
    match ← seek fileOffset with
    | .ok position => modify (setPosition (some position))
    | .error error => do
      modify (setPosition none)
      throw (.io error)

/-- What a round of `read_exact_into` does under the lock of a shard. -/
def readChunk (physicalOffset chunkLength : Nat) : Locked (List UInt8) := do
  ensureFilePosition physicalOffset
  match ← readExact chunkLength with
  | .error error => do
    modify (setPosition none)
    throw (.io error)
  | .ok bytes => do
    let nextPosition ← okOr (checkedAdd physicalOffset chunkLength)
      (.invalidRange (s!"file position overflow after reading offset {physicalOffset} " ++
        s!"length {chunkLength}"))
    modify (setPosition (some nextPosition))
    return bytes

end FileState

namespace GgufShardLayout

def covers (l : GgufShardLayout) (virtualOffset : Nat) : Bool :=
  l.virtualStart ≤ virtualOffset ∧ virtualOffset < l.virtualEnd

end GgufShardLayout

namespace GgufDataSource

/-- The data source of a set whose files have been opened, in the order of the
layouts. -/
def ofFiles (set : GgufModelSet) (files : List FileBytes) : GgufDataSource where
  model := set.mergedModel
  shards := (set.shardLayouts.zip files).map fun (layout, contents) =>
    { layout, state := { file := { contents, cursor := 0 }, position := some 0 } }
  fileSize := set.virtualSize

/-- The part of `open` behind `discover_model_set`. -/
def openSet (set : GgufModelSet) (openFile : String → Except IoError FileBytes) :
    Except DataSourceError GgufDataSource :=
  match set.shardLayouts.mapM fun layout => openFile layout.path with
  | .error error => .error (.io error)
  | .ok files => .ok (ofFiles set files)

def getDescriptor (source : GgufDataSource) (name : String) :
    Except DataSourceError TensorDescriptor :=
  match source.model.tensors.find? fun t => t.name = name with
  | some t => .ok t
  | none => .error (.tensorNotFound name)

/-- A data source and the answers the operating system will give to it. -/
abbrev Reading (α : Type) : Type := Exec (List Answer × GgufDataSource) DataSourceError α

/-- A call on the locked file of shard `k`. -/
def withShard {α : Type} (k : Nat) (call : FileState.Locked α) : Reading α := fun s =>
  match s.2.shards[k]? with
  | none => (.panic "index out of range", s)
  | some shard =>
    let r := call (s.1, shard.state)
    (r.1, (r.2.1, { s.2 with shards := s.2.shards.set k { shard with state := r.2.2 } }))

/-- The local variables of `read_exact_into`. -/
structure ReadLocals where
  destination : List UInt8
  written : Nat
  physicalOperations : Nat

def ReadLocals.left (l : ReadLocals) : Nat := l.destination.length - l.written

/-- `shard` is the first one whose layout covers the offset, at place `k`. -/
def findShard (shards : List ShardSource) (virtualOffset : Nat) : Option (ShardSource × Nat) :=
  shards.zipIdx.find? fun p => p.1.layout.covers virtualOffset

/-- A round of the loop of `read_exact_into`. -/
def readRound (fileOffset : Nat) (l : ReadLocals) :
    Reading (RoundEnd ReadLocals (List UInt8 × Nat)) := do
  if l.destination.length ≤ l.written then return .leave (l.destination, l.physicalOperations)
  else
    let virtualOffset ← okOr (checkedAdd fileOffset l.written)
      (.invalidRange s!"virtual read position overflow after offset {fileOffset}")
    let s ← self
    let (shard, k) ← okOr (findShard s.2.shards virtualOffset)
      (.outOfBounds "<range>" virtualOffset (l.destination.length - l.written) s.2.fileSize)
    let available := saturatingSub shard.layout.virtualEnd virtualOffset
    let chunkLength := min available (l.destination.length - l.written)
    let physicalOffset ← okOr
      ((checkedSub virtualOffset shard.layout.virtualStart).bind fun relative =>
        checkedAdd relative shard.layout.physicalDataStart)
      (.invalidOffset s!"physical shard offset overflow for virtual offset {virtualOffset}")
    let bytes ← withShard k (FileState.readChunk physicalOffset chunkLength)
    return .again {
      destination := l.destination.take l.written ++ bytes ++
        l.destination.drop (l.written + chunkLength)
      written := l.written + chunkLength
      physicalOperations := l.physicalOperations + 1 }

/-- Fills the destination and counts the physical reads. -/
def readExactInto (fileOffset : Nat) (destination : List UInt8) :
    Reading (List UInt8 × Nat) :=
  if destination = [] then pure ([], 0)
  else loopOn ReadLocals.left (readRound fileOffset)
    { destination, written := 0, physicalOperations := 0 }

/-- The answer of `try_reserve_exact`: the text of an allocation error, or memory
with whatever it held before. -/
abbrev Reserve : Type := Except String (Nat → UInt8)

/-- The reserved region, not initialised. -/
def spare (memory : Nat → UInt8) (len : Nat) : List UInt8 := (List.range len).map memory

/-- `read_range_into` on the buffer in front of the data source. -/
def readRangeInto (reserve : Reserve) (fileOffset length : Nat) :
    Exec (List UInt8 × List Answer × GgufDataSource) DataSourceError Unit := do
  modify fun s => ([], s.2)
  let memory ← ofResult (reserve.mapError fun e =>
    DataSourceError.general (s!"failed to reserve {length}-byte read buffer: " ++ e))
  let (bytes, _) ← onSnd (readExactInto fileOffset (spare memory length))
  modify fun s => (bytes, s.2)

/-- `size_of::<f32>()`. -/
def sizeOfF32 : Nat := 4

/-- The numbers whose bits lie one after another, little-endian, in `bytes`. -/
def f32sOf : List UInt8 → List UInt32
  | b₀ :: b₁ :: b₂ :: b₃ :: bytes =>
    UInt32.ofNat (LittleEndian.ofBytes [b₀, b₁, b₂, b₃]) :: f32sOf bytes
  | _ => []

/-- `read_f32_range`, with the bits of the numbers. -/
def readF32Range (reserve : Reserve) (fileOffset elementCount : Nat) :
    Reading (List UInt32) := do
  let byteLength ← okOr (checkedMul elementCount sizeOfF32)
    (.invalidRange s!"F32 read size overflows for {elementCount} elements")
  if elementCount = 0 then return []
  else
    let memory ← ofResult (reserve.mapError fun e =>
      DataSourceError.general (s!"failed to reserve {elementCount}-element F32 read buffer: " ++ e))
    let (bytes, _) ← readExactInto fileOffset (spare memory byteLength)
    return f32sOf bytes

end GgufDataSource
end Ramforge
