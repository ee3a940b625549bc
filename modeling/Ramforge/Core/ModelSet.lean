/-
A model in one file or in several shards.

The tensor data sections of the shards, one after another, are the virtual data
space of the set.  `mergedModel` moves the tensor descriptors into that space and
`shardLayouts` says where each shard's section lies in it.
-/
import Ramforge.Core.Gguf

namespace Ramforge

open Rust Rust.Exec

namespace ModelSet

def splitCountKey : String := "split.count"

def splitNoKey : String := "split.no"

def splitTensorCountKey : String := "split.tensors.count"

end ModelSet

structure GgufShardLayout where
  path : String
  fileSize : Nat
  dataStartOffset : Nat
  dataLength : Nat
  virtualStart : Nat
  virtualEnd : Nat
  physicalDataStart : Nat
deriving DecidableEq

/-- One resolved model.  Every constructor of the source gives it a first shard. -/
structure GgufModelSet where
  path : String
  shards : List GgufModel
  nonempty : shards ≠ []

namespace GgufModel

/-- The bytes from the data section on. -/
def dataLength (m : GgufModel) : Nat := saturatingSub m.fileSize m.dataStartOffset

end GgufModel

namespace GgufModelSet

/-- `self.shards[0]`. -/
def first (set : GgufModelSet) : GgufModel := set.shards.head set.nonempty

def isSharded (set : GgufModelSet) : Bool := 1 < set.shards.length

def totalFileBytes (set : GgufModelSet) : Nat :=
  set.shards.foldl (fun total shard => saturatingAdd total shard.fileSize) 0

def virtualSize (set : GgufModelSet) : Nat :=
  if set.isSharded then
    set.shards.foldl (fun total shard => saturatingAdd total shard.dataLength) 0
  else set.first.fileSize

/-- The loop of `shard_layouts`. -/
def layoutsFrom : Nat → List GgufModel → List GgufShardLayout
  | _, [] => []
  | virtualStart, shard :: shards =>
    let virtualEnd := saturatingAdd virtualStart shard.dataLength
    { path := shard.path
      fileSize := shard.fileSize
      dataStartOffset := shard.dataStartOffset
      dataLength := shard.dataLength
      virtualStart
      virtualEnd
      physicalDataStart := shard.dataStartOffset } :: layoutsFrom virtualEnd shards

def shardLayouts (set : GgufModelSet) : List GgufShardLayout :=
  if set.isSharded then layoutsFrom 0 set.shards
  else
    [{ path := set.first.path
       fileSize := set.first.fileSize
       dataStartOffset := set.first.dataStartOffset
       dataLength := set.first.fileSize
       virtualStart := 0
       virtualEnd := set.first.fileSize
       physicalDataStart := 0 }]

/-- A descriptor of a shard, moved to the virtual data space. -/
def remap (virtualStart dataStartOffset : Nat) (descriptor : TensorDescriptor) :
    TensorDescriptor :=
  let relative := saturatingSub descriptor.fileOffset dataStartOffset
  let fileOffset := saturatingAdd virtualStart relative
  { descriptor with fileOffset, offset := fileOffset }

/-- The loop of `merged_model`. -/
def mergedFrom : Nat → List GgufModel → List TensorDescriptor
  | _, [] => []
  | virtualStart, shard :: shards =>
    shard.tensors.map (remap virtualStart shard.dataStartOffset) ++
      mergedFrom (saturatingAdd virtualStart shard.dataLength) shards

def mergedModel (set : GgufModelSet) : GgufModel :=
  let merged := { set.first with fileSize := set.totalFileBytes }
  if set.isSharded then
    { merged with tensors := mergedFrom 0 set.shards, dataStartOffset := 0 }
  else merged

end GgufModelSet

namespace ModelSet

def metadataU64 (model : GgufModel) (key : String) : Except GgufError (Option Nat) :=
  match model.getMetadata key with
  | none => .ok none
  | some value =>
    match value.asU64 with
    | some n => .ok (some n)
    | none =>
      .error (.general ("metadata '" ++ key ++ "' in " ++ model.path ++
        " is not an unsigned integer"))

def splitCount (model : GgufModel) : Except GgufError Nat :=
  match metadataU64 model splitCountKey with
  | .error e => .error e
  | .ok none => .ok 1
  | .ok (some value) =>
    if value < 2 ^ 32 then .ok value
    else .error (.general s!"split.count {value} exceeds u32")

/-- The local variables of `assemble_shards`. -/
structure Assembly where
  shards : List (Option GgufModel)
  seenTensors : Std.ExtTreeSet String
  totalTensors : Nat
  referenceName : Option String
  referenceArchitecture : Option String

abbrev Assemble (α : Type) : Type := Exec Assembly GgufError α

/-- The first loop of `assemble_shards`. -/
def agreedTensorCount : Option Nat → List GgufModel → Except GgufError (Option Nat)
  | splitTensorCount, [] => .ok splitTensorCount
  | splitTensorCount, model :: models =>
    match metadataU64 model splitTensorCountKey with
    | .error e => .error e
    | .ok none => agreedTensorCount splitTensorCount models
    | .ok (some value) =>
      match splitTensorCount with
      | none => agreedTensorCount (some value) models
      | some existing =>
        if existing ≠ value then
          .error (.general ("inconsistent " ++ splitTensorCountKey ++
            s!" across shards: {existing} vs {value}"))
        else agreedTensorCount splitTensorCount models

/-- The name or the architecture that all shards with one have to agree on. -/
def agreeOn (key : String) (index : Nat) (reference found : Option String) :
    Except GgufError (Option String) :=
  match found, reference with
  | none, _ => .ok reference
  | some value, none => .ok (some value)
  | some value, some expected =>
    if expected ≠ value then
      .error (.general ("inconsistent " ++ key ++ s!" in shard {index}: '" ++ value ++ "' vs '" ++
        expected ++ "'"))
    else .ok reference

/-- A round of the loop over a shard's tensors. -/
def checkTensor (model : GgufModel) (tensor : TensorDescriptor) : Assemble Unit := do
  let a ← self
  failIf (tensor.name ∈ a.seenTensors)
    (.general ("duplicate tensor '" ++ tensor.name ++ "' across GGUF shards"))
  modify fun a => { a with seenTensors := a.seenTensors.insert tensor.name }
  match tensor.byteLength with
  | none => pure ()
  | some byteLength =>
    let tensorEnd ← okOr (checkedAdd tensor.fileOffset byteLength)
      (.general ("tensor '" ++ tensor.name ++ "' range overflows in " ++ model.path))
    failIf (model.fileSize < tensorEnd)
      (.general ("tensor '" ++ tensor.name ++ "' extends beyond shard " ++ model.path ++
        s!": {tensor.fileOffset} + {byteLength} > {model.fileSize}"))

def checkTensors (model : GgufModel) : List TensorDescriptor → Assemble Unit
  | [] => pure ()
  | tensor :: tensors => do
    checkTensor model tensor
    checkTensors model tensors

/-- A round of the second loop of `assemble_shards`. -/
def placeShard (expectedCount : Nat) (model : GgufModel) : Assemble Unit := do
  let count ← ofResult (splitCount model)
  failIf (count ≠ expectedCount)
    (.general (model.path ++
      s!" declares split.count={count} but the set requires {expectedCount}"))
  let index ← ofResult (metadataU64 model splitNoKey)
  let index ← okOr index
    (.general (model.path ++ " is missing required " ++ splitNoKey ++ " metadata"))
  failIf (expectedCount ≤ index)
    (.general (model.path ++ s!" declares split.no={index} outside 0..{expectedCount}"))
  let a ← self
  let slot ← expect a.shards[index]? "index out of range"
  failIf slot.isSome (.general s!"duplicate GGUF shard index {index} in model set")
  let referenceName ← ofResult (agreeOn "general.name" index a.referenceName
    ((model.getMetadata "general.name").bind MetadataValue.asString))
  let referenceArchitecture ← ofResult (agreeOn "general.architecture" index
    a.referenceArchitecture
    ((model.getMetadata "general.architecture").bind MetadataValue.asString))
  modify fun a => { a with referenceName, referenceArchitecture }
  checkTensors model model.tensors
  let a ← self
  let totalTensors ← okOr (checkedAdd a.totalTensors model.tensors.length)
    (.general "GGUF tensor count overflow")
  modify fun a => { a with totalTensors, shards := a.shards.set index (some model) }

def placeShards (expectedCount : Nat) : List GgufModel → Assemble Unit
  | [] => pure ()
  | model :: models => do
    placeShard expectedCount model
    placeShards expectedCount models

/-- The loop over the slots. -/
def orderedFrom (expectedCount : Nat) : Nat → List (Option GgufModel) →
    Except GgufError (List GgufModel)
  | _, [] => .ok []
  | index, none :: _ =>
    .error (.general s!"missing GGUF shard index {index} of {expectedCount}")
  | index, some model :: slots =>
    match orderedFrom expectedCount (index + 1) slots with
    | .ok models => .ok (model :: models)
    | .error e => .error e

/-- `assemble_shards` behind its first loop. -/
def assemble (sourcePath : String) (expectedCount : Nat) (splitTensorCount : Option Nat)
    (candidates : List GgufModel) : Assemble GgufModelSet := do
  placeShards expectedCount candidates
  let a ← self
  let ordered ← ofResult (orderedFrom expectedCount 0 a.shards)
  failIf (∃ expected ∈ splitTensorCount, a.totalTensors ≠ expected)
    (.general (s!"split tensor count mismatch: shards contain {a.totalTensors} tensors, " ++
      s!"metadata declares {splitTensorCount.getD 0}"))
  match ordered with
  | [] => panic "index out of range"
  | zero :: rest =>
    failIf ((zero.getMetadata "general.architecture").bind MetadataValue.asString = none)
      (.general ("shard zero " ++ zero.path ++ " is missing general.architecture metadata"))
    return { path := sourcePath, shards := zero :: rest, nonempty := List.cons_ne_nil _ _ }

def assembleShards (sourcePath : String) (expectedCount : Nat) (candidates : List GgufModel) :
    Outcome GgufError GgufModelSet :=
  if candidates.length ≠ expectedCount then
    .err (.general s!"expected {expectedCount} GGUF shards, found {candidates.length}")
  else
    match agreedTensorCount none candidates with
    | .error e => .err e
    | .ok splitTensorCount =>
      (assemble sourcePath expectedCount splitTensorCount candidates
        { shards := List.replicate expectedCount none
          seenTensors := ∅
          totalTensors := 0
          referenceName := none
          referenceArchitecture := none }).1

end ModelSet
end Ramforge
