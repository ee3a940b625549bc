/-
The registry of resource records, and its snapshots.

A byte value is exact, estimated or unavailable, and a total keeps the three apart.
Storage, host RAM, device memory, mapped address space and an unknown domain are
separate keys of a snapshot.
-/
import Ramforge.Core.Model
import Ramforge.Rust.Exec
import Ramforge.Rust.Checked
import Ramforge.Rust.KeyMove

namespace Ramforge
namespace Resource

open Std Rust Rust.Exec

/-! ## Identifiers -/

inductive IdKind where
  | model
  | tensor
  | resource
  | allocation
  | device
  | backend

/-- What `define_string_id!` defines for each kind. -/
structure StringId (kind : IdKind) where
  value : String
deriving DecidableEq, Repr

abbrev ModelId := StringId .model
abbrev TensorId := StringId .tensor
abbrev ResourceId := StringId .resource
abbrev AllocationId := StringId .allocation
abbrev DeviceId := StringId .device
abbrev BackendId := StringId .backend

namespace StringId

variable {kind : IdKind}

instance : ToString (StringId kind) := ⟨StringId.value⟩

instance : Ord (StringId kind) := ⟨compareOn StringId.value⟩

instance : TransOrd (StringId kind) := inferInstanceAs (TransCmp (compareOn _))

instance : LawfulEqOrd (StringId kind) where
  eq_of_compare {a b} h := by
    cases a
    cases b
    exact congrArg _ (LawfulEqOrd.eq_of_compare (α := String) h)

end StringId

structure LayerId where
  index : Nat
deriving DecidableEq, Repr

inductive MemoryDomain where
  | storage
  | hostRam
  | device (id : DeviceId)
  | mappedVirtual
  | unknown
deriving DecidableEq, Repr

namespace MemoryDomain

def rank : MemoryDomain → Nat
  | .storage => 0
  | .hostRam => 1
  | .device _ => 2
  | .mappedVirtual => 3
  | .unknown => 4

def deviceName : MemoryDomain → String
  | .device id => id.value
  | _ => ""

instance : Ord MemoryDomain := ⟨orderBy rank deviceName⟩

instance : TransOrd MemoryDomain := inferInstanceAs (TransCmp (orderBy _ _))

instance : LawfulEqOrd MemoryDomain where
  eq_of_compare {a b} h := by
    obtain ⟨hrank, hname⟩ := orderBy_eq h
    cases a <;> cases b <;> first
      | rfl
      | exact congrArg (fun name : String => MemoryDomain.device ⟨name⟩) hname
      | exact absurd hrank (by simp [rank])

end MemoryDomain

inductive ResourceCategory where
  | weights
  | kvCache
  | activations
  | scratchWorkspace
  | staging
  | pinnedHost
  | mappedModelData
  | other (name : String)
deriving DecidableEq, Repr

namespace ResourceCategory

def rank : ResourceCategory → Nat
  | .weights => 0
  | .kvCache => 1
  | .activations => 2
  | .scratchWorkspace => 3
  | .staging => 4
  | .pinnedHost => 5
  | .mappedModelData => 6
  | .other _ => 7

def otherName : ResourceCategory → String
  | .other name => name
  | _ => ""

instance : Ord ResourceCategory := ⟨orderBy rank otherName⟩

instance : TransOrd ResourceCategory := inferInstanceAs (TransCmp (orderBy _ _))

instance : LawfulEqOrd ResourceCategory where
  eq_of_compare {a b} h := by
    obtain ⟨hrank, hname⟩ := orderBy_eq h
    cases a <;> cases b <;> first
      | rfl
      | exact congrArg ResourceCategory.other hname
      | exact absurd hrank (by simp [rank])

end ResourceCategory

inductive WeightScope where
  | embedding
  | layer (layer : LayerId)
  | output
  | other (name : String)
deriving DecidableEq, Repr

inductive ResourceKind where
  | modelMetadata
  | weight (scope : WeightScope)
  | kvCache
  | activation
  | scratchWorkspace
  | staging
  | pinnedHost
  | mappedModelData
  | other (name : String)
deriving DecidableEq, Repr

def ResourceKind.category : ResourceKind → ResourceCategory
  | .weight _ => .weights
  | .kvCache => .kvCache
  | .activation => .activations
  | .scratchWorkspace => .scratchWorkspace
  | .staging => .staging
  | .pinnedHost => .pinnedHost
  | .mappedModelData => .mappedModelData
  | .modelMetadata => .other "other"
  | .other _ => .other "other"

/-! ## Measurements and totals -/

inductive MeasurementProvenance where
  | ggufDescriptor
  | derivedFromGgufType
  | tensorDataRepresentation
  | runtimeMemoryBudget
  | runtimeAllocator
  | forgeCoreSafeApi
  | operatingSystem
  | plannerEstimate
  | callerProvided
  | derived (detail : String)
  | unavailable (reason : String)
deriving DecidableEq, Repr

def MeasurementProvenance.description : MeasurementProvenance → String
  | .ggufDescriptor => "GGUF tensor descriptor"
  | .derivedFromGgufType => "derived from GGUF shape and dtype"
  | .tensorDataRepresentation => "TensorData resident representation"
  | .runtimeMemoryBudget => "RAMforge MemoryBudget"
  | .runtimeAllocator => "runtime/backend allocator"
  | .forgeCoreSafeApi => "ForgeCore safe API"
  | .operatingSystem => "operating-system report"
  | .plannerEstimate => "planner estimate"
  | .callerProvided => "caller-provided measurement"
  | .derived detail => s!"derived: {detail}"
  | .unavailable reason => s!"unavailable: {reason}"

inductive MeasurementCertainty where
  | exact
  | estimated
  | unknown
deriving DecidableEq, Repr

/-- The fields are private, and each constructor keeps `known_iff`. -/
structure ByteMeasurement where
  bytes : Option Nat
  certainty : MeasurementCertainty
  provenance : MeasurementProvenance
  known_iff : bytes.isSome = true ↔ certainty ≠ .unknown
deriving DecidableEq

namespace ByteMeasurement

def exact (bytes : Nat) (provenance : MeasurementProvenance) : ByteMeasurement where
  bytes := some bytes
  certainty := .exact
  provenance := provenance
  known_iff := by simp

def estimated (bytes : Nat) (provenance : MeasurementProvenance) : ByteMeasurement where
  bytes := some bytes
  certainty := .estimated
  provenance := provenance
  known_iff := by simp

def unknownWithProvenance (provenance : MeasurementProvenance) : ByteMeasurement where
  bytes := none
  certainty := .unknown
  provenance := provenance
  known_iff := by simp

def unknown (reason : String) : ByteMeasurement := unknownWithProvenance (.unavailable reason)

end ByteMeasurement

inductive ResourceAccountingError where
  | duplicateResourceId (id : ResourceId)
  | duplicateAllocationId (id : AllocationId)
  | invalidResource (message : String)
  | arithmeticOverflow (label : String)
deriving DecidableEq, Repr

def ResourceAccountingError.display : ResourceAccountingError → String
  | .duplicateResourceId id => s!"duplicate resource ID: {id}"
  | .duplicateAllocationId id => s!"duplicate allocation ID: {id}"
  | .invalidResource message => s!"invalid resource: {message}"
  | .arithmeticOverflow label => s!"resource accounting arithmetic overflow: {label}"

structure ByteTotal where
  exactBytes : Nat
  estimatedBytes : Nat
  unknownContributions : Nat
  unknownReasons : List String
deriving DecidableEq, Repr

namespace ByteTotal

def default : ByteTotal :=
  { exactBytes := 0, estimatedBytes := 0, unknownContributions := 0, unknownReasons := [] }

def addMeasurement (total : ByteTotal) (measurement : ByteMeasurement) (label : String) :
    Except ResourceAccountingError ByteTotal :=
  match measurement.certainty, measurement.bytes with
  | .exact, some bytes =>
    match checkedAdd total.exactBytes bytes with
    | some exactBytes => .ok { total with exactBytes := exactBytes }
    | none => .error (.arithmeticOverflow label)
  | .estimated, some bytes =>
    match checkedAdd total.estimatedBytes bytes with
    | some estimatedBytes => .ok { total with estimatedBytes := estimatedBytes }
    | none => .error (.arithmeticOverflow label)
  | .unknown, none =>
    match checkedAdd total.unknownContributions 1 with
    | some contributions =>
      .ok
        { total with
          unknownContributions := contributions
          unknownReasons :=
            total.unknownReasons ++ [s!"{label} ({measurement.provenance.description})"] }
    | none => .error (.arithmeticOverflow label)
  -- a malformed measurement; the constructors build none
  | _, _ =>
    match checkedAdd total.unknownContributions 1 with
    | some contributions =>
      .ok
        { total with
          unknownContributions := contributions
          unknownReasons := total.unknownReasons ++ [s!"{label} (malformed measurement)"] }
    | none => .error (.arithmeticOverflow label)

end ByteTotal

/-! ## Records -/

structure FileBackedRange where
  modelId : ModelId
  path : String
  relativeOffset : Nat
  fileOffset : Nat
  byteLength : ByteMeasurement
deriving DecidableEq

structure GgufTensorMetadata where
  name : String
  dimensions : List Nat
  ggmlType : GgmlType
  numElements : Nat
  relativeOffset : Nat
  fileOffset : Nat
deriving DecidableEq

structure LogicalTensorProperties where
  tensorId : TensorId
  shape : List Nat
  ggmlType : GgmlType
  elementCount : Nat
  logicalBytes : ByteMeasurement
deriving DecidableEq

inductive ResourceOrigin where
  | ggufTensor (metadata : GgufTensorMetadata) (logical : LogicalTensorProperties)
      (fileRange : FileBackedRange)
  | runtime (description : String) (logicalBytes : ByteMeasurement)
  | unmeasured (reason : String)
deriving DecidableEq

namespace ResourceOrigin

def logicalBytes : ResourceOrigin → ByteMeasurement
  | .ggufTensor _ logical _ => logical.logicalBytes
  | .runtime _ logicalBytes => logicalBytes
  | .unmeasured reason => ByteMeasurement.unknown reason

def fileRange : ResourceOrigin → Option FileBackedRange
  | .ggufTensor _ _ fileRange => some fileRange
  | .runtime _ _ => none
  | .unmeasured _ => none

end ResourceOrigin

structure ResourceOwner where
  modelId : Option ModelId
  layerId : Option LayerId
  tensorId : Option TensorId
deriving DecidableEq

structure AllocationRecord where
  id : AllocationId
  domain : MemoryDomain
  backend : Option BackendId
  requestedBytes : ByteMeasurement
  actualBytes : ByteMeasurement
  alignmentBytes : Option Nat
  alignmentPaddingBytes : ByteMeasurement
  residentBytes : ByteMeasurement
deriving DecidableEq

structure ResourceRecord where
  id : ResourceId
  owner : ResourceOwner
  kind : ResourceKind
  sourceDomain : MemoryDomain
  origin : ResourceOrigin
  allocation : Option AllocationRecord
deriving DecidableEq

structure ResourceBudgets where
  hostRam : ByteMeasurement
  deviceVram : ExtTreeMap DeviceId ByteMeasurement

/-! ## The registry -/

structure ResourceAccounting where
  budgets : ResourceBudgets
  resources : ExtTreeMap ResourceId ResourceRecord
  allocationOwners : ExtTreeMap AllocationId ResourceId

structure ResourceAccountingSnapshot where
  resourceCount : Nat
  resourceIds : List ResourceId
  budgets : ResourceBudgets
  logicalModelBytes : ByteTotal
  fileBackedBytes : ByteTotal
  fileBackedBytesByDomain : ExtTreeMap MemoryDomain ByteTotal
  requestedAllocationBytes : ExtTreeMap MemoryDomain ByteTotal
  actualAllocationBytes : ExtTreeMap MemoryDomain ByteTotal
  alignmentPaddingBytes : ExtTreeMap MemoryDomain ByteTotal
  residentBytes : ExtTreeMap MemoryDomain ByteTotal
  actualByCategoryAndDomain : ExtTreeMap (MemoryDomain × ResourceCategory) ByteTotal pairOrder

def addTotal {κ : Type} {cmp : κ → κ → Ordering} [TransCmp cmp] (map : ExtTreeMap κ ByteTotal cmp)
    (key : κ) (measurement : ByteMeasurement) (label : String) :
    Except ResourceAccountingError (ExtTreeMap κ ByteTotal cmp) := do
  let total ← (map[key]?.getD ByteTotal.default).addMeasurement measurement label
  pure (map.insert key total)

/-- One round of the loop of `snapshot`. -/
def addRecord (snapshot : ResourceAccountingSnapshot) (record : ResourceRecord) :
    Except ResourceAccountingError ResourceAccountingSnapshot := do
  let logicalModelBytes ←
    if record.kind.category = .weights then
      snapshot.logicalModelBytes.addMeasurement record.origin.logicalBytes
        s!"logical model tensor '{record.id}'"
    else pure snapshot.logicalModelBytes
  let (fileBackedBytes, fileBackedBytesByDomain) ←
    match record.origin.fileRange with
    | some fileRange => do
      let fileBackedBytes ← snapshot.fileBackedBytes.addMeasurement fileRange.byteLength
        s!"file-backed range '{record.id}'"
      let byDomain ← addTotal snapshot.fileBackedBytesByDomain .storage fileRange.byteLength
        s!"storage range '{record.id}'"
      pure (fileBackedBytes, byDomain)
    | none => pure (snapshot.fileBackedBytes, snapshot.fileBackedBytesByDomain)
  let snapshot :=
    { snapshot with
      logicalModelBytes := logicalModelBytes
      fileBackedBytes := fileBackedBytes
      fileBackedBytesByDomain := fileBackedBytesByDomain }
  match record.allocation with
  | none => pure snapshot
  | some allocation => do
    let requested ← addTotal snapshot.requestedAllocationBytes allocation.domain
      allocation.requestedBytes s!"requested allocation '{record.id}'"
    let actual ← addTotal snapshot.actualAllocationBytes allocation.domain
      allocation.actualBytes s!"actual allocation '{record.id}'"
    let padding ← addTotal snapshot.alignmentPaddingBytes allocation.domain
      allocation.alignmentPaddingBytes s!"allocation padding '{record.id}'"
    let resident ← addTotal snapshot.residentBytes allocation.domain
      allocation.residentBytes s!"resident allocation '{record.id}'"
    let byCategory ← addTotal snapshot.actualByCategoryAndDomain
      (allocation.domain, record.kind.category) allocation.actualBytes
      s!"category allocation '{record.id}'"
    pure
      { snapshot with
        requestedAllocationBytes := requested
        actualAllocationBytes := actual
        alignmentPaddingBytes := padding
        residentBytes := resident
        actualByCategoryAndDomain := byCategory }

namespace ResourceAccounting

def new (budgets : ResourceBudgets) : ResourceAccounting :=
  { budgets := budgets, resources := ∅, allocationOwners := ∅ }

/-- `records()`, in the order of the ids. -/
def records (accounting : ResourceAccounting) : List ResourceRecord :=
  accounting.resources.toList.map Prod.snd

def emptySnapshot (accounting : ResourceAccounting) : ResourceAccountingSnapshot where
  resourceCount := accounting.resources.size
  resourceIds := accounting.resources.toList.map Prod.fst
  budgets := accounting.budgets
  logicalModelBytes := ByteTotal.default
  fileBackedBytes := ByteTotal.default
  fileBackedBytesByDomain := ∅
  requestedAllocationBytes := ∅
  actualAllocationBytes := ∅
  alignmentPaddingBytes := ∅
  residentBytes := ∅
  actualByCategoryAndDomain := ∅

def snapshot (accounting : ResourceAccounting) :
    Except ResourceAccountingError ResourceAccountingSnapshot :=
  accounting.records.foldlM addRecord accounting.emptySnapshot

def insert (record : ResourceRecord) : Exec ResourceAccounting ResourceAccountingError Unit := do
  failIf (record.id.value = "") (.invalidResource "resource ID must not be empty")
  let accounting ← self
  failIf (accounting.resources[record.id]?.isSome) (.duplicateResourceId record.id)
  match record.allocation with
  | some allocation => do
    failIf (allocation.id.value = "") (.invalidResource "allocation ID must not be empty")
    failIf (accounting.allocationOwners[allocation.id]?.isSome) (.duplicateAllocationId allocation.id)
  | none => pure ()
  match record.allocation with
  | some allocation =>
    modify fun accounting =>
      { accounting with
        allocationOwners := accounting.allocationOwners.insert allocation.id record.id }
  | none => pure ()
  modify fun accounting =>
    { accounting with resources := accounting.resources.insert record.id record }

def remove (id : ResourceId) :
    Exec ResourceAccounting ResourceAccountingError (Option ResourceRecord) := do
  let accounting ← self
  match accounting.resources[id]? with
  | none => pure none
  | some record => do
    modify fun accounting => { accounting with resources := accounting.resources.erase id }
    match record.allocation with
    | some allocation =>
      modify fun accounting =>
        { accounting with allocationOwners := accounting.allocationOwners.erase allocation.id }
    | none => pure ()
    pure (some record)

def get (accounting : ResourceAccounting) (id : ResourceId) : Option ResourceRecord :=
  accounting.resources[id]?

end ResourceAccounting
end Resource
end Ramforge
