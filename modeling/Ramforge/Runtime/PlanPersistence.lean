/-
Execution plans as bytes: a positional encoding behind a magic number, and the
checks on both sides of it.

`PlanReader` reads a slice through a position, and the `put` functions append to a
vector.
-/
import Ramforge.Runtime.PlanCompiler
import Ramforge.Rust.Codec

namespace Ramforge
namespace Planner

open Std Rust

def persistedExecutionPlanSchemaVersion : Nat := 1

/-- `b"RAMFPLN\0"`. -/
def persistedPlanMagic : List UInt8 := [0x52, 0x41, 0x4D, 0x46, 0x50, 0x4C, 0x4E, 0x00]

def maxPersistedPlanBytes : Nat := 1024 * 1024

def maxStringBytes : Nat := 64 * 1024

def maxListItems : Nat := 1024

inductive PlanPersistenceError where
  | tooLarge (bytes maximum : Nat)
  | invalidMagic
  | unsupportedPersistenceSchema (found supported : Nat)
  | truncated (field : String)
  | trailingBytes (bytes : Nat)
  | invalidBoolean (field : String) (value : UInt8)
  | invalidEnum (field : String) (value : UInt8)
  | invalidUtf8 (field : String)
  | limitExceeded (field : String) (value maximum : Nat)
  | numericOverflow (field : String)
  | invalidPlan (field : String)
deriving DecidableEq, Repr

inductive PersistedPlanValidationError where
  | persistence (error : PlanPersistenceError)
  | compilation (error : PlanCompilationError)
deriving DecidableEq, Repr

structure PersistedExecutionPlan where
  persistenceSchemaVersion : Nat
  executionSchemaVersion : Nat
  plannerRulesetVersion : Nat
  modelDescriptorFingerprint : UInt64
  sourceMachineFingerprint : UInt64
  sourceStorageFingerprint : UInt64
  mode : OperatingMode
  strategy : StrategyId
  ramBudgetBytes : Nat
  cpuThreadCount : Nat
  layerCache : LayerCacheDecision
  io : IoDecision
  gpu : GpuDecision
  reservations : ResourceReservations
  cost : CostEstimate
  calibration : CalibrationProvenance
  reasons : List PlanReason
deriving DecidableEq, Repr

/-! ## Tags -/

def encodeMode : OperatingMode → UInt8
  | .backgroundConstrained => 0
  | .balancedNormal => 1
  | .maximumPerformance => 2
  | .advanced => 3

def decodeMode (value : UInt8) : Except PlanPersistenceError OperatingMode :=
  if value = 0 then .ok .backgroundConstrained
  else if value = 1 then .ok .balancedNormal
  else if value = 2 then .ok .maximumPerformance
  else if value = 3 then .ok .advanced
  else .error (.invalidEnum "operating mode" value)

def encodeStrategy : StrategyId → UInt8
  | .cpuLayerStreaming => 0
  | .gpuLayerOffload => 1

def decodeStrategy (value : UInt8) : Except PlanPersistenceError StrategyId :=
  if value = 0 then .ok .cpuLayerStreaming
  else if value = 1 then .ok .gpuLayerOffload
  else .error (.invalidEnum "execution strategy" value)

def encodeGpuPreference : GpuPreference → UInt8
  | .disabled => 0
  | .prefer => 1
  | .require => 2

def decodeGpuPreference (value : UInt8) : Except PlanPersistenceError GpuPreference :=
  if value = 0 then .ok .disabled
  else if value = 1 then .ok .prefer
  else if value = 2 then .ok .require
  else .error (.invalidEnum "GPU preference" value)

def encodeReason : PlanReasonCode → UInt8
  | .userRamBudgetPreserved => 0
  | .threadCountSelectedByPreset => 1
  | .threadCountSelectedByAdvancedOverride => 2
  | .cpuStrategySelected => 3
  | .gpuStrategySelected => 4
  | .gpuDisabledByUser => 5
  | .gpuUnavailable => 6
  | .layerCacheEnabledWithinStaticCapacity => 7
  | .layerCacheDisabledByPreset => 8
  | .layerCacheDisabledBecauseNoCompleteLayerFits => 9
  | .readCoalescingEnabled => 10
  | .readCoalescingDisabled => 11
  | .groupedReadBufferReuseEnabled => 12
  | .groupedReadBufferReuseDisabled => 13
  | .calibrationObservationsApplied => 14
  | .calibrationNotRequested => 15
  | .calibrationNotApplicable => 16

def decodeReason (value : UInt8) : Except PlanPersistenceError PlanReasonCode :=
  if value = 0 then .ok .userRamBudgetPreserved
  else if value = 1 then .ok .threadCountSelectedByPreset
  else if value = 2 then .ok .threadCountSelectedByAdvancedOverride
  else if value = 3 then .ok .cpuStrategySelected
  else if value = 4 then .ok .gpuStrategySelected
  else if value = 5 then .ok .gpuDisabledByUser
  else if value = 6 then .ok .gpuUnavailable
  else if value = 7 then .ok .layerCacheEnabledWithinStaticCapacity
  else if value = 8 then .ok .layerCacheDisabledByPreset
  else if value = 9 then .ok .layerCacheDisabledBecauseNoCompleteLayerFits
  else if value = 10 then .ok .readCoalescingEnabled
  else if value = 11 then .ok .readCoalescingDisabled
  else if value = 12 then .ok .groupedReadBufferReuseEnabled
  else if value = 13 then .ok .groupedReadBufferReuseDisabled
  else if value = 14 then .ok .calibrationObservationsApplied
  else if value = 15 then .ok .calibrationNotRequested
  else if value = 16 then .ok .calibrationNotApplicable
  else .error (.invalidEnum "plan reason code" value)

/-! ## Appending -/

abbrev Put : Type := Exec (List UInt8) PlanPersistenceError Unit

section put

open Exec

def putU8 (value : UInt8) : Put := extendFromSlice [value]

def putU32 (value : Nat) : Put := extendFromSlice (LittleEndian.toBytes 4 value)

def putU64 (value : Nat) : Put := extendFromSlice (LittleEndian.toBytes 8 value)

/-- `put_u64` of a value that is a `UInt64` here. -/
def putFingerprint (value : UInt64) : Put := putU64 value.toNat

def putBool (value : Bool) : Put := putU8 value.toUInt8

def putOptionalU32 : Option Nat → Put := Codec.putOption putBool putU32

def putOptionalU64 : Option Nat → Put := Codec.putOption putBool putU64

def putString (field value : String) : Put := do
  failIf (maxStringBytes < value.utf8ByteSize)
    (.limitExceeded field value.utf8ByteSize maxStringBytes)
  putU32 value.utf8ByteSize
  extendFromSlice value.toByteArray.data.toList

def putOptionalString (field : String) : Option String → Put :=
  Codec.putOption putBool (putString field)

def putListCount (field : String) (count : Nat) : Put := do
  failIf (maxListItems < count) (.limitExceeded field count maxListItems)
  putU32 count

def putStringList (field : String) (values : List String) : Put := do
  putListCount field values.length
  Codec.putAll (putString field) values

def putLayerCache (layerCache : LayerCacheDecision) : Put := do
  putBool layerCache.enabled
  putU64 layerCache.capacityBytes

def putIo (io : IoDecision) : Put := do
  putBool io.readCoalescingEnabled
  putBool io.groupedReadBufferReuseEnabled

def putGpu (gpu : GpuDecision) : Put := do
  putU8 (encodeGpuPreference gpu.preference)
  putBool gpu.enabled
  putOptionalString "GPU device identifier" gpu.selectedDeviceId

def putReservations (reservations : ResourceReservations) : Put := do
  putU64 reservations.availableRamBytesAtPlanning
  putU64 reservations.persistentResidentBytes
  putU64 reservations.persistentStartupPeakBytes
  putU64 reservations.largestLayerLoadPeakBytes
  putU64 reservations.managedLowerBoundBytes
  putU64 reservations.remainingBudgetAfterLowerBoundBytes

def putCost (cost : CostEstimate) : Put := do
  putU64 cost.physicalReadBytesPerForward
  putOptionalU64 cost.calibratedReadTimeNsPerForward
  putOptionalU64 cost.observedStrategyLatencyNs

def putCalibration (calibration : CalibrationProvenance) : Put := do
  putOptionalString "calibration identifier" calibration.calibrationIdentifier
  putOptionalString "calibration plan identifier" calibration.calibrationPlanIdentifier
  putOptionalU32 calibration.calibrationPlanVersion
  putOptionalU32 calibration.calibrationRulesetVersion
  putStringList "calibration observation identifiers" calibration.observationIdentifiers

def putReason (reason : PlanReason) : Put := do
  putU8 (encodeReason reason.code)
  putOptionalU64 reason.value

def putReasons (reasons : List PlanReason) : Put := do
  putListCount "plan reasons" reasons.length
  Codec.putAll putReason reasons

/-- The fields of a plan, in the order of the encoding. -/
def putPlan (plan : PersistedExecutionPlan) : Put := do
  extendFromSlice persistedPlanMagic
  putU32 plan.persistenceSchemaVersion
  putU32 plan.executionSchemaVersion
  putU32 plan.plannerRulesetVersion
  putFingerprint plan.modelDescriptorFingerprint
  putFingerprint plan.sourceMachineFingerprint
  putFingerprint plan.sourceStorageFingerprint
  putU8 (encodeMode plan.mode)
  putU8 (encodeStrategy plan.strategy)
  putU64 plan.ramBudgetBytes
  putU64 plan.cpuThreadCount
  putLayerCache plan.layerCache
  putIo plan.io
  putGpu plan.gpu
  putReservations plan.reservations
  putCost plan.cost
  putCalibration plan.calibration
  putReasons plan.reasons

end put

/-! ## Reading -/

/-- A slice has less than `isizeBound` bytes, and the position stays inside it. -/
structure PlanReader where
  bytes : List UInt8
  position : Nat
  position_le : position ≤ bytes.length
  length_lt : bytes.length < isizeBound

namespace PlanReader

open Exec

abbrev Read (α : Type) : Type := Exec PlanReader PlanPersistenceError α

def new (bytes : List UInt8) (h : bytes.length < isizeBound) : PlanReader where
  bytes := bytes
  position := 0
  position_le := Nat.zero_le _
  length_lt := h

def remaining (reader : PlanReader) : Nat := saturatingSub reader.bytes.length reader.position

def take (length : Nat) (field : String) : Read (List UInt8) := fun reader =>
  match checkedAdd reader.position length with
  | none => (.err (.numericOverflow "persisted plan cursor"), reader)
  | some stop =>
    if h : stop ≤ reader.bytes.length then
      (.ok ((reader.bytes.drop reader.position).take (stop - reader.position)),
        { reader with position := stop, position_le := h })
    else (.err (.truncated field), reader)

def u8 (field : String) : Read UInt8 := do
  let bytes ← take 1 field
  expect bytes[0]? "index out of bounds"

/-- `try_into` of a slice into an array of `width` bytes, and the number in it. -/
def fromLeBytes (width : Nat) (message : String) (bytes : List UInt8) : Read Nat :=
  expect (if bytes.length = width then some (LittleEndian.ofBytes bytes) else none) message

def u32 (field : String) : Read Nat := do
  let bytes ← take 4 field
  fromLeBytes 4 "four-byte slice validated above" bytes

def u64 (field : String) : Read Nat := do
  let bytes ← take 8 field
  fromLeBytes 8 "eight-byte slice validated above" bytes

def fingerprint (field : String) : Read UInt64 := do
  let value ← u64 field
  return UInt64.ofNat value

/-- The check of `boolean`. -/
def decodeBool (field : String) (value : UInt8) : Except PlanPersistenceError Bool :=
  if value = 0 then .ok false
  else if value = 1 then .ok true
  else .error (.invalidBoolean field value)

def boolean (field : String) : Read Bool := do
  let value ← u8 field
  ofResult (decodeBool field value)

def optionalU32 (field : String) : Read (Option Nat) := Codec.getOption (boolean field) (u32 field)

def optionalU64 (field : String) : Read (Option Nat) := Codec.getOption (boolean field) (u64 field)

def string (field : String) : Read String := do
  let length ← u32 field
  failIf (maxStringBytes < length) (.limitExceeded field length maxStringBytes)
  let bytes ← take length field
  okOr (String.fromUTF8? ⟨bytes.toArray⟩) (.invalidUtf8 field)

def optionalString (field : String) : Read (Option String) :=
  Codec.getOption (boolean field) (string field)

def listCount (field : String) : Read Nat := do
  let count ← u32 field
  failIf (maxListItems < count) (.limitExceeded field count maxListItems)
  return count

def stringList (field : String) : Read (List String) := do
  let count ← listCount field
  Codec.times (string field) count

def mode : Read OperatingMode := do
  let value ← u8 "operating mode"
  ofResult (decodeMode value)

def strategy : Read StrategyId := do
  let value ← u8 "execution strategy"
  ofResult (decodeStrategy value)

def gpuPreference : Read GpuPreference := do
  let value ← u8 "GPU preference"
  ofResult (decodeGpuPreference value)

def reasonCode : Read PlanReasonCode := do
  let value ← u8 "plan reason code"
  ofResult (decodeReason value)

def layerCache : Read LayerCacheDecision := do
  let enabled ← boolean "layer cache enabled"
  let capacityBytes ← u64 "layer cache capacity"
  return { enabled, capacityBytes }

def io : Read IoDecision := do
  let readCoalescingEnabled ← boolean "read coalescing enabled"
  let groupedReadBufferReuseEnabled ← boolean "grouped read buffer reuse enabled"
  return { readCoalescingEnabled, groupedReadBufferReuseEnabled }

def gpu : Read GpuDecision := do
  let preference ← gpuPreference
  let enabled ← boolean "GPU enabled"
  let selectedDeviceId ← optionalString "GPU device identifier"
  return { preference, enabled, selectedDeviceId }

def reservations : Read ResourceReservations := do
  let availableRamBytesAtPlanning ← u64 "available RAM at planning"
  let persistentResidentBytes ← u64 "persistent resident bytes"
  let persistentStartupPeakBytes ← u64 "persistent startup peak bytes"
  let largestLayerLoadPeakBytes ← u64 "largest layer load peak bytes"
  let managedLowerBoundBytes ← u64 "managed-memory lower bound"
  let remainingBudgetAfterLowerBoundBytes ← u64 "remaining budget after lower bound"
  return { availableRamBytesAtPlanning, persistentResidentBytes, persistentStartupPeakBytes,
           largestLayerLoadPeakBytes, managedLowerBoundBytes, remainingBudgetAfterLowerBoundBytes }

def cost : Read CostEstimate := do
  let physicalReadBytesPerForward ← u64 "physical read bytes per forward"
  let calibratedReadTimeNsPerForward ← optionalU64 "calibrated read time"
  let observedStrategyLatencyNs ← optionalU64 "observed strategy latency"
  return { physicalReadBytesPerForward, calibratedReadTimeNsPerForward, observedStrategyLatencyNs }

def calibration : Read CalibrationProvenance := do
  let calibrationIdentifier ← optionalString "calibration identifier"
  let calibrationPlanIdentifier ← optionalString "calibration plan identifier"
  let calibrationPlanVersion ← optionalU32 "calibration plan version"
  let calibrationRulesetVersion ← optionalU32 "calibration ruleset version"
  let observationIdentifiers ← stringList "calibration observation identifiers"
  return { calibrationIdentifier, calibrationPlanIdentifier, calibrationPlanVersion,
           calibrationRulesetVersion, observationIdentifiers }

def reason : Read PlanReason := do
  let code ← reasonCode
  let value ← optionalU64 "plan reason value"
  return { code, value }

def reasons : Read (List PlanReason) := do
  let count ← listCount "plan reasons"
  Codec.times reason count

/-- The fields of a plan, in the order of the encoding. -/
def plan : Read PersistedExecutionPlan := do
  let magic ← take persistedPlanMagic.length "magic"
  failIf (magic ≠ persistedPlanMagic) .invalidMagic
  let persistenceSchemaVersion ← u32 "persistence schema version"
  failIf (persistenceSchemaVersion ≠ persistedExecutionPlanSchemaVersion)
    (.unsupportedPersistenceSchema persistenceSchemaVersion persistedExecutionPlanSchemaVersion)
  let executionSchemaVersion ← u32 "execution schema version"
  let plannerRulesetVersion ← u32 "planner ruleset version"
  let modelDescriptorFingerprint ← fingerprint "model fingerprint"
  let sourceMachineFingerprint ← fingerprint "source machine fingerprint"
  let sourceStorageFingerprint ← fingerprint "source storage fingerprint"
  let mode ← mode
  let strategy ← strategy
  let ramBudgetBytes ← u64 "RAM budget"
  let cpuThreadCount ← u64 "CPU thread count"
  let layerCache ← layerCache
  let io ← io
  let gpu ← gpu
  let reservations ← reservations
  let cost ← cost
  let calibration ← calibration
  let reasons ← reasons
  return {
    persistenceSchemaVersion, executionSchemaVersion, plannerRulesetVersion
    modelDescriptorFingerprint, sourceMachineFingerprint, sourceStorageFingerprint
    mode, strategy, ramBudgetBytes, cpuThreadCount, layerCache, io, gpu, reservations, cost
    calibration, reasons }

end PlanReader

/-! ## Checks -/

namespace PersistedExecutionPlan

open Outcome

/-- The loop over the observation identifiers; `seen` are those before. -/
def validateIdentifiers : List String → List String → Outcome PlanPersistenceError Unit
  | [], _ => pure ()
  | identifier :: rest, seen => do
    failIf (identifier = "" ∨ maxStringBytes < identifier.utf8ByteSize)
      (.invalidPlan "invalid calibration observation identifier")
    failIf (identifier ∈ seen) (.invalidPlan "duplicate calibration observation identifier")
    validateIdentifiers rest (seen ++ [identifier])

def identifierInvalid (identifier : Option String) : Bool :=
  identifier.any fun identifier => identifier = "" || maxStringBytes < identifier.utf8ByteSize

def headerFields (calibration : CalibrationProvenance) : List Bool :=
  [calibration.calibrationIdentifier.isSome, calibration.calibrationPlanIdentifier.isSome,
    calibration.calibrationPlanVersion.isSome, calibration.calibrationRulesetVersion.isSome]

def validateCalibrationProvenance (plan : PersistedExecutionPlan) :
    Outcome PlanPersistenceError Unit := do
  let calibration := plan.calibration
  let headerPresent := (headerFields calibration).any id
  failIf (headerPresent ∧ ¬(headerFields calibration).all id)
    (.invalidPlan "partial calibration provenance")
  failIf (identifierInvalid calibration.calibrationIdentifier ∨
      identifierInvalid calibration.calibrationPlanIdentifier ∨
      calibration.calibrationPlanVersion = some 0 ∨
      calibration.calibrationRulesetVersion = some 0)
    (.invalidPlan "invalid calibration provenance")
  failIf (¬headerPresent ∧ calibration.observationIdentifiers ≠ [])
    (.invalidPlan "calibration observations without provenance")
  failIf (maxListItems < calibration.observationIdentifiers.length)
    (.limitExceeded "calibration observation count" calibration.observationIdentifiers.length
      maxListItems)
  validateIdentifiers calibration.observationIdentifiers []

/-- The loop over the reasons: the codes before, and the calibration reason among them. -/
def validateReasonCodes : List PlanReason → List PlanReasonCode → Option PlanReasonCode →
    Outcome PlanPersistenceError (Option PlanReasonCode)
  | [], _, calibrationReason => pure calibrationReason
  | reason :: rest, codes, calibrationReason => do
    failIf (reason.code ∈ codes) (.invalidPlan "duplicate plan reason code")
    let codes := codes ++ [reason.code]
    match reason.code with
    | .calibrationObservationsApplied | .calibrationNotRequested | .calibrationNotApplicable => do
      failIf calibrationReason.isSome (.invalidPlan "multiple calibration reason codes")
      validateReasonCodes rest codes (some reason.code)
    | _ => validateReasonCodes rest codes calibrationReason

def validateReasons (plan : PersistedExecutionPlan) : Outcome PlanPersistenceError Unit := do
  failIf (plan.reasons = [] ∨ maxListItems < plan.reasons.length)
    (.invalidPlan "missing or excessive plan reasons")
  let found ← validateReasonCodes plan.reasons [] none
  let calibrationReason ← okOr found (.invalidPlan "missing calibration reason code")
  let headerPresent := plan.calibration.calibrationIdentifier.isSome
  let observationsPresent := !plan.calibration.observationIdentifiers.isEmpty
  let valid : Bool :=
    match calibrationReason with
    | .calibrationNotRequested => !headerPresent && !observationsPresent
    | .calibrationNotApplicable => !observationsPresent
    | .calibrationObservationsApplied => headerPresent && observationsPresent
    | _ => false
  failIf (¬valid) (.invalidPlan "calibration reason/provenance mismatch")

def materialize (plan : PersistedExecutionPlan) (machineFingerprint storageFingerprint : UInt64)
    (modelPath : String) (availableRamBytes : Option Nat) : ExecutionPlan where
  schemaVersion := plan.executionSchemaVersion
  rulesetVersion := plan.plannerRulesetVersion
  binding :=
    { modelDescriptorFingerprint := plan.modelDescriptorFingerprint
      machineFingerprint := machineFingerprint
      storageFingerprint := storageFingerprint
      modelPath := modelPath }
  mode := plan.mode
  strategy := plan.strategy
  ramBudgetBytes := plan.ramBudgetBytes
  cpuThreadCount := plan.cpuThreadCount
  layerCache := plan.layerCache
  io := plan.io
  gpu := plan.gpu
  reservations :=
    { plan.reservations with
      availableRamBytesAtPlanning :=
        availableRamBytes.getD plan.reservations.availableRamBytesAtPlanning }
  cost := plan.cost
  calibration := plan.calibration
  reasons := plan.reasons

def materializeForContext (plan : PersistedExecutionPlan) (context : PlanCompilationContext) :
    ExecutionPlan :=
  plan.materialize context.machine.fingerprint context.storage.fingerprint context.storage.modelPath
    context.machine.availableRamBytes

/-- A GPU plan is well formed, though nothing executes it. -/
def acceptDecisions : Outcome PlanCompilationError Unit → Outcome PlanPersistenceError Unit
  | .ok _ | .err .unsupportedGpuExecution => pure ()
  | .err _ => .err (.invalidPlan "inconsistent concrete execution decisions")
  | .panic p => .panic p

def validateStructure (plan : PersistedExecutionPlan) : Outcome PlanPersistenceError Unit := do
  failIf (plan.persistenceSchemaVersion ≠ persistedExecutionPlanSchemaVersion)
    (.unsupportedPersistenceSchema plan.persistenceSchemaVersion persistedExecutionPlanSchemaVersion)
  failIf (plan.executionSchemaVersion = 0) (.invalidPlan "missing execution schema version")
  failIf (plan.plannerRulesetVersion = 0) (.invalidPlan "missing planner ruleset version")
  failIf (plan.modelDescriptorFingerprint = 0 ∨ plan.sourceMachineFingerprint = 0 ∨
      plan.sourceStorageFingerprint = 0)
    (.invalidPlan "missing or invalid fingerprint")
  failIf (plan.reservations.availableRamBytesAtPlanning < plan.ramBudgetBytes)
    (.invalidPlan "available RAM at planning")
  let remaining ← okOr (checkedSub plan.ramBudgetBytes plan.reservations.managedLowerBoundBytes)
    (.invalidPlan "managed-memory lower bound exceeds RAM budget")
  failIf (plan.reservations.remainingBudgetAfterLowerBoundBytes ≠ remaining)
    (.invalidPlan "remaining budget after lower bound")
  failIf (remaining < plan.layerCache.capacityBytes)
    (.invalidPlan "layer-cache capacity exceeds remaining budget")
  failIf (plan.gpu.selectedDeviceId = some "") (.invalidPlan "empty GPU device identifier")
  plan.validateCalibrationProvenance
  plan.validateReasons
  let sourcePlan := plan.materialize plan.sourceMachineFingerprint plan.sourceStorageFingerprint ""
    none
  acceptDecisions (PlanCompiler.validateConcreteDecisions sourcePlan)

/-! ## Plans out of bytes, and into them -/

def fromExecutionPlan (plan : ExecutionPlan) :
    Outcome PlanPersistenceError PersistedExecutionPlan := do
  let persisted : PersistedExecutionPlan :=
    { persistenceSchemaVersion := persistedExecutionPlanSchemaVersion
      executionSchemaVersion := plan.schemaVersion
      plannerRulesetVersion := plan.rulesetVersion
      modelDescriptorFingerprint := plan.binding.modelDescriptorFingerprint
      sourceMachineFingerprint := plan.binding.machineFingerprint
      sourceStorageFingerprint := plan.binding.storageFingerprint
      mode := plan.mode
      strategy := plan.strategy
      ramBudgetBytes := plan.ramBudgetBytes
      cpuThreadCount := plan.cpuThreadCount
      layerCache := plan.layerCache
      io := plan.io
      gpu := plan.gpu
      reservations := plan.reservations
      cost := plan.cost
      calibration := plan.calibration
      reasons := plan.reasons }
  persisted.validateStructure
  pure persisted

def encodeUnchecked (plan : PersistedExecutionPlan) : Outcome PlanPersistenceError (List UInt8) :=
  match putPlan plan [] with
  | (.ok _, bytes) => do
    failIf (maxPersistedPlanBytes < bytes.length) (.tooLarge bytes.length maxPersistedPlanBytes)
    pure bytes
  | (.err error, _) => .err error
  | (.panic p, _) => .panic p

def toBytes (plan : PersistedExecutionPlan) : Outcome PlanPersistenceError (List UInt8) := do
  plan.validateStructure
  plan.encodeUnchecked

theorem lt_isizeBound_of_le {bytes : List UInt8} (h : ¬maxPersistedPlanBytes < bytes.length) :
    bytes.length < isizeBound :=
  Nat.lt_of_le_of_lt (Nat.not_lt.mp h) (by decide)

def fromBytes (bytes : List UInt8) : Outcome PlanPersistenceError PersistedExecutionPlan :=
  if h : maxPersistedPlanBytes < bytes.length then
    .err (.tooLarge bytes.length maxPersistedPlanBytes)
  else
    match PlanReader.plan (PlanReader.new bytes (lt_isizeBound_of_le h)) with
    | (.ok persisted, reader) => do
      failIf (reader.remaining ≠ 0) (.trailingBytes reader.remaining)
      persisted.validateStructure
      pure persisted
    | (.err error, _) => .err error
    | (.panic p, _) => .panic p

def compileRuntimeConfig (plan : PersistedExecutionPlan) (context : PlanCompilationContext) :
    Outcome PersistedPlanValidationError RuntimeConfig := do
  plan.validateStructure.mapErr .persistence
  failIf (plan.modelDescriptorFingerprint ≠ context.model.identity.descriptorFingerprint)
    (.persistence (.invalidPlan "model fingerprint mismatch"))
  let candidate := plan.materializeForContext context
  (PlanCompiler.compile candidate context).mapErr .compilation

end PersistedExecutionPlan
end Planner
end Ramforge
