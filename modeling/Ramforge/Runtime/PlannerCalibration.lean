/-
The planner's inputs: profiles of the user, the machine, the model and the storage.

A profile is data from outside, so each one has a `validate`.  Fingerprints are
FNV-1a over the fields, strings with their length in front.
-/
import Std.Data.ExtTreeSet.Lemmas
import Ramforge.Core.Memory
import Ramforge.Rust.Call
import Ramforge.Rust.Checked
import Ramforge.Rust.KeyMove
import Ramforge.Rust.LittleEndian

namespace Ramforge
namespace Planner

open Std Rust Rust.Outcome

def profileSchemaVersion : Nat := 2

/-! ## Errors -/

inductive FeasibilityRejection where
  | advancedOverrideRequiresAdvancedMode
  | ramBudgetExceedsTotalRam
  | ramBudgetExceedsAvailableRam
  | storageNotUsable
  | storageModelSizeMismatch
  | machineMemoryUnavailable
  | cpuBackendUnavailable
  | modelNotExecutable
  | executionPreflightUnavailable
  | staticPlanDoesNotMatchProfiles
  | managedMemoryLowerBoundExceedsBudget
  | gpuRequiredButUnavailable
  | requestedThreadCountUnavailable
  | layerCacheRequiredButUnavailable
  | layerCacheCapacityExceedsStaticCapacity
  | layerCacheCapacityCannotFitCompleteLayer
  | readCoalescingRequiredButUnavailable
  | groupedReadBufferReuseRequiredButUnavailable
deriving DecidableEq, Repr

inductive PlannerError where
  | invalidProfile (profile field : String)
  | infeasible (reason : FeasibilityRejection)
deriving DecidableEq, Repr

def PlannerError.invalid (profile field : String) : PlannerError := .invalidProfile profile field

/-! ## Fingerprints -/

def fingerprintStart : UInt64 := 0xcbf29ce484222325

def fingerprintByte (hash : UInt64) (byte : UInt8) : UInt64 :=
  (hash ^^^ byte.toUInt64) * 0x100000001b3

def fingerprintU64 (hash : UInt64) (value : Nat) : UInt64 :=
  (LittleEndian.toBytes 8 value).foldl fingerprintByte hash

def fingerprintStr (hash : UInt64) (value : String) : UInt64 :=
  value.toByteArray.data.toList.foldl fingerprintByte (fingerprintU64 hash value.utf8ByteSize)

/-! ## User -/

inductive OperatingMode where
  | backgroundConstrained
  | balancedNormal
  | maximumPerformance
  | advanced
deriving DecidableEq, Repr

inductive GpuPreference where
  | disabled
  | prefer
  | require
deriving DecidableEq, Repr

inductive CalibrationLevel where
  | none
  | quick
  | standard
  | thorough
deriving DecidableEq, Repr

def CalibrationLevel.rank : CalibrationLevel → Nat
  | .none => 0
  | .quick => 1
  | .standard => 2
  | .thorough => 3

structure AdvancedOverrides where
  threadCount : Option Nat
  layerCacheEnabled : Option Bool
  layerCacheCapacityBytes : Option Nat
  readCoalescingEnabled : Option Bool
  groupedReadBufferReuseEnabled : Option Bool
  gpuDeviceId : Option String
deriving DecidableEq, Repr

namespace AdvancedOverrides

def default : AdvancedOverrides :=
  { threadCount := none
    layerCacheEnabled := none
    layerCacheCapacityBytes := none
    readCoalescingEnabled := none
    groupedReadBufferReuseEnabled := none
    gpuDeviceId := none }

def isEmpty (overrides : AdvancedOverrides) : Bool :=
  overrides.threadCount.isNone && overrides.layerCacheEnabled.isNone &&
    overrides.layerCacheCapacityBytes.isNone && overrides.readCoalescingEnabled.isNone &&
    overrides.groupedReadBufferReuseEnabled.isNone && overrides.gpuDeviceId.isNone

end AdvancedOverrides

structure UserProfile where
  schemaVersion : Nat
  ramBudgetBytes : Nat
  mode : OperatingMode
  cpuThreadLimit : Option Nat
  gpuPreference : GpuPreference
  calibrationLevel : CalibrationLevel
  advanced : AdvancedOverrides
deriving DecidableEq, Repr

namespace UserProfile

def new (ramBudgetBytes : Nat) (mode : OperatingMode) : UserProfile where
  schemaVersion := profileSchemaVersion
  ramBudgetBytes := ramBudgetBytes
  mode := mode
  cpuThreadLimit := none
  gpuPreference := .disabled
  calibrationLevel := .none
  advanced := AdvancedOverrides.default

def validate (user : UserProfile) : Outcome PlannerError Unit := do
  failIf (user.schemaVersion ≠ profileSchemaVersion) (.invalid "UserProfile" "schema_version")
  failIf (user.ramBudgetBytes = 0) (.invalid "UserProfile" "ram_budget_bytes")
  failIf (user.cpuThreadLimit = some 0) (.invalid "UserProfile" "cpu_thread_limit")
  failIf (user.mode ≠ .advanced ∧ ¬user.advanced.isEmpty)
    (.infeasible .advancedOverrideRequiresAdvancedMode)
  failIf (user.advanced.threadCount = some 0) (.invalid "UserProfile" "advanced.thread_count")
  failIf (user.advanced.layerCacheCapacityBytes = some 0)
    (.invalid "UserProfile" "advanced.layer_cache_capacity_bytes")
  failIf (user.advanced.layerCacheCapacityBytes.any (user.ramBudgetBytes < ·))
    (.invalid "UserProfile" "advanced.layer_cache_capacity_bytes")
  failIf (user.advanced.layerCacheEnabled = some false ∧
      user.advanced.layerCacheCapacityBytes.isSome)
    (.invalid "UserProfile" "disabled layer cache has a capacity override")
  failIf (user.advanced.gpuDeviceId.isSome ∧ user.gpuPreference = .disabled)
    (.invalid "UserProfile" "GPU device selected while GPU use is disabled")

end UserProfile

/-! ## Machine -/

inductive CpuFeature where
  | avx2
deriving DecidableEq, Repr, Ord

namespace CpuFeature

/-- `feature as u64`. -/
def discriminant : CpuFeature → Nat
  | .avx2 => 0

instance : TransOrd CpuFeature where
  eq_swap {a b} := by
    cases a
    cases b
    rfl
  isLE_trans {a b c} _ _ := by
    cases a
    cases c
    rfl

end CpuFeature

inductive DiscoveryState where
  | complete
  | partially
  | unavailable
deriving DecidableEq, Repr

def DiscoveryState.discriminant : DiscoveryState → Nat
  | .complete => 0
  | .partially => 1
  | .unavailable => 2

structure Availability where
  detected : Bool
  supported : Bool
  usable : Bool
deriving DecidableEq, Repr

namespace Availability

def unavailable : Availability := { detected := false, supported := false, usable := false }

def validate (availability : Availability) (profile : String) : Outcome PlannerError Unit := do
  failIf (availability.supported ∧ ¬availability.detected)
    (.invalid profile "supported but not detected")
  failIf (availability.usable ∧ ¬availability.supported)
    (.invalid profile "usable but not supported")

end Availability

def fingerprintAvailability (hash : UInt64) (availability : Availability) : UInt64 :=
  let hash := fingerprintU64 hash availability.detected.toNat
  let hash := fingerprintU64 hash availability.supported.toNat
  fingerprintU64 hash availability.usable.toNat

structure GpuDeviceProfile where
  identifier : String
  vendor : Option String
  deviceId : Option String
  name : Option String
  dedicatedMemoryBytes : Option Nat
  backend : Availability
deriving DecidableEq, Repr

structure MachineProfile where
  schemaVersion : Nat
  os : String
  architecture : String
  kernelVersion : Option String
  cpuVendor : Option String
  cpuModel : Option String
  physicalCpuCores : Option Nat
  logicalCpuCores : Nat
  cpuFeatures : ExtTreeSet CpuFeature
  totalRamBytes : Option Nat
  availableRamBytes : Option Nat
  cpuBackend : Availability
  gpuInventoryState : DiscoveryState
  gpus : List GpuDeviceProfile

namespace MachineProfile

/-- The loop over the GPUs in `validate`; `identifiers` are those already seen. -/
def validateGpus : List GpuDeviceProfile → ExtTreeSet String → Outcome PlannerError Unit
  | [], _ => pure ()
  | gpu :: rest, identifiers => do
    failIf (gpu.identifier = "" ∨ ¬gpu.backend.detected ∨ identifiers.contains gpu.identifier)
      (.invalid "MachineProfile" "GPU identifier/detection state")
    gpu.backend.validate "MachineProfile.gpu.backend"
    validateGpus rest (identifiers.insert gpu.identifier)

/-- An available value needs a total, and is at most that. -/
def availableExceedsTotal (machine : MachineProfile) : Bool :=
  match machine.totalRamBytes, machine.availableRamBytes with
  | none, some _ => true
  | some total, some available => total < available
  | _, none => false

def validate (machine : MachineProfile) : Outcome PlannerError Unit := do
  failIf (machine.schemaVersion ≠ profileSchemaVersion) (.invalid "MachineProfile" "schema_version")
  failIf (machine.os = "" ∨ machine.architecture = "") (.invalid "MachineProfile" "platform")
  failIf (machine.logicalCpuCores = 0 ∨ machine.physicalCpuCores = some 0)
    (.invalid "MachineProfile" "cpu core count")
  failIf (machine.totalRamBytes = some 0 ∨ machine.availableRamBytes = some 0 ∨
      machine.availableExceedsTotal)
    (.invalid "MachineProfile" "RAM values")
  machine.cpuBackend.validate "MachineProfile.cpu_backend"
  failIf (machine.gpuInventoryState = .unavailable ∧ machine.gpus ≠ [])
    (.invalid "MachineProfile" "GPU inventory state")
  validateGpus machine.gpus ∅

def fingerprintGpu (hash : UInt64) (gpu : GpuDeviceProfile) : UInt64 :=
  let hash := fingerprintStr hash gpu.identifier
  let hash := fingerprintStr hash (gpu.vendor.getD "")
  let hash := fingerprintStr hash (gpu.deviceId.getD "")
  let hash := fingerprintStr hash (gpu.name.getD "")
  let hash := fingerprintU64 hash (gpu.dedicatedMemoryBytes.getD 0)
  fingerprintAvailability hash gpu.backend

def fingerprint (machine : MachineProfile) : UInt64 :=
  let hash := fingerprintStart
  let hash := fingerprintStr hash machine.os
  let hash := fingerprintStr hash machine.architecture
  let hash := fingerprintStr hash (machine.cpuVendor.getD "")
  let hash := fingerprintStr hash (machine.cpuModel.getD "")
  let hash := fingerprintU64 hash (machine.physicalCpuCores.getD 0)
  let hash := fingerprintU64 hash machine.logicalCpuCores
  let hash := fingerprintU64 hash (machine.totalRamBytes.getD 0)
  let hash := machine.cpuFeatures.toList.foldl
    (fun hash feature => fingerprintU64 hash (feature.discriminant + 1)) hash
  let hash := fingerprintAvailability hash machine.cpuBackend
  let hash := fingerprintU64 hash machine.gpuInventoryState.discriminant
  let gpus := machine.gpus.insertionSort fun left right => left.identifier ≤ right.identifier
  gpus.foldl fingerprintGpu hash

end MachineProfile

/-! ## Model -/

inductive ModelExecutionCompatibility where
  | executable
  | inspectPlanOnly
  | unknownArchitecture
deriving DecidableEq, Repr

structure ModelIdentity where
  displayName : Option String
  descriptorFingerprint : UInt64
deriving DecidableEq, Repr

structure TensorFormatProfile where
  format : String
  tensorCount : Nat
  elementCount : Option Nat
  byteCount : Option Nat
  runtimeSupported : Bool
deriving DecidableEq, Repr

structure ModelProfile where
  schemaVersion : Nat
  identity : ModelIdentity
  architecture : Option String
  contextSize : Option Nat
  layerCount : Option Nat
  tensorCount : Nat
  totalTensorElements : Option Nat
  fileSizeBytes : Nat
  tensorDataBytes : Option Nat
  tensorFormats : List TensorFormatProfile
  executionCompatibility : ModelExecutionCompatibility
  hasCoalescibleLayerReads : Bool
  hasReusableGroupedReadCandidate : Bool
deriving DecidableEq, Repr

namespace ModelProfile

/-- The `try_fold` of `validate`: the tensors of distinct, nonempty formats. -/
def representedTensors : List TensorFormatProfile → ExtTreeSet String → Nat → Option Nat
  | [], _, total => some total
  | format :: rest, names, total =>
    if format.format = "" ∨ format.tensorCount = 0 ∨ names.contains format.format then none
    else do
      let total ← checkedAdd total format.tensorCount
      representedTensors rest (names.insert format.format) total

def validate (model : ModelProfile) : Outcome PlannerError Unit := do
  failIf (model.schemaVersion ≠ profileSchemaVersion) (.invalid "ModelProfile" "schema_version")
  failIf (model.identity.descriptorFingerprint = 0) (.invalid "ModelProfile" "descriptor_fingerprint")
  failIf (representedTensors model.tensorFormats ∅ 0 ≠ some model.tensorCount)
    (.invalid "ModelProfile" "tensor distribution")

end ModelProfile

/-! ## Storage -/

inductive StorageKind where
  | unknown
  | localDisk
  | nvme
  | solidState
  | rotational
  | network
  | removable
  | memoryBacked
deriving DecidableEq, Repr

def StorageKind.discriminant : StorageKind → Nat
  | .unknown => 0
  | .localDisk => 1
  | .nvme => 2
  | .solidState => 3
  | .rotational => 4
  | .network => 5
  | .removable => 6
  | .memoryBacked => 7

inductive StoragePathState where
  | unverified
  | ready
deriving DecidableEq, Repr

structure StorageProfile where
  schemaVersion : Nat
  modelPath : String
  pathState : StoragePathState
  readable : Bool
  regularFile : Bool
  fileSizeBytes : Option Nat
  filesystemType : Option String
  filesystemId : Option String
  deviceId : Option String
  kind : StorageKind
  seekable : Bool
deriving DecidableEq, Repr

namespace StorageProfile

def validate (storage : StorageProfile) : Outcome PlannerError Unit := do
  failIf (storage.schemaVersion ≠ profileSchemaVersion) (.invalid "StorageProfile" "schema_version")
  failIf (storage.modelPath = "") (.invalid "StorageProfile" "model_path")
  failIf (storage.pathState = .ready ∧
      (¬storage.readable ∨ ¬storage.regularFile ∨ storage.fileSizeBytes.isNone))
    (.invalid "StorageProfile" "ready path facts")
  failIf (storage.pathState = .unverified ∧
      (storage.readable ∨ storage.regularFile ∨ storage.fileSizeBytes.isSome))
    (.invalid "StorageProfile" "unverified path has verified facts")

def fingerprint (storage : StorageProfile) : UInt64 :=
  let hash := fingerprintStart
  let hash := fingerprintStr hash (storage.filesystemType.getD "")
  let hash := fingerprintStr hash (storage.filesystemId.getD "")
  let hash := fingerprintStr hash (storage.deviceId.getD "")
  let hash := fingerprintU64 hash storage.kind.discriminant
  fingerprintU64 hash storage.seekable.toNat

end StorageProfile

/-! ## The static plan

`plan.rs` makes it; the planner reads it. -/

structure ExecutionMemoryPlan where
  blockCount : Nat
  residentPersistentCount : Nat
  streamedPersistentCount : Nat
  persistentResidentBytes : Nat
  persistentStartupPeakBytes : Nat
  largestLayerIndex : Nat
  largestLayerTensorCount : Nat
  largestLayerResidentBytes : Nat
  largestLayerLoadPeakBytes : Nat
  managedLowerBoundBytes : Nat
  layerCacheCapacityBytes : Nat
  maxCompleteCachedLayers : Nat
  minLayerResidentBytes : Nat
  logicalTensorReadsPerForward : Nat
  estimatedPhysicalReadsPerForward : Nat
  logicalTensorBytesPerForward : Nat
  estimatedPhysicalBytesPerForward : Nat
  estimatedGapBytesPerForward : Nat
  layerStreamingLowerBoundFits : Bool
deriving DecidableEq, Repr

structure PlanResult where
  fileSize : Nat
  architecture : Option String
  tensorCount : Nat
  ramRequested : Nat
  cacheCapacity : Nat
  overheadReserved : Nat
  available : Nat
  fitsInRam : Bool
  fileBackedNeeded : Nat
  totalTensorBytes : Option Nat
  executionMemory : Option ExecutionMemoryPlan
  executionPreflightError : Option String
  budget : MemoryBudget

end Planner
end Ramforge

/-!
Calibration results: measured samples, what is derived from them, and when they
are accepted.
-/

namespace Ramforge
namespace Planner

open Std Rust Rust.Outcome

def calibrationPlanVersion : Nat := 1

def calibrationRulesetVersion : Nat := 1

inductive StrategyId where
  | cpuLayerStreaming
  | gpuLayerOffload
deriving DecidableEq, Repr

inductive ObservationMetric where
  | cpuFloatThroughput
  | sequentialReadThroughput
  | randomReadLatency
  | memoryBandwidth
  | quantizedDecodeThroughput
  | strategyLatency
deriving DecidableEq, Repr

inductive ObservationUnit where
  | bytesPerSecond
  | elementsPerSecond
  | nanoseconds
deriving DecidableEq, Repr

inductive ObservationStatus where
  | measured
  | unavailable
  | skipped
  | failed
deriving DecidableEq, Repr

inductive ObservationStatusReason where
  | capabilityUnavailable
  | dependencyUnavailable
  | resourceLimitExceeded
  | timeLimitReached
  | testNotImplemented
  | ioFailure
  | invalidWorkload
deriving DecidableEq, Repr

structure MeasurementSample where
  elapsedNs : UInt64
  unitsProcessed : UInt64
deriving DecidableEq, Repr

namespace MeasurementSample

def isZero (sample : MeasurementSample) : Bool := sample.elapsedNs = 0 || sample.unitsProcessed = 0

/-- Units per second, in `u128`. -/
def rate (sample : MeasurementSample) : Outcome PlannerError Nat := do
  let units ← expect (U128.mul sample.unitsProcessed.toNat 1000000000) U128.mulOverflow
  expect (U128.div units sample.elapsedNs.toNat) U128.divByZero

end MeasurementSample

/-- The least and the greatest rate, starting from `bounds`. -/
def rateBounds (samples : List MeasurementSample) (bounds : Nat × Nat) :
    Outcome PlannerError (Nat × Nat) :=
  samples.foldlM (fun bounds sample => do
    let rate ← sample.rate
    pure (min bounds.1 rate, max bounds.2 rate)) bounds

def observationQualityBasisPoints (samples : List MeasurementSample) : Outcome PlannerError Nat :=
  if samples.isEmpty ∨ samples.any MeasurementSample.isZero then pure 0
  else do
    let (minimumRate, maximumRate) ← rateBounds samples (u128Bound - 1, 0)
    if maximumRate = 0 then pure 0
    else do
      let spread ← expect (checkedSub maximumRate minimumRate) Build.subOverflow
      let scaled ← expect (U128.mul spread 10000) U128.mulOverflow
      let spreadBasisPoints ← expect (U128.div scaled maximumRate) U128.divByZero
      pure (10000 - min spreadBasisPoints 10000)

/-- `Iterator::sum` in `u128`. -/
def sumU128 (values : List Nat) : Outcome PlannerError Nat :=
  values.foldlM (fun total value => expect (U128.add total value) Build.addOverflow) 0

def aggregateObservationValue (unit : ObservationUnit) (samples : List MeasurementSample) :
    Outcome PlannerError (Option Nat) :=
  if samples.isEmpty ∨ samples.any MeasurementSample.isZero then pure none
  else do
    let elapsedNs ← sumU128 (samples.map fun sample => sample.elapsedNs.toNat)
    let units ← sumU128 (samples.map fun sample => sample.unitsProcessed.toNat)
    let value ←
      match unit with
      | .bytesPerSecond | .elementsPerSecond =>
        match U128.mul units 1000000000 with
        | none => pure none
        | some scaled => some <$> expect (U128.div scaled elapsedNs) U128.divByZero
      | .nanoseconds => some <$> expect (U128.div elapsedNs units) U128.divByZero
    pure ((value.map fun value => min value (u64Bound - 1)).filter (0 < ·))

structure PerformanceObservation where
  identifier : String
  metric : ObservationMetric
  unit : ObservationUnit
  value : Option Nat
  status : ObservationStatus
  statusReason : Option ObservationStatusReason
  strategy : Option StrategyId
  quantizationFormat : Option String
  calibrationLevel : CalibrationLevel
  workloadBytes : Nat
  workloadElements : Nat
  measurementDurationNs : Nat
  sampleCount : Nat
  rawSamples : List MeasurementSample
  timestampUnixSeconds : Option Nat
  qualityBasisPoints : Nat
deriving DecidableEq, Repr

def ObservationMetric.expectedUnit : ObservationMetric → ObservationUnit
  | .sequentialReadThroughput | .memoryBandwidth => .bytesPerSecond
  | .cpuFloatThroughput | .quantizedDecodeThroughput => .elementsPerSecond
  | .randomReadLatency | .strategyLatency => .nanoseconds

namespace PerformanceObservation

/-- `try_fold` with `checked_add` over the elapsed times. -/
def elapsedTotal (samples : List MeasurementSample) : Option Nat :=
  samples.foldlM (fun total sample => checkedAdd total sample.elapsedNs.toNat) 0

/-- The checks of a measured observation; the derived values are computed last. -/
def validateMeasured (observation : PerformanceObservation) : Outcome PlannerError Unit := do
  let error := PlannerError.invalid "PerformanceObservation" "measured state"
  failIf (¬observation.value.any (0 < ·) ∨ observation.measurementDurationNs = 0 ∨
    observation.sampleCount = 0 ∨ observation.rawSamples.length ≠ observation.sampleCount ∨
    observation.statusReason.isSome ∨ observation.rawSamples.any MeasurementSample.isZero ∨
    elapsedTotal observation.rawSamples ≠ some observation.measurementDurationNs) error
  let quality ← observationQualityBasisPoints observation.rawSamples
  failIf (observation.qualityBasisPoints ≠ quality) error
  let value ← aggregateObservationValue observation.unit observation.rawSamples
  failIf (observation.value ≠ value) error

def validate (observation : PerformanceObservation) : Outcome PlannerError Unit := do
  failIf (observation.identifier = "" ∨ observation.calibrationLevel = .none ∨
      10000 < observation.qualityBasisPoints)
    (.invalid "PerformanceObservation" "identity/level/quality")
  failIf (observation.unit ≠ observation.metric.expectedUnit)
    (.invalid "PerformanceObservation" "metric/unit mismatch")
  failIf (observation.metric = .strategyLatency ∧ observation.strategy = none)
    (.invalid "PerformanceObservation" "strategy latency without strategy")
  failIf (observation.metric = .quantizedDecodeThroughput ∧ observation.quantizationFormat = none)
    (.invalid "PerformanceObservation" "decode throughput without quantization format")
  match observation.status with
  | .measured => observation.validateMeasured
  | .unavailable | .skipped | .failed =>
    failIf (observation.value.isSome ∨ observation.measurementDurationNs ≠ 0 ∨
        observation.sampleCount ≠ 0 ∨ observation.rawSamples ≠ [] ∨
        observation.statusReason = none ∨ observation.qualityBasisPoints ≠ 0)
      (.invalid "PerformanceObservation" "non-measured state")

end PerformanceObservation

structure CalibrationResult where
  schemaVersion : Nat
  identifier : String
  level : CalibrationLevel
  machineFingerprint : UInt64
  modelFingerprint : Option UInt64
  storageFingerprint : Option UInt64
  calibrationPlanIdentifier : String
  calibrationPlanVersion : Nat
  calibrationRulesetVersion : Nat
  observations : List PerformanceObservation
deriving DecidableEq, Repr

namespace CalibrationResult

/-- The loop over the observations in `validate`; `identifiers` are those already seen. -/
def validateObservations (level : CalibrationLevel) :
    List PerformanceObservation → ExtTreeSet String → Outcome PlannerError Unit
  | [], _ => pure ()
  | observation :: rest, identifiers => do
    observation.validate
    failIf (observation.calibrationLevel ≠ level)
      (.invalid "CalibrationResult" "observation calibration level mismatch")
    failIf (identifiers.contains observation.identifier)
      (.invalid "CalibrationResult" "duplicate observation identifier")
    validateObservations level rest (identifiers.insert observation.identifier)

def validate (calibration : CalibrationResult) : Outcome PlannerError Unit := do
  failIf (calibration.schemaVersion ≠ profileSchemaVersion ∨ calibration.identifier = "" ∨
      calibration.level = .none ∨ calibration.machineFingerprint = 0 ∨
      calibration.modelFingerprint = some 0 ∨ calibration.storageFingerprint = some 0 ∨
      calibration.calibrationPlanIdentifier = "" ∨
      calibration.calibrationPlanVersion ≠ Planner.calibrationPlanVersion ∨
      calibration.calibrationRulesetVersion ≠ Planner.calibrationRulesetVersion)
    (.invalid "CalibrationResult" "identity/schema/level")
  validateObservations calibration.level calibration.observations ∅

end CalibrationResult

/-! ## The best observation -/

/-- Quality, then sample count, then duration; the smaller identifier is the greater. -/
def compareObservations (left right : PerformanceObservation) : Ordering :=
  (compare left.qualityBasisPoints right.qualityBasisPoints).then <|
    (compare left.sampleCount right.sampleCount).then <|
      (compare left.measurementDurationNs right.measurementDurationNs).then <|
        compare right.identifier left.identifier

instance : TransCmp compareObservations :=
  have : TransCmp fun left right => compareOn PerformanceObservation.identifier right left :=
    TransCmp.opposite
  inferInstanceAs <| TransCmp <| compareLex (compareOn PerformanceObservation.qualityBasisPoints) <|
    compareLex (compareOn PerformanceObservation.sampleCount) <|
      compareLex (compareOn PerformanceObservation.measurementDurationNs)
        fun left right => compareOn PerformanceObservation.identifier right left

/-- Observations that tie have one name. -/
theorem identifier_of_compareObservations {left right : PerformanceObservation}
    (h : compareObservations left right = .eq) : left.identifier = right.identifier := by
  obtain ⟨-, h⟩ := Ordering.then_eq_eq.mp h
  obtain ⟨-, h⟩ := Ordering.then_eq_eq.mp h
  obtain ⟨-, h⟩ := Ordering.then_eq_eq.mp h
  exact (LawfulEqOrd.eq_of_compare h).symm

def bestObservation (calibration : CalibrationResult) (metric : ObservationMetric)
    (strategy : Option StrategyId) : Option PerformanceObservation :=
  maxBy compareObservations <| calibration.observations.filter fun observation =>
    observation.status = .measured ∧ observation.metric = metric ∧ observation.strategy = strategy

def ceilRateDurationNs (units unitsPerSecond : Nat) : Outcome PlannerError Nat := do
  let numerator ← expect (U128.mul units 1000000000) U128.mulOverflow
  let value ← expect (U128.divCeil numerator unitsPerSecond) U128.divByZero
  pure (min value (u64Bound - 1))

end Planner
end Ramforge
