/-
Calibration plans: the tasks of a level, their limits, and what a plan checks of itself.

The tasks are made from the limits and then judged by rules of their own; every task that a
plan makes passes them.
-/
import Ramforge.Core.QuantRows
import Ramforge.Runtime.Planner

namespace Ramforge
namespace Calibration

open Std Rust Rust.Outcome Planner

def maxAbsoluteMemoryBytes : Nat := 64 * 1024 * 1024

def maxAbsoluteStorageReadBytes : Nat := 16 * 1024 * 1024

def calibrationMetadataBytes : Nat := 4 * 1024

def maxAbsoluteTotalDurationNs : Nat := 120000000000

def maxAbsoluteTaskDurationNs : Nat := 30000000000

def maxAbsoluteSamples : Nat := 16

def maxAbsoluteIterations : Nat := 1024

def maxAbsoluteTaskBytesProcessed : Nat := 1024 * 1024 * 1024

def maxAbsoluteTaskElementsProcessed : Nat := 100000000

inductive CalibrationError where
  | invalidPlan (reason : String)
  | planner (error : PlannerError)
  | budget (error : MemoryError)
deriving DecidableEq, Repr

inductive CalibrationQuantization where
  | q4_0
  | q8_0
  | q4K
deriving DecidableEq, Repr

def CalibrationQuantization.formatName : CalibrationQuantization → String
  | .q4_0 => "Q4_0"
  | .q8_0 => "Q8_0"
  | .q4K => "Q4_K"

/-- `to_ascii_lowercase`. -/
def toAsciiLowercase (text : String) : String := String.ofList (text.toList.map Char.toLower)

inductive CalibrationTestKind where
  | cpuFloatDot
  | memoryCopyBandwidth
  | sequentialStorageRead
  | storageReadLatency
  | quantizedRowDecode (format : CalibrationQuantization)
  | strategyLatency (strategy : StrategyId)
deriving DecidableEq, Repr

def CalibrationTestKind.stableIdentifier : CalibrationTestKind → String
  | .cpuFloatDot => "cpu.float-dot.v1"
  | .memoryCopyBandwidth => "memory.copy-bandwidth.v1"
  | .sequentialStorageRead => "storage.sequential-read.v1"
  | .storageReadLatency => "storage.read-latency.v1"
  | .quantizedRowDecode format => "decode." ++ toAsciiLowercase format.formatName ++ ".v1"
  | .strategyLatency .cpuLayerStreaming => "strategy.cpu-layer-streaming.v1"
  | .strategyLatency .gpuLayerOffload => "strategy.gpu-layer-offload.v1"

inductive CalibrationPurpose where
  | cpuRuntimeBaseline
  | memoryBandwidth
  | storageThroughput
  | storageLatency
  | quantizedDecodeThroughput
  | strategyComparison
deriving DecidableEq, Repr

/-- `purpose as u64`. -/
def CalibrationPurpose.discriminant : CalibrationPurpose → Nat
  | .cpuRuntimeBaseline => 0
  | .memoryBandwidth => 1
  | .storageThroughput => 2
  | .storageLatency => 3
  | .quantizedDecodeThroughput => 4
  | .strategyComparison => 5

inductive CalibrationRequirement where
  | cpuBackend
  | seekableStorage
  | modelExecution
  | quantizationFormat (format : String)
  | strategy (strategy : StrategyId)
deriving DecidableEq, Repr

structure ExpectedResourceUsage where
  memoryBytes : Nat
  storageReadBytes : Nat
  cpuThreads : Nat
deriving DecidableEq, Repr

structure CalibrationWorkBudget where
  warmupIterations : Nat
  iterationsPerSample : Nat
  sampleCount : Nat
  elementsPerIteration : Nat
  bytesPerIteration : Nat
  maxDurationNs : Nat
deriving DecidableEq, Repr

structure CalibrationTask where
  identifier : String
  kind : CalibrationTestKind
  purpose : CalibrationPurpose
  requirements : List CalibrationRequirement
  expectedResources : ExpectedResourceUsage
  modelFingerprint : Option UInt64
  storageFingerprint : Option UInt64
  work : CalibrationWorkBudget
deriving DecidableEq, Repr

def workVolumeIsBounded (work : CalibrationWorkBudget) : Bool :=
  let measuredIterations := checkedMul work.iterationsPerSample work.sampleCount
  let totalIterations := measuredIterations.bind (checkedAdd · work.warmupIterations)
  match totalIterations with
  | none => false
  | some totalIterations =>
    let bytes := checkedMul work.bytesPerIteration totalIterations
    let elements := checkedMul work.elementsPerIteration totalIterations
    bytes.any (· ≤ maxAbsoluteTaskBytesProcessed) &&
      elements.any (· ≤ maxAbsoluteTaskElementsProcessed)

namespace CalibrationTask

def validate (task : CalibrationTask) : Outcome CalibrationError Unit := do
  failIf (task.identifier ≠ task.kind.stableIdentifier) (.invalidPlan "unstable task identifier")
  failIf (task.expectedResources.cpuThreads ≠ 1 ∨ task.expectedResources.memoryBytes = 0 ∨
      task.work.iterationsPerSample = 0 ∨ task.work.sampleCount = 0 ∨ task.work.maxDurationNs = 0 ∨
      (task.work.elementsPerIteration = 0 ∧ task.work.bytesPerIteration = 0) ∨
      maxAbsoluteIterations < task.work.warmupIterations ∨
      maxAbsoluteSamples < task.work.sampleCount ∨
      maxAbsoluteIterations < task.work.iterationsPerSample ∨
      maxAbsoluteMemoryBytes < task.expectedResources.memoryBytes ∨
      maxAbsoluteStorageReadBytes < task.expectedResources.storageReadBytes ∨
      maxAbsoluteTaskDurationNs < task.work.maxDurationNs ∨ ¬workVolumeIsBounded task.work)
    (.invalidPlan "unbounded task resources")
  match task.kind with
  | .sequentialStorageRead | .storageReadLatency =>
    failIf task.storageFingerprint.isNone (.invalidPlan "storage measurement lacks storage dependency")
  | .quantizedRowDecode _ | .strategyLatency _ =>
    failIf task.modelFingerprint.isNone (.invalidPlan "model measurement lacks model dependency")
  | .cpuFloatDot | .memoryCopyBandwidth => pure ()

end CalibrationTask

structure CalibrationLimits where
  maxMemoryBytes : Nat
  maxStorageReadBytes : Nat
  maxTotalDurationNs : Nat
  maxTaskDurationNs : Nat
  maxSamples : Nat
  maxIterationsPerSample : Nat
deriving DecidableEq, Repr

def CalibrationLimits.validate (limits : CalibrationLimits) (user : UserProfile) :
    Outcome CalibrationError Unit :=
  failIf (limits.maxMemoryBytes = 0 ∨ user.ramBudgetBytes < limits.maxMemoryBytes ∨
      maxAbsoluteMemoryBytes < limits.maxMemoryBytes ∨ limits.maxStorageReadBytes = 0 ∨
      maxAbsoluteStorageReadBytes < limits.maxStorageReadBytes ∨ limits.maxTotalDurationNs = 0 ∨
      maxAbsoluteTotalDurationNs < limits.maxTotalDurationNs ∨ limits.maxTaskDurationNs = 0 ∨
      limits.maxTotalDurationNs < limits.maxTaskDurationNs ∨
      maxAbsoluteTaskDurationNs < limits.maxTaskDurationNs ∨ limits.maxSamples = 0 ∨
      maxAbsoluteSamples < limits.maxSamples ∨ limits.maxIterationsPerSample = 0 ∨
      maxAbsoluteIterations < limits.maxIterationsPerSample)
    (.invalidPlan "invalid calibration limits")

/-! ## The tasks -/

def levelWork : CalibrationLevel → Nat × Nat
  | .none => (0, 0)
  | .quick => (3, 16)
  | .standard => (5, 32)
  | .thorough => (7, 64)

def levelAtLeast (level minimum : CalibrationLevel) : Bool := minimum.rank ≤ level.rank

def cpuTask (level : CalibrationLevel) (limits : CalibrationLimits) : CalibrationTask where
  identifier := CalibrationTestKind.cpuFloatDot.stableIdentifier
  kind := .cpuFloatDot
  purpose := .cpuRuntimeBaseline
  requirements := [.cpuBackend]
  expectedResources := {
    memoryBytes := 2 * 4096 * 4 + calibrationMetadataBytes
    storageReadBytes := 0
    cpuThreads := 1 }
  modelFingerprint := none
  storageFingerprint := none
  work := {
    warmupIterations := 4
    iterationsPerSample := (levelWork level).2
    sampleCount := (levelWork level).1
    elementsPerIteration := 4096
    bytesPerIteration := 0
    maxDurationNs := limits.maxTaskDurationNs }

/-- The bytes of each of the two buffers of the copy test. -/
def memoryTaskBytes (limits : CalibrationLimits) : Nat :=
  let availablePerBuffer := (limits.maxMemoryBytes - calibrationMetadataBytes) / 2
  if 4 * 1024 ≤ availablePerBuffer then min availablePerBuffer (1024 * 1024) else 1024 * 1024

def memoryTask (level : CalibrationLevel) (limits : CalibrationLimits) : CalibrationTask where
  identifier := CalibrationTestKind.memoryCopyBandwidth.stableIdentifier
  kind := .memoryCopyBandwidth
  purpose := .memoryBandwidth
  requirements := [.cpuBackend]
  expectedResources := {
    memoryBytes := 2 * memoryTaskBytes limits + calibrationMetadataBytes
    storageReadBytes := 0
    cpuThreads := 1 }
  modelFingerprint := none
  storageFingerprint := none
  work := {
    warmupIterations := 2
    iterationsPerSample := (levelWork level).2
    sampleCount := (levelWork level).1
    elementsPerIteration := 0
    bytesPerIteration := memoryTaskBytes limits
    maxDurationNs := limits.maxTaskDurationNs }

/-- The bytes that the storage test reads in one go. -/
def storageTaskBytes (limits : CalibrationLimits) : Nat :=
  let availableBuffer := limits.maxMemoryBytes - calibrationMetadataBytes
  if 4 * 1024 ≤ availableBuffer then min (min limits.maxStorageReadBytes (1024 * 1024)) availableBuffer
  else min limits.maxStorageReadBytes (1024 * 1024)

def storageTask (level : CalibrationLevel) (storageFingerprint : UInt64)
    (limits : CalibrationLimits) : CalibrationTask where
  identifier := CalibrationTestKind.sequentialStorageRead.stableIdentifier
  kind := .sequentialStorageRead
  purpose := .storageThroughput
  requirements := [.seekableStorage]
  expectedResources := {
    memoryBytes := storageTaskBytes limits + calibrationMetadataBytes
    storageReadBytes := storageTaskBytes limits
    cpuThreads := 1 }
  modelFingerprint := none
  storageFingerprint := some storageFingerprint
  work := {
    warmupIterations := 1
    iterationsPerSample := 1
    sampleCount := (levelWork level).1
    elementsPerIteration := 0
    bytesPerIteration := storageTaskBytes limits
    maxDurationNs := limits.maxTaskDurationNs }

/-- The elements of the row that a decode test decodes. -/
def quantizedTaskElements : Nat := 2048

def encodedBytes : CalibrationQuantization → Nat
  | .q4_0 => quantizedTaskElements / Quant.qk4_0 * Quant.blockSizeQ4_0
  | .q8_0 => quantizedTaskElements / Quant.qk8_0 * Quant.blockSizeQ8_0
  | .q4K => quantizedTaskElements / Quant.qkK * Quant.blockSizeQ4K

def quantizedTask (level : CalibrationLevel) (format : CalibrationQuantization)
    (modelFingerprint : UInt64) (limits : CalibrationLimits) : CalibrationTask where
  identifier := (CalibrationTestKind.quantizedRowDecode format).stableIdentifier
  kind := .quantizedRowDecode format
  purpose := .quantizedDecodeThroughput
  requirements := [.cpuBackend, .quantizationFormat format.formatName]
  expectedResources := {
    memoryBytes := encodedBytes format + quantizedTaskElements * 4 + calibrationMetadataBytes
    storageReadBytes := 0
    cpuThreads := 1 }
  modelFingerprint := some modelFingerprint
  storageFingerprint := none
  work := {
    warmupIterations := 2
    iterationsPerSample := (levelWork level).2
    sampleCount := (levelWork level).1
    elementsPerIteration := quantizedTaskElements
    bytesPerIteration := encodedBytes format
    maxDurationNs := limits.maxTaskDurationNs }

def strategyTask (strategy : StrategyId) (modelFingerprint : UInt64) (limits : CalibrationLimits) :
    CalibrationTask where
  identifier := (CalibrationTestKind.strategyLatency strategy).stableIdentifier
  kind := .strategyLatency strategy
  purpose := .strategyComparison
  requirements := [.modelExecution, .strategy strategy] ++
    if strategy = .cpuLayerStreaming then [.cpuBackend] else []
  expectedResources := {
    memoryBytes := calibrationMetadataBytes
    storageReadBytes := 0
    cpuThreads := 1 }
  modelFingerprint := some modelFingerprint
  storageFingerprint := none
  work := {
    warmupIterations := 0
    iterationsPerSample := 1
    sampleCount := 1
    elementsPerIteration := 1
    bytesPerIteration := 0
    maxDurationNs := limits.maxTaskDurationNs }

def relevantQuantizations (model : ModelProfile) : List CalibrationQuantization :=
  [.q4K, .q8_0, .q4_0].filter fun format =>
    model.tensorFormats.any fun profile => profile.format = format.formatName

/-! ## The plan -/

structure CalibrationPlan where
  schemaVersion : Nat
  planVersion : Nat
  rulesetVersion : Nat
  identifier : String
  level : CalibrationLevel
  machineFingerprint : UInt64
  modelFingerprint : UInt64
  storageFingerprint : UInt64
  limits : CalibrationLimits
  tasks : List CalibrationTask
deriving DecidableEq, Repr

def hashBytes (hash : UInt64) (text : String) : UInt64 :=
  text.toByteArray.data.toList.foldl fingerprintByte hash

def hashValue (hash : UInt64) (value : Nat) : UInt64 := fingerprintU64 hash value

/-- `strategy as u64`. -/
def strategyDiscriminant : StrategyId → Nat
  | .cpuLayerStreaming => 0
  | .gpuLayerOffload => 1

def hashRequirement (hash : UInt64) : CalibrationRequirement → UInt64
  | .cpuBackend => hashValue hash 1
  | .seekableStorage => hashValue hash 2
  | .modelExecution => hashValue hash 3
  | .quantizationFormat format => hashBytes (hashValue hash 4) format
  | .strategy strategy => hashValue (hashValue hash 5) (strategyDiscriminant strategy)

def hashTask (hash : UInt64) (task : CalibrationTask) : UInt64 :=
  let hash := hashBytes hash task.identifier
  let hash := hashValue hash task.purpose.discriminant
  let hash := hashValue hash task.expectedResources.memoryBytes
  let hash := hashValue hash task.expectedResources.storageReadBytes
  let hash := hashValue hash task.expectedResources.cpuThreads
  let hash := hashValue hash (task.modelFingerprint.getD 0).toNat
  let hash := hashValue hash (task.storageFingerprint.getD 0).toNat
  let hash := hashValue hash task.work.warmupIterations
  let hash := hashValue hash task.work.iterationsPerSample
  let hash := hashValue hash task.work.sampleCount
  let hash := hashValue hash task.work.elementsPerIteration
  let hash := hashValue hash task.work.bytesPerIteration
  let hash := hashValue hash task.work.maxDurationNs
  task.requirements.foldl hashRequirement hash

/-- `{hash:016x}`. -/
def hex16 (value : Nat) : String :=
  String.ofList ((List.range 16).map fun place => Nat.digitChar (value / 16 ^ (15 - place) % 16))

def calibrationPlanIdentifier (plan : CalibrationPlan) : String :=
  let hash := fingerprintStart
  let hash := hashValue hash plan.planVersion
  let hash := hashValue hash plan.rulesetVersion
  let hash := hashValue hash plan.level.rank
  let hash := hashValue hash plan.machineFingerprint.toNat
  let hash := hashValue hash plan.modelFingerprint.toNat
  let hash := hashValue hash plan.storageFingerprint.toNat
  let hash := hashValue hash plan.limits.maxMemoryBytes
  let hash := hashValue hash plan.limits.maxStorageReadBytes
  let hash := hashValue hash plan.limits.maxTotalDurationNs
  let hash := hashValue hash plan.limits.maxTaskDurationNs
  let hash := hashValue hash plan.limits.maxSamples
  let hash := hashValue hash plan.limits.maxIterationsPerSample
  let hash := plan.tasks.foldl hashTask hash
  "calibration-plan-v" ++ toString plan.planVersion ++ "-" ++ hex16 hash.toNat

namespace CalibrationPlan

/-- The loop over the tasks in `validate`; `identifiers` are those already seen. -/
def validateTasks : List CalibrationTask → ExtTreeSet String → Outcome CalibrationError Unit
  | [], _ => pure ()
  | task :: rest, identifiers => do
    task.validate
    failIf (identifiers.contains task.identifier) (.invalidPlan "duplicate calibration task")
    validateTasks rest (identifiers.insert task.identifier)

def validate (plan : CalibrationPlan) : Outcome CalibrationError Unit := do
  failIf (plan.schemaVersion ≠ profileSchemaVersion ∨
      plan.planVersion ≠ Planner.calibrationPlanVersion ∨
      plan.rulesetVersion ≠ Planner.calibrationRulesetVersion ∨ plan.identifier = "" ∨
      plan.machineFingerprint = 0 ∨ plan.modelFingerprint = 0 ∨ plan.storageFingerprint = 0)
    (.invalidPlan "invalid calibration identity")
  failIf (plan.level = .none ∧ plan.tasks ≠ []) (.invalidPlan "none-level plan contains tasks")
  validateTasks plan.tasks ∅
  failIf (plan.identifier ≠ calibrationPlanIdentifier plan)
    (.invalidPlan "calibration plan identifier mismatch")

/-- The tasks of a level, in the order they are pushed. -/
def plannedTasks (level : CalibrationLevel) (model : ModelProfile)
    (modelFingerprint storageFingerprint : UInt64) (limits : CalibrationLimits) :
    List CalibrationTask :=
  let relevant := relevantQuantizations model
  let quantized := fun format => quantizedTask level format modelFingerprint limits
  (if level ≠ .none then [cpuTask level limits, storageTask level storageFingerprint limits]
    else []) ++
  (if levelAtLeast level .standard then
      memoryTask level limits :: (relevant.head?.map quantized).toList
    else []) ++
  (if level = .thorough then ((relevant.drop 1).take 2).map quantized else [])

def build (user : UserProfile) (machine : MachineProfile) (model : ModelProfile)
    (storage : StorageProfile) (capabilities : CapabilitySet) (limits : CalibrationLimits) :
    Outcome CalibrationError CalibrationPlan := do
  user.validate.mapErr .planner
  machine.validate.mapErr .planner
  model.validate.mapErr .planner
  storage.validate.mapErr .planner
  limits.validate user
  failIf (storage.fileSizeBytes.any (· ≠ model.fileSizeBytes))
    (.invalidPlan "storage file size does not match model profile")
  let availableRamBytes ← okOr machine.availableRamBytes
    (.invalidPlan "available machine RAM is unknown")
  failIf (availableRamBytes < limits.maxMemoryBytes)
    (.invalidPlan "calibration memory exceeds available machine RAM")
  let machineFingerprint := machine.fingerprint
  let modelFingerprint := model.identity.descriptorFingerprint
  let storageFingerprint := storage.fingerprint
  failIf (capabilities.schemaVersion ≠ profileSchemaVersion ∨
      capabilities.machineFingerprint ≠ machineFingerprint ∨
      capabilities.modelFingerprint ≠ modelFingerprint ∨
      capabilities.storageFingerprint ≠ storageFingerprint)
    (.invalidPlan "capabilities do not match profiles")
  let plan : CalibrationPlan := {
    schemaVersion := profileSchemaVersion
    planVersion := Planner.calibrationPlanVersion
    rulesetVersion := Planner.calibrationRulesetVersion
    identifier := ""
    level := user.calibrationLevel
    machineFingerprint := machineFingerprint
    modelFingerprint := modelFingerprint
    storageFingerprint := storageFingerprint
    limits := limits
    tasks := plannedTasks user.calibrationLevel model modelFingerprint storageFingerprint limits }
  let plan := { plan with identifier := calibrationPlanIdentifier plan }
  plan.validate
  return plan

def requestStrategyMeasurement (strategy : StrategyId) :
    Exec CalibrationPlan CalibrationError Unit := do
  let plan ← Exec.self
  Exec.failIf (plan.level ≠ .thorough)
    (.invalidPlan "strategy measurements require Thorough calibration")
  let task := strategyTask strategy plan.modelFingerprint plan.limits
  Exec.failIf (plan.tasks.any fun existing => existing.identifier = task.identifier)
    (.invalidPlan "duplicate strategy measurement")
  modify fun plan => { plan with tasks := plan.tasks ++ [task] }
  modify fun plan => { plan with identifier := calibrationPlanIdentifier plan }
  Exec.resume (← Exec.self).validate

end CalibrationPlan
end Calibration
end Ramforge
