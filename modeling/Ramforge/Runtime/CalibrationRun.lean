/-
Calibration runs: one measurement for each task of a plan, under the clock and the model file.

The clock and the file answer one call after the other from lists.  Beside what the source
reports to `on_progress`, the trace keeps what is charged, allocated and read for a task.
-/
import Ramforge.Core.QuantRows
import Ramforge.Runtime.CalibrationPlan
import Ramforge.Runtime.Persistent

namespace Ramforge
namespace Calibration

open Rust Rust.Exec Planner

/-! ## The outside -/

inductive OpenAnswer where
  | opened
  | notFound
  | failed
deriving DecidableEq, Repr

inductive CalibrationEvent where
  | started (taskIndex : Nat)
  | charged (bytes : Nat)
  | allocated (bytes : Nat)
  | read (bytes : Nat)
  | finished (taskIndex : Nat) (observation : PerformanceObservation)
deriving DecidableEq, Repr

/-- What the outside answers, and what a run has done so far. -/
structure CalibrationHost where
  /-- The nanoseconds of the `elapsed` calls to come.  A clock without answers stands still. -/
  clock : List Nat
  opens : List OpenAnswer
  /-- The lengths that `metadata` reports; `none` is an error. -/
  lengths : List (Option Nat)
  /-- Whether the `seek` and `read_exact` calls to come succeed. -/
  transfers : List Bool
  now : Option Nat
  trace : List CalibrationEvent

def record {ε : Type} (event : CalibrationEvent) : Exec CalibrationHost ε Unit :=
  modify fun host => { host with trace := host.trace ++ [event] }

/-- `duration_ns(&started)`. -/
def durationNs {ε : Type} : Exec CalibrationHost ε Nat := fun host =>
  (.ok (min (host.clock.headD 0) (u64Bound - 1)), { host with clock := host.clock.tail })

/-- A call that a measurement makes of the outside. -/
abbrev Asking (α : Type) : Type := Exec CalibrationHost ObservationStatusReason α

def openFile : Asking Unit := fun host =>
  let answered := { host with opens := host.opens.tail }
  match host.opens.headD .opened with
  | .opened => (.ok (), answered)
  | .notFound => (.err .dependencyUnavailable, answered)
  | .failed => (.err .ioFailure, answered)

def fileLength : Asking Nat := fun host =>
  let answered := { host with lengths := host.lengths.tail }
  match host.lengths.headD none with
  | some length => (.ok length, answered)
  | none => (.err .ioFailure, answered)

/-- A `seek` or a `read_exact`. -/
def transfer : Asking Unit := fun host =>
  let answered := { host with transfers := host.transfers.tail }
  if host.transfers.headD true then (.ok (), answered) else (.err .ioFailure, answered)

/-! ## Measurements -/

section measure

variable {τ : Type}

/-- A call that measures, beside the buffers `τ` that its operation works on. -/
abbrev Measuring (τ α : Type) : Type := Exec (τ × CalibrationHost) ObservationStatusReason α

/-- The rounds over the samples, with `samples` taken so far and `n` to go. -/
def takeSamples (task : CalibrationTask) (unitsPerSample : Nat) (operation : Measuring τ Unit) :
    Nat → List MeasurementSample → Measuring τ (List MeasurementSample)
  | 0, samples => return samples
  | n + 1, samples => do
    forRange task.work.iterationsPerSample (fun _ _ => operation) ()
    let elapsedNs ← onSnd durationNs
    failIf (elapsedNs = 0) .invalidWorkload
    let samples := samples ++
      [{ elapsedNs := UInt64.ofNat elapsedNs, unitsProcessed := UInt64.ofNat unitsPerSample }]
    let taskNs ← onSnd durationNs
    if task.work.maxDurationNs ≤ taskNs then return samples
    else takeSamples task unitsPerSample operation n samples

def measureRepeated (task : CalibrationTask) (unitsPerIteration : Nat) (operation : Measuring τ Unit) :
    Measuring τ (List MeasurementSample) := do
  forRange task.work.warmupIterations (fun _ _ => do
    operation
    let taskNs ← onSnd durationNs
    failIf (task.work.maxDurationNs ≤ taskNs) .timeLimitReached) ()
  let unitsPerSample ← okOr (checkedMul unitsPerIteration task.work.iterationsPerSample)
    .invalidWorkload
  -- `Vec::with_capacity`: a sample is two `u64`.
  onSnd (record (.allocated (task.work.sampleCount * 16)))
  let samples ← takeSamples task unitsPerSample operation task.work.sampleCount []
  failIf (samples.isEmpty = true) .timeLimitReached
  return samples

end measure

/-- `measure_repeated` with its buffers, which nobody looks at afterwards. -/
def measureWith {τ : Type} (buffers : τ) (m : Measuring τ (List MeasurementSample)) :
    Asking (List MeasurementSample) := do
  let (samples, _) ← withLocal buffers m
  return samples

/-- The products of the dot product are thrown away; only the time counts. -/
def measureCpuFloat (task : CalibrationTask) : Asking (List MeasurementSample) := do
  let elements := task.work.elementsPerIteration
  failIf (elements = 0) .invalidWorkload
  record (.allocated (elements * 4))
  record (.allocated (elements * 4))
  measureWith () (measureRepeated task elements (pure ()))

/-- The byte that the source buffer of the copy test holds at a place. -/
def copySourceByte (index : Nat) : UInt8 := UInt8.ofNat index * 31

/-- `destination.copy_from_slice(&source)`. -/
def copySource (source : List UInt8) : Measuring (List UInt8) Unit := do
  let (destination, _) ← self
  let copied ← copyFromSlice destination source
  onFst (set copied)

def measureMemoryCopy (task : CalibrationTask) : Asking (List MeasurementSample) := do
  let bytes := task.work.bytesPerIteration
  failIf (bytes = 0) .invalidWorkload
  let source := (List.range bytes).map copySourceByte
  record (.allocated bytes)
  record (.allocated bytes)
  measureWith (List.replicate bytes 0) (measureRepeated task bytes (copySource source))

/-- One operation of the storage test: back to the start, then fill the buffer. -/
def readFromStart (length : Nat) : Asking Unit := do
  transfer
  record (.read length)
  transfer

def measureStorage (task : CalibrationTask) (storage : StorageProfile) :
    Asking (List MeasurementSample) := do
  openFile
  let fileBytes ← fileLength
  failIf (storage.fileSizeBytes.any (· ≠ fileBytes) = true) .dependencyUnavailable
  let bytesToRead := min task.work.bytesPerIteration fileBytes
  failIf (bytesToRead = 0) .dependencyUnavailable
  record (.allocated bytesToRead)
  measureWith () (measureRepeated task bytesToRead (onSnd (readFromStart bytesToRead)))

/-- A block of a made-up row, and the elements in it. -/
def quantizedBlock : CalibrationQuantization → Nat × List UInt8
  | .q4_0 => (Quant.qk4_0, LittleEndian.toBytes 2 0x3800 ++
      (List.range 16).map fun index => UInt8.ofNat index * 29 + 17)
  | .q8_0 => (Quant.qk8_0, LittleEndian.toBytes 2 0x3800 ++
      (List.range 32).map fun index => (Int8.ofInt ((index * 17 % 255 : Nat) - 127)).toUInt8)
  | .q4K => (Quant.qkK, LittleEndian.toBytes 2 0x3800 ++ LittleEndian.toBytes 2 0x3000 ++
      ((List.range 12).map fun index => UInt8.ofNat index * 11 + 3) ++
        (List.range 128).map fun index => UInt8.ofNat index * 37 + 19)

def makeQuantizedRow (format : CalibrationQuantization) (elements : Nat) : Option (List UInt8) :=
  let (elementsPerBlock, block) := quantizedBlock format
  if elements = 0 ∨ elements % elementsPerBlock ≠ 0 then none
  else some (List.replicate (elements / elementsPerBlock) block).flatten

/-- The row decoder of a format.  Its numbers are thrown away. -/
def decodeQuantizedRow : CalibrationQuantization → List UInt8 → Nat → Quant.Writing ℚ Unit
  | .q4_0 => Quant.dequantizeRowQ4_0
  | .q8_0 => Quant.dequantizeRowQ8_0
  | .q4K => Quant.dequantizeRowQ4K

def measureQuantized (task : CalibrationTask) (format : CalibrationQuantization) :
    Asking (List MeasurementSample) := do
  let elements := task.work.elementsPerIteration
  record (.allocated (quantizedBlock format).2.length)
  let encoded ← okOr (makeQuantizedRow format elements) .invalidWorkload
  record (.allocated encoded.length)
  record (.allocated (elements * 4))
  measureWith (List.replicate elements 0) (measureRepeated task elements
    (mapErr (fun _ => .invalidWorkload) (onFst (decodeQuantizedRow format encoded elements))))

/-! ## Observations -/

def observationShape : CalibrationTestKind →
    ObservationMetric × ObservationUnit × Option StrategyId × Option String
  | .cpuFloatDot => (.cpuFloatThroughput, .elementsPerSecond, none, none)
  | .memoryCopyBandwidth => (.memoryBandwidth, .bytesPerSecond, none, none)
  | .sequentialStorageRead => (.sequentialReadThroughput, .bytesPerSecond, none, none)
  | .storageReadLatency => (.randomReadLatency, .nanoseconds, none, none)
  | .quantizedRowDecode format =>
    (.quantizedDecodeThroughput, .elementsPerSecond, none, some format.formatName)
  | .strategyLatency strategy => (.strategyLatency, .nanoseconds, some strategy, none)

def nonMeasuredObservation (task : CalibrationTask) (level : CalibrationLevel)
    (status : ObservationStatus) (reason : ObservationStatusReason) : PerformanceObservation :=
  let (metric, unit, strategy, quantizationFormat) := observationShape task.kind
  { identifier := task.identifier
    metric := metric
    unit := unit
    value := none
    status := status
    statusReason := some reason
    strategy := strategy
    quantizationFormat := quantizationFormat
    calibrationLevel := level
    workloadBytes := task.work.bytesPerIteration
    workloadElements := task.work.elementsPerIteration
    measurementDurationNs := 0
    sampleCount := 0
    rawSamples := []
    timestampUnixSeconds := none
    qualityBasisPoints := 0 }

/-- `saturating_add` over the samples. -/
def saturatingTotal (part : MeasurementSample → Nat) (samples : List MeasurementSample) : Nat :=
  samples.foldl (fun total sample => saturatingAdd total (part sample)) 0

def measuredObservation (task : CalibrationTask) (level : CalibrationLevel)
    (samples : List MeasurementSample) : Outcome PlannerError PerformanceObservation := do
  let measurementDurationNs := saturatingTotal (·.elapsedNs.toNat) samples
  let totalUnits := saturatingTotal (·.unitsProcessed.toNat) samples
  let (metric, unit, strategy, quantizationFormat) := observationShape task.kind
  let value ← aggregateObservationValue unit samples
  match value with
  | none => return nonMeasuredObservation task level .failed .invalidWorkload
  | some value =>
    let qualityBasisPoints ← observationQualityBasisPoints samples
    return {
      identifier := task.identifier
      metric := metric
      unit := unit
      value := some value
      status := .measured
      statusReason := none
      strategy := strategy
      quantizationFormat := quantizationFormat
      calibrationLevel := level
      workloadBytes :=
        match unit with
        | .bytesPerSecond => totalUnits
        | .elementsPerSecond => 0
        | .nanoseconds => task.work.bytesPerIteration
      workloadElements :=
        match unit with
        | .bytesPerSecond => 0
        | .elementsPerSecond | .nanoseconds => totalUnits
      measurementDurationNs := measurementDurationNs
      sampleCount := samples.length
      rawSamples := samples
      timestampUnixSeconds := none
      qualityBasisPoints := qualityBasisPoints }

/-! ## Tasks -/

/-- A call of the runner. -/
abbrev Calibrating (α : Type) : Type := Exec CalibrationHost CalibrationError α

/-- The measurement of a task, for the kinds that have one. -/
def measurementOf (task : CalibrationTask) (storage : StorageProfile) :
    Option (Asking (List MeasurementSample)) :=
  match task.kind with
  | .cpuFloatDot => some (measureCpuFloat task)
  | .memoryCopyBandwidth => some (measureMemoryCopy task)
  | .sequentialStorageRead => some (measureStorage task storage)
  | .quantizedRowDecode format => some (measureQuantized task format)
  | .storageReadLatency | .strategyLatency _ => none

def executeTask (task : CalibrationTask) (level : CalibrationLevel) (storage : StorageProfile) :
    Calibrating PerformanceObservation :=
  match measurementOf task storage with
  | none => return nonMeasuredObservation task level .skipped .testNotImplemented
  | some measurement => do
    let measured ← attempt measurement
    match measured with
    | .ok samples => resume ((measuredObservation task level samples).mapErr .planner)
    | .error .dependencyUnavailable =>
      return nonMeasuredObservation task level .unavailable .dependencyUnavailable
    | .error .timeLimitReached =>
      return nonMeasuredObservation task level .skipped .timeLimitReached
    | .error reason => return nonMeasuredObservation task level .failed reason

def requirementAvailable (capabilities : CapabilitySet) : CalibrationRequirement → Bool
  | .cpuBackend => capabilities.cpuBackendUsable
  | .seekableStorage => capabilities.storageUsable
  | .modelExecution => capabilities.modelExecutionCompatible
  | .quantizationFormat format => capabilities.supportedTensorFormats.any (· = format)
  | .strategy .cpuLayerStreaming =>
    capabilities.cpuBackendUsable && capabilities.modelExecutionCompatible
  | .strategy .gpuLayerOffload =>
    capabilities.gpuBackendUsable && capabilities.modelExecutionCompatible

def unavailableRequirement (task : CalibrationTask) (capabilities : CapabilitySet) :
    Option ObservationStatusReason :=
  if task.requirements.all (requirementAvailable capabilities) then none
  else some .capabilityUnavailable

/-- The task asks for more than the limits of its plan. -/
def OverLimits (limits : CalibrationLimits) (task : CalibrationTask) : Prop :=
  limits.maxMemoryBytes < task.expectedResources.memoryBytes ∨
    limits.maxStorageReadBytes < task.expectedResources.storageReadBytes ∨
    limits.maxSamples < task.work.sampleCount ∨
    limits.maxIterationsPerSample < task.work.warmupIterations ∨
    limits.maxIterationsPerSample < task.work.iterationsPerSample ∨
    limits.maxTaskDurationNs < task.work.maxDurationNs

instance (limits : CalibrationLimits) (task : CalibrationTask) : Decidable (OverLimits limits task) :=
  inferInstanceAs (Decidable (_ ∨ _))

/-- The task was made for another model or storage. -/
def foreignTask (plan : CalibrationPlan) (task : CalibrationTask) : Bool :=
  task.modelFingerprint.any (· ≠ plan.modelFingerprint) ||
    task.storageFingerprint.any (· ≠ plan.storageFingerprint)

/-- The observation of a task, under a charge where the task is executed. -/
def observeTask (plan : CalibrationPlan) (storage : StorageProfile) (capabilities : CapabilitySet)
    (task : CalibrationTask) (remainingNs : Nat) :
    Exec (CalibrationHost × MemoryBudget) CalibrationError PerformanceObservation :=
  if remainingNs < task.work.maxDurationNs then
    return nonMeasuredObservation task plan.level .skipped .timeLimitReached
  else if foreignTask plan task then
    return nonMeasuredObservation task plan.level .unavailable .dependencyUnavailable
  else
    match unavailableRequirement task capabilities with
    | some reason => return nonMeasuredObservation task plan.level .unavailable reason
    | none =>
      if OverLimits plan.limits task then
        return nonMeasuredObservation task plan.level .skipped .resourceLimitExceeded
      else
        let chargeBytes := max task.expectedResources.memoryBytes 1
        MemoryBudget.withTemp CalibrationError.budget ("calibration:" ++ task.identifier) chargeBytes
          (onFst (do
            record (.charged chargeBytes)
            executeTask task plan.level storage))

def runTask (plan : CalibrationPlan) (storage : StorageProfile) (capabilities : CapabilitySet)
    (taskIndex : Nat) (task : CalibrationTask) :
    Exec (CalibrationHost × MemoryBudget) CalibrationError PerformanceObservation := do
  onFst (record (.started taskIndex))
  let elapsedNs ← onFst durationNs
  let observation ← observeTask plan storage capabilities task
    (plan.limits.maxTotalDurationNs - elapsedNs)
  onFst (record (.finished taskIndex observation))
  return observation

/-- The loop over the tasks. -/
def runTasks (plan : CalibrationPlan) (storage : StorageProfile) (capabilities : CapabilitySet) :
    Nat → List CalibrationTask →
      Exec (CalibrationHost × MemoryBudget) CalibrationError (List PerformanceObservation)
  | _, [] => return []
  | taskIndex, task :: rest => do
    let observation ← runTask plan storage capabilities taskIndex task
    let observations ← runTasks plan storage capabilities (taskIndex + 1) rest
    return observation :: observations

/-! ## The run -/

/-- A call on a budget of the caller's own, which it gets back. -/
def withBudget {κ ε α : Type} (budget : MemoryBudget) (m : Exec (κ × MemoryBudget) ε α) :
    Exec κ ε (α × MemoryBudget) := fun s =>
  match m (s, budget) with
  | (.ok a, (s', budget')) => (.ok (a, budget'), s')
  | (.err e, (s', _)) => (.err e, s')
  | (.panic p, (s', _)) => (.panic p, s')

def checkInputs (plan : CalibrationPlan) (user : UserProfile) (machine : MachineProfile)
    (model : ModelProfile) (storage : StorageProfile) (capabilities : CapabilitySet) :
    Calibrating Unit := do
  resume plan.validate
  resume (user.validate.mapErr .planner)
  resume (machine.validate.mapErr .planner)
  resume (model.validate.mapErr .planner)
  resume (storage.validate.mapErr .planner)
  resume (plan.limits.validate user)
  let availableRamBytes ← okOr machine.availableRamBytes
    (.invalidPlan "current available RAM is unknown")
  failIf (availableRamBytes < plan.limits.maxMemoryBytes)
    (.invalidPlan "calibration memory exceeds current available RAM")
  failIf (plan.level = .none) (.invalidPlan "none-level calibration cannot be executed")
  failIf (plan.level ≠ user.calibrationLevel ∨ plan.machineFingerprint ≠ machine.fingerprint ∨
      plan.modelFingerprint ≠ model.identity.descriptorFingerprint ∨
      plan.storageFingerprint ≠ storage.fingerprint ∨
      capabilities.schemaVersion ≠ profileSchemaVersion ∨
      capabilities.machineFingerprint ≠ plan.machineFingerprint ∨
      capabilities.modelFingerprint ≠ plan.modelFingerprint ∨
      capabilities.storageFingerprint ≠ plan.storageFingerprint)
    (.invalidPlan "calibration inputs do not match the plan")

/-- The result of a run. -/
def resultOf (plan : CalibrationPlan) (timestamp : Option Nat)
    (observations : List PerformanceObservation) : CalibrationResult where
  schemaVersion := profileSchemaVersion
  identifier := "calibration-result:" ++ plan.identifier
  level := plan.level
  machineFingerprint := plan.machineFingerprint
  modelFingerprint := some plan.modelFingerprint
  storageFingerprint := some plan.storageFingerprint
  calibrationPlanIdentifier := plan.identifier
  calibrationPlanVersion := plan.planVersion
  calibrationRulesetVersion := plan.rulesetVersion
  observations := observations.map fun observation =>
    { observation with timestampUnixSeconds := timestamp }

def runWithProgress (plan : CalibrationPlan) (user : UserProfile) (machine : MachineProfile)
    (model : ModelProfile) (storage : StorageProfile) (capabilities : CapabilitySet) :
    Calibrating CalibrationResult := do
  checkInputs plan user machine model storage capabilities
  let budget ← mapErr CalibrationError.budget (ofResult (MemoryBudget.new user.ramBudgetBytes))
  let (observations, budget) ← withBudget budget (runTasks plan storage capabilities 0 plan.tasks)
  -- `debug_assert_eq!` on `used_bytes`.
  let _ ← expect (if budget.used = 0 then some () else none) "assertion `left == right` failed"
  let host ← self
  let calibration := resultOf plan host.now observations
  resume (calibration.validate.mapErr .planner)
  return calibration

end Calibration
end Ramforge
