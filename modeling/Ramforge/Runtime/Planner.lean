/-
The planner: capabilities, the decisions of a plan, and its cost estimate.

`plan` checks every profile, then decides threads, GPU, cache and I/O in that
order.  Each decision is a call of its own here.
-/
import Ramforge.Runtime.PlannerCalibration

namespace Ramforge
namespace Planner

open Std Rust Rust.Outcome

def executionPlanSchemaVersion : Nat := 1

def plannerRulesetVersion : Nat := 2

/-- There is no GPU execution backend yet. -/
def gpuExecutionImplemented : Bool := false

/-! ## Capabilities -/

structure StrategyDefinition where
  id : StrategyId
  runtimeAvailable : Bool
  requiresGpu : Bool
deriving DecidableEq, Repr

def strategyRegistry : List StrategyDefinition :=
  [{ id := .cpuLayerStreaming, runtimeAvailable := true, requiresGpu := false },
    { id := .gpuLayerOffload, runtimeAvailable := gpuExecutionImplemented, requiresGpu := true }]

structure CapabilitySet where
  schemaVersion : Nat
  machineFingerprint : UInt64
  modelFingerprint : UInt64
  storageFingerprint : UInt64
  storageUsable : Bool
  cpuBackendUsable : Bool
  cpuSimdAvx2 : Bool
  gpuBackendUsable : Bool
  modelExecutionCompatible : Bool
  layerCachePossible : Bool
  readCoalescingPossible : Bool
  groupedReadBufferReusePossible : Bool
  supportedTensorFormats : List String
  unsupportedTensorFormats : List String
deriving DecidableEq, Repr

namespace CapabilitySet

def cpuStrategyAvailable : Bool :=
  strategyRegistry.any fun strategy =>
    strategy.id = .cpuLayerStreaming && !strategy.requiresGpu && strategy.runtimeAvailable

def gpuStrategyAvailable : Bool :=
  strategyRegistry.any fun strategy =>
    strategy.id = .gpuLayerOffload && strategy.requiresGpu && strategy.runtimeAvailable

def derive (machine : MachineProfile) (model : ModelProfile) (storage : StorageProfile)
    (staticPlan : PlanResult) : CapabilitySet :=
  let execution := staticPlan.executionMemory
  let storageUsable := storage.pathState = .ready && storage.readable && storage.regularFile &&
    storage.seekable
  let layerCachePossible := execution.any fun memory =>
    0 < memory.minLayerResidentBytes && memory.minLayerResidentBytes ≤ memory.layerCacheCapacityBytes
  let gpuHardwareUsable := machine.gpus.any fun gpu => gpu.backend.usable
  let supported := (model.tensorFormats.filter (·.runtimeSupported)).map (·.format)
  let unsupported := (model.tensorFormats.filter (!·.runtimeSupported)).map (·.format)
  { schemaVersion := profileSchemaVersion
    machineFingerprint := machine.fingerprint
    modelFingerprint := model.identity.descriptorFingerprint
    storageFingerprint := storage.fingerprint
    storageUsable := storageUsable
    cpuBackendUsable := machine.cpuBackend.usable && cpuStrategyAvailable
    cpuSimdAvx2 :=
      machine.cpuBackend.usable && cpuStrategyAvailable && machine.cpuFeatures.contains .avx2
    gpuBackendUsable := gpuHardwareUsable && gpuStrategyAvailable
    modelExecutionCompatible :=
      model.executionCompatibility = .executable && execution.isSome && unsupported.isEmpty
    layerCachePossible := layerCachePossible
    readCoalescingPossible :=
      execution.isSome && storageUsable && model.hasCoalescibleLayerReads
    groupedReadBufferReusePossible :=
      execution.isSome && storageUsable && model.hasReusableGroupedReadCandidate
    supportedTensorFormats := supported
    unsupportedTensorFormats := unsupported }

end CapabilitySet

/-! ## Presets -/

structure PresetPolicy where
  mode : OperatingMode
  threadFractionNumerator : Nat
  threadFractionDenominator : Nat
  layerCacheCapacityBasisPoints : Nat
  readCoalescing : Bool
  groupedReadBufferReuse : Bool
  allowGpu : Bool
deriving DecidableEq, Repr

def OperatingMode.policy (mode : OperatingMode) : PresetPolicy :=
  match mode with
  | .backgroundConstrained =>
    { mode := mode
      threadFractionNumerator := 1
      threadFractionDenominator := 2
      layerCacheCapacityBasisPoints := 0
      readCoalescing := true
      groupedReadBufferReuse := false
      allowGpu := false }
  | .balancedNormal | .advanced =>
    { mode := mode
      threadFractionNumerator := 3
      threadFractionDenominator := 4
      layerCacheCapacityBasisPoints := 5000
      readCoalescing := true
      groupedReadBufferReuse := true
      allowGpu := true }
  | .maximumPerformance =>
    { mode := mode
      threadFractionNumerator := 1
      threadFractionDenominator := 1
      layerCacheCapacityBasisPoints := 10000
      readCoalescing := true
      groupedReadBufferReuse := true
      allowGpu := true }

/-! ## Plans -/

inductive PlanReasonCode where
  | userRamBudgetPreserved
  | threadCountSelectedByPreset
  | threadCountSelectedByAdvancedOverride
  | cpuStrategySelected
  | gpuStrategySelected
  | gpuDisabledByUser
  | gpuUnavailable
  | layerCacheEnabledWithinStaticCapacity
  | layerCacheDisabledByPreset
  | layerCacheDisabledBecauseNoCompleteLayerFits
  | readCoalescingEnabled
  | readCoalescingDisabled
  | groupedReadBufferReuseEnabled
  | groupedReadBufferReuseDisabled
  | calibrationObservationsApplied
  | calibrationNotRequested
  | calibrationNotApplicable
deriving DecidableEq, Repr

structure PlanReason where
  code : PlanReasonCode
  value : Option Nat
deriving DecidableEq, Repr

structure LayerCacheDecision where
  enabled : Bool
  capacityBytes : Nat
deriving DecidableEq, Repr

structure IoDecision where
  readCoalescingEnabled : Bool
  groupedReadBufferReuseEnabled : Bool
deriving DecidableEq, Repr

structure GpuDecision where
  preference : GpuPreference
  enabled : Bool
  selectedDeviceId : Option String
deriving DecidableEq, Repr

structure ResourceReservations where
  availableRamBytesAtPlanning : Nat
  persistentResidentBytes : Nat
  persistentStartupPeakBytes : Nat
  largestLayerLoadPeakBytes : Nat
  managedLowerBoundBytes : Nat
  remainingBudgetAfterLowerBoundBytes : Nat
deriving DecidableEq, Repr

structure CostEstimate where
  physicalReadBytesPerForward : Nat
  calibratedReadTimeNsPerForward : Option Nat
  observedStrategyLatencyNs : Option Nat
deriving DecidableEq, Repr

structure CalibrationProvenance where
  calibrationIdentifier : Option String
  calibrationPlanIdentifier : Option String
  calibrationPlanVersion : Option Nat
  calibrationRulesetVersion : Option Nat
  observationIdentifiers : List String
deriving DecidableEq, Repr

structure PlanBinding where
  modelDescriptorFingerprint : UInt64
  machineFingerprint : UInt64
  storageFingerprint : UInt64
  modelPath : String
deriving DecidableEq, Repr

structure ExecutionPlan where
  schemaVersion : Nat
  rulesetVersion : Nat
  binding : PlanBinding
  mode : OperatingMode
  strategy : StrategyId
  ramBudgetBytes : Nat
  cpuThreadCount : Nat
  layerCache : LayerCacheDecision
  io : IoDecision
  gpu : GpuDecision
  reservations : ResourceReservations
  cost : CostEstimate
  calibration : CalibrationProvenance
  reasons : List PlanReason
deriving DecidableEq, Repr

/-! ## Decisions -/

def selectGpu (machine : MachineProfile) (requestedIdentifier : Option String) :
    Outcome PlannerError (Option String) :=
  let usable := (machine.gpus.filter fun gpu => gpu.backend.usable).insertionSort
    fun left right => left.identifier ≤ right.identifier
  match requestedIdentifier with
  | some identifier =>
    match usable.find? fun gpu => gpu.identifier = identifier with
    | some gpu => pure (some gpu.identifier)
    | none => .err (.infeasible .gpuRequiredButUnavailable)
  | none => pure (usable.head?.map GpuDeviceProfile.identifier)

def resolveCapabilityChoice (explicit : Option Bool) (policyDefault available : Bool)
    (rejection : FeasibilityRejection) : Outcome PlannerError Bool := do
  failIf (explicit = some true ∧ ¬available) (.infeasible rejection)
  pure (explicit.getD policyDefault && available)

/-- The thread count with its reason. -/
def decideThreads (user : UserProfile) (machine : MachineProfile) :
    Outcome PlannerError (Nat × PlanReasonCode) :=
  let policy := user.mode.policy
  let threadLimit := min machine.logicalCpuCores (user.cpuThreadLimit.getD machine.logicalCpuCores)
  match user.advanced.threadCount with
  | some requested => do
    failIf (threadLimit < requested) (.infeasible .requestedThreadCountUnavailable)
    pure (requested, .threadCountSelectedByAdvancedOverride)
  | none =>
    let selected :=
      saturatingMul threadLimit policy.threadFractionNumerator / policy.threadFractionDenominator
    pure (max selected 1, .threadCountSelectedByPreset)

def decideGpu (user : UserProfile) (machine : MachineProfile) (capabilities : CapabilitySet) :
    Outcome PlannerError GpuDecision := do
  let policy := user.mode.policy
  failIf (user.gpuPreference = .require ∧ (¬policy.allowGpu ∨ ¬capabilities.gpuBackendUsable))
    (.infeasible .gpuRequiredButUnavailable)
  failIf (user.advanced.gpuDeviceId.isSome ∧ ¬capabilities.gpuBackendUsable)
    (.infeasible .gpuRequiredButUnavailable)
  let gpuEnabled :=
    policy.allowGpu && user.gpuPreference != .disabled && capabilities.gpuBackendUsable
  let selectedDeviceId ←
    (if gpuEnabled then selectGpu machine user.advanced.gpuDeviceId else pure none)
  pure
    { preference := user.gpuPreference
      enabled := gpuEnabled
      selectedDeviceId := selectedDeviceId }

def wantsCache (user : UserProfile) : Bool :=
  user.advanced.layerCacheEnabled.getD (0 < user.mode.policy.layerCacheCapacityBasisPoints)

/-- The capacity asked for: none, the user's, or the preset's part of the static one. -/
def requestedCacheCapacity (user : UserProfile) (capabilities : CapabilitySet)
    (execution : ExecutionMemoryPlan) : Outcome PlannerError Nat :=
  if ¬wantsCache user ∨ ¬capabilities.layerCachePossible then pure 0
  else
    match user.advanced.layerCacheCapacityBytes with
    | some capacity => do
      failIf (execution.layerCacheCapacityBytes < capacity)
        (.infeasible .layerCacheCapacityExceedsStaticCapacity)
      pure capacity
    | none =>
      pure (execution.layerCacheCapacityBytes * user.mode.policy.layerCacheCapacityBasisPoints /
        10000 % u64Bound)

def decideCache (user : UserProfile) (capabilities : CapabilitySet)
    (execution : ExecutionMemoryPlan) : Outcome PlannerError LayerCacheDecision := do
  let cacheIsRequired := user.advanced.layerCacheEnabled = some true ∨
    user.advanced.layerCacheCapacityBytes.isSome
  failIf (cacheIsRequired ∧ ¬capabilities.layerCachePossible)
    (.infeasible .layerCacheRequiredButUnavailable)
  let requested ← requestedCacheCapacity user capabilities execution
  failIf (cacheIsRequired ∧ requested < execution.minLayerResidentBytes)
    (.infeasible .layerCacheCapacityCannotFitCompleteLayer)
  let cacheEnabled := decide (execution.minLayerResidentBytes ≤ requested ∧
    0 < execution.minLayerResidentBytes)
  pure { enabled := cacheEnabled, capacityBytes := if cacheEnabled then requested else 0 }

def decideIo (user : UserProfile) (capabilities : CapabilitySet) :
    Outcome PlannerError IoDecision := do
  let policy := user.mode.policy
  let readCoalescing ← resolveCapabilityChoice user.advanced.readCoalescingEnabled
    policy.readCoalescing capabilities.readCoalescingPossible .readCoalescingRequiredButUnavailable
  let groupedReadBufferReuse ← resolveCapabilityChoice
    user.advanced.groupedReadBufferReuseEnabled policy.groupedReadBufferReuse
    capabilities.groupedReadBufferReusePossible .groupedReadBufferReuseRequiredButUnavailable
  pure
    { readCoalescingEnabled := readCoalescing
      groupedReadBufferReuseEnabled := groupedReadBufferReuse }

/-! ## Cost -/

/-- Whether a calibration is good enough for the user and made for these inputs. -/
def calibrationApplies (user : UserProfile) (machineFingerprint modelFingerprint
    storageFingerprint : UInt64) (calibration : CalibrationResult) : Bool :=
  !(calibration.level.rank < user.calibrationLevel.rank ||
    calibration.machineFingerprint != machineFingerprint ||
    calibration.modelFingerprint.any (· != modelFingerprint) ||
    calibration.storageFingerprint.any (· != storageFingerprint))

/-- The estimate from a calibration that applies. -/
def calibratedCost (strategy : StrategyId) (execution : ExecutionMemoryPlan)
    (calibration : CalibrationResult) :
    Outcome PlannerError (CostEstimate × CalibrationProvenance × PlanReasonCode) := do
  let read := bestObservation calibration .sequentialReadThroughput none
  let readTime ←
    (match read with
    | some read => do
      let value ← expect read.value "measured observation validated above"
      some <$> ceilRateDurationNs execution.estimatedPhysicalBytesPerForward value
    | none => pure none)
  let latency := bestObservation calibration .strategyLatency (some strategy)
  let latencyNs ←
    (match latency with
    | some latency => some <$> expect latency.value "measured observation validated above"
    | none => pure none)
  let identifiers := ((read.map (·.identifier)).toList ++
    (latency.map (·.identifier)).toList).insertionSort (· ≤ ·)
  pure
    ({ physicalReadBytesPerForward := execution.estimatedPhysicalBytesPerForward
       calibratedReadTimeNsPerForward := readTime
       observedStrategyLatencyNs := latencyNs },
     { calibrationIdentifier := some calibration.identifier
       calibrationPlanIdentifier := some calibration.calibrationPlanIdentifier
       calibrationPlanVersion := some calibration.calibrationPlanVersion
       calibrationRulesetVersion := some calibration.calibrationRulesetVersion
       observationIdentifiers := identifiers },
     if identifiers.isEmpty then .calibrationNotApplicable else .calibrationObservationsApplied)

def estimateCost (user : UserProfile) (machineFingerprint modelFingerprint storageFingerprint : UInt64)
    (strategy : StrategyId) (execution : ExecutionMemoryPlan)
    (calibration : Option CalibrationResult) :
    Outcome PlannerError (CostEstimate × CalibrationProvenance × PlanReasonCode) :=
  let estimate : CostEstimate :=
    { physicalReadBytesPerForward := execution.estimatedPhysicalBytesPerForward
      calibratedReadTimeNsPerForward := none
      observedStrategyLatencyNs := none }
  let provenance : CalibrationProvenance :=
    { calibrationIdentifier := none
      calibrationPlanIdentifier := none
      calibrationPlanVersion := none
      calibrationRulesetVersion := none
      observationIdentifiers := [] }
  if user.calibrationLevel = .none then pure (estimate, provenance, .calibrationNotRequested)
  else
    match calibration with
    | none => pure (estimate, provenance, .calibrationNotApplicable)
    | some calibration =>
      if calibrationApplies user machineFingerprint modelFingerprint storageFingerprint calibration
      then calibratedCost strategy execution calibration
      else pure (estimate, provenance, .calibrationNotApplicable)

/-! ## The plan -/

def validateCalibration : Option CalibrationResult → Outcome PlannerError Unit
  | some calibration => calibration.validate
  | none => pure ()

/-- The static plan was made for the same budget and model. -/
def matchesProfiles (staticPlan : PlanResult) (user : UserProfile) (model : ModelProfile) : Bool :=
  staticPlan.ramRequested = user.ramBudgetBytes && staticPlan.fileSize = model.fileSizeBytes &&
    staticPlan.tensorCount = model.tensorCount && staticPlan.architecture = model.architecture

/-- The reasons, but for the one about the calibration. -/
def decisionReasons (user : UserProfile) (threads : Nat × PlanReasonCode) (gpu : GpuDecision)
    (layerCache : LayerCacheDecision) (io : IoDecision) : List PlanReason :=
  [{ code := .userRamBudgetPreserved, value := some user.ramBudgetBytes },
    { code := threads.2, value := some threads.1 },
    { code := if gpu.enabled then .gpuStrategySelected else .cpuStrategySelected, value := none }] ++
  (if gpu.enabled then []
    else
      [{ code := if user.gpuPreference = .disabled then .gpuDisabledByUser else .gpuUnavailable
         value := none }]) ++
  [{ code :=
      if layerCache.enabled then .layerCacheEnabledWithinStaticCapacity
      else if !wantsCache user then .layerCacheDisabledByPreset
      else .layerCacheDisabledBecauseNoCompleteLayerFits
     value := some layerCache.capacityBytes },
    { code := if io.readCoalescingEnabled then .readCoalescingEnabled else .readCoalescingDisabled
      value := none },
    { code :=
        if io.groupedReadBufferReuseEnabled then .groupedReadBufferReuseEnabled
        else .groupedReadBufferReuseDisabled
      value := none }]

def plan (user : UserProfile) (machine : MachineProfile) (model : ModelProfile)
    (storage : StorageProfile) (capabilities : CapabilitySet) (staticPlan : PlanResult)
    (calibration : Option CalibrationResult) : Outcome PlannerError ExecutionPlan := do
  user.validate
  machine.validate
  model.validate
  storage.validate
  validateCalibration calibration
  failIf (capabilities ≠ CapabilitySet.derive machine model storage staticPlan)
    (.infeasible .staticPlanDoesNotMatchProfiles)
  failIf (¬matchesProfiles staticPlan user model) (.infeasible .staticPlanDoesNotMatchProfiles)
  failIf (storage.fileSizeBytes.any (· != model.fileSizeBytes)) (.infeasible .storageModelSizeMismatch)
  let totalRamBytes ← okOr machine.totalRamBytes (.infeasible .machineMemoryUnavailable)
  let availableRamBytes ← okOr machine.availableRamBytes (.infeasible .machineMemoryUnavailable)
  failIf (totalRamBytes < user.ramBudgetBytes) (.infeasible .ramBudgetExceedsTotalRam)
  failIf (availableRamBytes < user.ramBudgetBytes) (.infeasible .ramBudgetExceedsAvailableRam)
  failIf (¬capabilities.storageUsable) (.infeasible .storageNotUsable)
  failIf (¬capabilities.cpuBackendUsable) (.infeasible .cpuBackendUnavailable)
  failIf (¬capabilities.modelExecutionCompatible) (.infeasible .modelNotExecutable)
  let execution ← okOr staticPlan.executionMemory (.infeasible .executionPreflightUnavailable)
  failIf (¬execution.layerStreamingLowerBoundFits ∨
      user.ramBudgetBytes < execution.managedLowerBoundBytes)
    (.infeasible .managedMemoryLowerBoundExceedsBudget)
  let threads ← decideThreads user machine
  let gpu ← decideGpu user machine capabilities
  let strategy := if gpu.enabled then StrategyId.gpuLayerOffload else .cpuLayerStreaming
  let layerCache ← decideCache user capabilities execution
  let io ← decideIo user capabilities
  let (cost, provenance, calibrationReason) ← estimateCost user machine.fingerprint
    model.identity.descriptorFingerprint storage.fingerprint strategy execution calibration
  pure
    { schemaVersion := executionPlanSchemaVersion
      rulesetVersion := plannerRulesetVersion
      binding :=
        { modelDescriptorFingerprint := model.identity.descriptorFingerprint
          machineFingerprint := machine.fingerprint
          storageFingerprint := storage.fingerprint
          modelPath := storage.modelPath }
      mode := user.mode
      strategy := strategy
      ramBudgetBytes := user.ramBudgetBytes
      cpuThreadCount := threads.1
      layerCache := layerCache
      io := io
      gpu := gpu
      reservations :=
        { availableRamBytesAtPlanning := availableRamBytes
          persistentResidentBytes := execution.persistentResidentBytes
          persistentStartupPeakBytes := execution.persistentStartupPeakBytes
          largestLayerLoadPeakBytes := execution.largestLayerLoadPeakBytes
          managedLowerBoundBytes := execution.managedLowerBoundBytes
          remainingBudgetAfterLowerBoundBytes :=
            saturatingSub user.ramBudgetBytes execution.managedLowerBoundBytes }
      cost := cost
      calibration := provenance
      reasons := decisionReasons user threads gpu layerCache io ++
        [{ code := calibrationReason, value := some provenance.observationIdentifiers.length }] }

end Planner
end Ramforge
