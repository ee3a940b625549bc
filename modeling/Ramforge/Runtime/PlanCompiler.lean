/-
The boundary between the planner and the runtime: a plan is checked against its
context and made into a runtime configuration.
-/
import Ramforge.Runtime.Planner
import Ramforge.Runtime.RuntimeConfig

namespace Ramforge
namespace Planner

open Std Rust Rust.Outcome

/-- `Path == Path` compares components: separators in a row, separators at the end and
`.` behind the beginning do not count. -/
def pathComponents (path : String) : Bool × List (List Char) :=
  let parts := path.toList.splitOn '/'
  let absolute := path.toList.head? = some '/'
  (absolute, parts.zipIdx.filterMap fun (part, i) =>
    if part = [] ∨ (part = ['.'] ∧ (i ≠ 0 ∨ absolute)) then none else some part)

structure PlanCompilationContext where
  machine : MachineProfile
  model : ModelProfile
  storage : StorageProfile
  capabilities : CapabilitySet
  staticPlan : PlanResult

inductive PlanCompilationError where
  | unsupportedSchemaVersion (found supported : Nat)
  | unsupportedRulesetVersion (found supported : Nat)
  | invalidContext (component : String)
  | bindingMismatch (binding : String)
  | staticPlanMismatch (field : String)
  | zeroThreadCount
  | threadCountExceedsLimit (requested limit : Nat)
  | zeroRamBudget
  | ramBudgetExceedsTotalRam (requested limit : Nat)
  | ramBudgetExceedsAvailableRam (requested limit : Nat)
  | storageUnavailable
  | cpuExecutionUnavailable
  | modelExecutionUnavailable
  | executionPreflightUnavailable
  | managedMemoryLowerBoundExceedsBudget (lowerBoundBytes ramBudgetBytes : Nat)
  | reservationMismatch (field : String)
  | layerCacheStateInconsistent
  | layerCacheUnavailable
  | layerCacheCapacityExceedsLimit (requested limit : Nat)
  | layerCacheCapacityCannotFitLayer (requested minimum : Nat)
  | readCoalescingUnavailable
  | groupedReadBufferReuseUnavailable
  | inconsistentGpuDecision
  | unsupportedGpuExecution
  | invalidRuntimeConfig (error : RuntimeConfigError)
deriving DecidableEq, Repr

namespace PlanCompiler

def validatePlanHeader (plan : ExecutionPlan) : Outcome PlanCompilationError Unit := do
  failIf (plan.schemaVersion ≠ executionPlanSchemaVersion)
    (.unsupportedSchemaVersion plan.schemaVersion executionPlanSchemaVersion)
  failIf (plan.rulesetVersion ≠ plannerRulesetVersion)
    (.unsupportedRulesetVersion plan.rulesetVersion plannerRulesetVersion)

def validateConcreteDecisions (plan : ExecutionPlan) : Outcome PlanCompilationError Unit := do
  failIf (plan.cpuThreadCount = 0) .zeroThreadCount
  failIf (plan.ramBudgetBytes = 0) .zeroRamBudget
  failIf (plan.layerCache.enabled ≠ decide (0 < plan.layerCache.capacityBytes))
    .layerCacheStateInconsistent
  match plan.strategy with
  | .cpuLayerStreaming =>
    failIf (plan.gpu.enabled ∨ plan.gpu.selectedDeviceId.isSome ∨ plan.gpu.preference = .require)
      .inconsistentGpuDecision
  | .gpuLayerOffload => do
    failIf (¬plan.gpu.enabled ∨ plan.gpu.selectedDeviceId.isNone ∨ plan.gpu.preference = .disabled)
      .inconsistentGpuDecision
    .err .unsupportedGpuExecution

def validateContext (context : PlanCompilationContext) : Outcome PlanCompilationError Unit := do
  context.machine.validate.mapErr fun _ => .invalidContext "machine profile"
  context.model.validate.mapErr fun _ => .invalidContext "model profile"
  context.storage.validate.mapErr fun _ => .invalidContext "storage profile"
  let derived := CapabilitySet.derive context.machine context.model context.storage
    context.staticPlan
  failIf (context.capabilities ≠ derived)
    (.invalidContext "capability set does not match current profiles and static plan")

def validateBindings (plan : ExecutionPlan) (context : PlanCompilationContext) :
    Outcome PlanCompilationError Unit := do
  failIf (plan.binding.machineFingerprint ≠ context.machine.fingerprint)
    (.bindingMismatch "machine fingerprint")
  failIf (plan.binding.modelDescriptorFingerprint ≠ context.model.identity.descriptorFingerprint)
    (.bindingMismatch "model descriptor fingerprint")
  failIf (plan.binding.storageFingerprint ≠ context.storage.fingerprint)
    (.bindingMismatch "storage fingerprint")
  failIf (pathComponents plan.binding.modelPath ≠ pathComponents context.storage.modelPath)
    (.bindingMismatch "model path")

def validateStaticPlan (plan : ExecutionPlan) (context : PlanCompilationContext) :
    Outcome PlanCompilationError ExecutionMemoryPlan := do
  failIf (context.staticPlan.ramRequested ≠ plan.ramBudgetBytes) (.staticPlanMismatch "RAM budget")
  failIf (context.staticPlan.fileSize ≠ context.model.fileSizeBytes)
    (.staticPlanMismatch "model file size")
  failIf (context.staticPlan.tensorCount ≠ context.model.tensorCount)
    (.staticPlanMismatch "tensor count")
  failIf (context.staticPlan.architecture ≠ context.model.architecture)
    (.staticPlanMismatch "architecture")
  failIf (context.storage.fileSizeBytes ≠ some context.model.fileSizeBytes)
    (.staticPlanMismatch "storage/model file size")
  failIf (context.staticPlan.executionMemory.isSome ∧
      context.staticPlan.executionPreflightError.isSome)
    (.staticPlanMismatch "execution preflight state")
  okOr context.staticPlan.executionMemory .executionPreflightUnavailable

def validateResourceLimits (plan : ExecutionPlan) (context : PlanCompilationContext) :
    Outcome PlanCompilationError Unit := do
  failIf (context.machine.logicalCpuCores < plan.cpuThreadCount)
    (.threadCountExceedsLimit plan.cpuThreadCount context.machine.logicalCpuCores)
  let totalRam ← okOr context.machine.totalRamBytes
    (.invalidContext "machine total RAM is unavailable")
  let availableRam ← okOr context.machine.availableRamBytes
    (.invalidContext "machine available RAM is unavailable")
  failIf (totalRam < plan.ramBudgetBytes) (.ramBudgetExceedsTotalRam plan.ramBudgetBytes totalRam)
  failIf (totalRam < plan.reservations.availableRamBytesAtPlanning)
    (.reservationMismatch "available RAM at planning exceeds total RAM")
  failIf (availableRam < plan.ramBudgetBytes)
    (.ramBudgetExceedsAvailableRam plan.ramBudgetBytes availableRam)
  failIf (¬context.capabilities.storageUsable) .storageUnavailable
  failIf (¬context.capabilities.cpuBackendUsable) .cpuExecutionUnavailable
  failIf (¬context.capabilities.modelExecutionCompatible) .modelExecutionUnavailable

/-- The loop over the reservations that the execution plan repeats. -/
def validateRepeated (reservations : ResourceReservations) (execution : ExecutionMemoryPlan) :
    Outcome PlanCompilationError Unit :=
  [(reservations.persistentResidentBytes, execution.persistentResidentBytes,
      "persistent resident bytes"),
    (reservations.persistentStartupPeakBytes, execution.persistentStartupPeakBytes,
      "persistent startup peak bytes"),
    (reservations.largestLayerLoadPeakBytes, execution.largestLayerLoadPeakBytes,
      "largest layer load peak bytes"),
    (reservations.managedLowerBoundBytes, execution.managedLowerBoundBytes,
      "managed-memory lower bound")].forM fun (reserved, planned, field) =>
    failIf (reserved ≠ planned) (.reservationMismatch field)

def validateReservations (plan : ExecutionPlan) (execution : ExecutionMemoryPlan) :
    Outcome PlanCompilationError Unit := do
  failIf (¬execution.layerStreamingLowerBoundFits ∨
      plan.ramBudgetBytes < execution.managedLowerBoundBytes)
    (.managedMemoryLowerBoundExceedsBudget execution.managedLowerBoundBytes plan.ramBudgetBytes)
  failIf (plan.reservations.availableRamBytesAtPlanning < plan.ramBudgetBytes)
    (.reservationMismatch "available RAM at planning")
  validateRepeated plan.reservations execution
  let remaining ← okOr (checkedSub plan.ramBudgetBytes plan.reservations.managedLowerBoundBytes)
    (.managedMemoryLowerBoundExceedsBudget plan.reservations.managedLowerBoundBytes
      plan.ramBudgetBytes)
  failIf (plan.reservations.remainingBudgetAfterLowerBoundBytes ≠ remaining)
    (.reservationMismatch "remaining budget after lower bound")
  failIf (execution.layerCacheCapacityBytes ≠ remaining)
    (.staticPlanMismatch "layer-cache capacity/lower-bound relationship")

def validateCache (plan : ExecutionPlan) (capabilities : CapabilitySet)
    (execution : ExecutionMemoryPlan) : Outcome PlanCompilationError Unit :=
  if ¬plan.layerCache.enabled then pure ()
  else do
    failIf (¬capabilities.layerCachePossible) .layerCacheUnavailable
    failIf (execution.layerCacheCapacityBytes < plan.layerCache.capacityBytes)
      (.layerCacheCapacityExceedsLimit plan.layerCache.capacityBytes
        execution.layerCacheCapacityBytes)
    failIf (plan.layerCache.capacityBytes < execution.minLayerResidentBytes)
      (.layerCacheCapacityCannotFitLayer plan.layerCache.capacityBytes
        execution.minLayerResidentBytes)

def validateIo (plan : ExecutionPlan) (capabilities : CapabilitySet) :
    Outcome PlanCompilationError Unit := do
  failIf (plan.io.readCoalescingEnabled ∧ ¬capabilities.readCoalescingPossible)
    .readCoalescingUnavailable
  failIf (plan.io.groupedReadBufferReuseEnabled ∧ ¬capabilities.groupedReadBufferReusePossible)
    .groupedReadBufferReuseUnavailable

def compile (plan : ExecutionPlan) (context : PlanCompilationContext) :
    Outcome PlanCompilationError RuntimeConfig := do
  validatePlanHeader plan
  validateConcreteDecisions plan
  validateContext context
  validateBindings plan context
  let execution ← validateStaticPlan plan context
  validateResourceLimits plan context
  validateReservations plan execution
  validateCache plan context.capabilities execution
  validateIo plan context.capabilities
  (RuntimeConfig.new plan.cpuThreadCount plan.ramBudgetBytes plan.layerCache.enabled
    plan.layerCache.capacityBytes plan.io.readCoalescingEnabled
    plan.io.groupedReadBufferReuseEnabled).mapErr .invalidRuntimeConfig

end PlanCompiler
end Planner
end Ramforge
