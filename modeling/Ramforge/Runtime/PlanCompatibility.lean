/-
Stored plans in the environment of the moment: what the report says about one, and what
is left of it when the compiler takes it.
-/
import Ramforge.Runtime.CalibrationOrder
import Ramforge.Runtime.PlanStorage

namespace Ramforge
namespace Planner

open Std Rust Rust.Outcome

inductive PlanCompatibility where
  | valid
  | compatibleRecalibrationRecommended
  | incompatible
deriving DecidableEq, Repr

inductive PlanCompatibilityReason where
  | persistedPlanInvalid
  | modelFingerprintMismatch
  | planCompilationFailed (error : PlanCompilationError)
  | calibrationNotApplied
  | calibrationMissing
  | calibrationInvalid
  | calibrationSourceMachineChanged
  | calibrationSourceStorageChanged
  | calibrationProvenanceMismatch
  | calibrationBindingMismatch
  | calibrationObservationUnavailable
deriving DecidableEq, Repr

structure PlanCompatibilityReport where
  state : PlanCompatibility
  reasons : List PlanCompatibilityReason
deriving DecidableEq, Repr

structure PersistedPlanCompatibilityContext where
  compilation : PlanCompilationContext
  calibration : Option CalibrationResult

/-- `Result::is_err`, of a call that may also panic. -/
def isErr {ε α : Type} : Outcome ε α → Outcome Empty Bool
  | .ok _ => pure false
  | .err _ => pure true
  | .panic p => .panic p

namespace PersistedExecutionPlan

/-! ## The report -/

def calibrationReason (plan : PersistedExecutionPlan) : Option PlanReasonCode :=
  plan.reasons.findSome? fun reason =>
    match reason.code with
    | .calibrationObservationsApplied | .calibrationNotRequested | .calibrationNotApplicable =>
      some reason.code
    | _ => none

def calibrationMismatchReason (plan : PersistedExecutionPlan)
    (context : PersistedPlanCompatibilityContext) :
    Outcome Empty (Option PlanCompatibilityReason) :=
  match context.calibration with
  | none => pure (some .calibrationMissing)
  | some calibration => do
    let machine := context.compilation.machine.fingerprint
    let model := context.compilation.model.identity.descriptorFingerprint
    let storage := context.compilation.storage.fingerprint
    let invalid ← isErr calibration.validate
    if invalid then pure (some .calibrationInvalid)
    else if plan.sourceMachineFingerprint ≠ machine then
      pure (some .calibrationSourceMachineChanged)
    else if plan.sourceStorageFingerprint ≠ storage then
      pure (some .calibrationSourceStorageChanged)
    else if calibration.identifier ≠ plan.calibration.calibrationIdentifier.getD "" ∨
        some calibration.calibrationPlanIdentifier ≠ plan.calibration.calibrationPlanIdentifier ∨
        some calibration.calibrationPlanVersion ≠ plan.calibration.calibrationPlanVersion ∨
        some calibration.calibrationRulesetVersion ≠ plan.calibration.calibrationRulesetVersion then
      pure (some .calibrationProvenanceMismatch)
    else if calibration.machineFingerprint ≠ machine ∨
        calibration.modelFingerprint.any (· ≠ model) ∨
        calibration.storageFingerprint.any (· ≠ storage) then
      pure (some .calibrationBindingMismatch)
    else if plan.calibration.observationIdentifiers.any fun identifier =>
        !calibration.observations.any fun observation =>
          observation.identifier = identifier && observation.status = .measured then
      pure (some .calibrationObservationUnavailable)
    else pure none

def recalibrationReasons (plan : PersistedExecutionPlan)
    (context : PersistedPlanCompatibilityContext) : Outcome Empty (List PlanCompatibilityReason) :=
  match plan.calibrationReason with
  | some .calibrationNotRequested => pure []
  | some .calibrationNotApplicable => pure [.calibrationNotApplied]
  | some .calibrationObservationsApplied => do
    let reason ← plan.calibrationMismatchReason context
    pure reason.toList
  | _ => pure [.calibrationNotApplied]

def compatibilityReport (plan : PersistedExecutionPlan)
    (context : PersistedPlanCompatibilityContext) : Outcome Empty PlanCompatibilityReport := do
  let invalid ← isErr plan.validateStructure
  if invalid then pure { state := .incompatible, reasons := [.persistedPlanInvalid] }
  else if plan.modelDescriptorFingerprint ≠
      context.compilation.model.identity.descriptorFingerprint then
    pure { state := .incompatible, reasons := [.modelFingerprintMismatch] }
  else
    let candidate := plan.materializeForContext context.compilation
    match PlanCompiler.compile candidate context.compilation with
    | .err error => pure { state := .incompatible, reasons := [.planCompilationFailed error] }
    | .panic p => .panic p
    | .ok _ => do
      let reasons ← plan.recalibrationReasons context
      pure
        { state := if reasons = [] then .valid else .compatibleRecalibrationRecommended
          reasons := reasons }

end PersistedExecutionPlan

/-! ## No panic -/

theorem isErr_eq {ε α : Type} {m : Outcome ε α} (h : Total m) : ∃ b, isErr m = .ok b := by
  cases m with
  | ok a => exact ⟨false, rfl⟩
  | err e => exact ⟨true, rfl⟩
  | panic p => exact absurd rfl (h p)

theorem total_mapErr {ε ε' α : Type} {m : Outcome ε α} (f : ε → ε') (h : Total m) :
    Total (m.mapErr f) := by
  cases m with
  | ok a => exact total_ok a
  | err e => exact total_err _
  | panic p => exact absurd rfl (h p)

theorem Availability.total_validate (availability : Availability) (profile : String) :
    Total (availability.validate profile) :=
  (total_failIf _ _).bind fun _ => total_failIf _ _

theorem MachineProfile.total_validateGpus (gpus : List GpuDeviceProfile)
    (identifiers : ExtTreeSet String) : Total (validateGpus gpus identifiers) := by
  induction gpus generalizing identifiers with
  | nil => exact total_ok ()
  | cons gpu rest ih =>
    exact (total_failIf _ _).bind fun _ => (gpu.backend.total_validate _).bind fun _ => ih _

theorem MachineProfile.total_validate (machine : MachineProfile) : Total machine.validate :=
  (total_failIf _ _).bind fun _ => (total_failIf _ _).bind fun _ => (total_failIf _ _).bind fun _ =>
    (total_failIf _ _).bind fun _ => (machine.cpuBackend.total_validate _).bind fun _ =>
      (total_failIf _ _).bind fun _ => total_validateGpus _ _

theorem ModelProfile.total_validate (model : ModelProfile) : Total model.validate :=
  (total_failIf _ _).bind fun _ => (total_failIf _ _).bind fun _ => total_failIf _ _

theorem StorageProfile.total_validate (storage : StorageProfile) : Total storage.validate :=
  (total_failIf _ _).bind fun _ => (total_failIf _ _).bind fun _ => (total_failIf _ _).bind fun _ =>
    total_failIf _ _

namespace PlanCompiler

variable (plan : ExecutionPlan) (context : PlanCompilationContext) (execution : ExecutionMemoryPlan)

theorem total_validateContext : Total (validateContext context) :=
  (total_mapErr _ context.machine.total_validate).bind fun _ =>
    (total_mapErr _ context.model.total_validate).bind fun _ =>
      (total_mapErr _ context.storage.total_validate).bind fun _ => total_failIf _ _

theorem total_validateBindings : Total (validateBindings plan context) :=
  (total_failIf _ _).bind fun _ => (total_failIf _ _).bind fun _ => (total_failIf _ _).bind fun _ =>
    total_failIf _ _

theorem total_validateStaticPlan : Total (validateStaticPlan plan context) :=
  (total_failIf _ _).bind fun _ => (total_failIf _ _).bind fun _ => (total_failIf _ _).bind fun _ =>
    (total_failIf _ _).bind fun _ => (total_failIf _ _).bind fun _ => (total_failIf _ _).bind fun _ =>
      total_okOr _ _

theorem total_validateResourceLimits : Total (validateResourceLimits plan context) :=
  (total_failIf _ _).bind fun _ => (total_okOr _ _).bind fun _ => (total_okOr _ _).bind fun _ =>
    (total_failIf _ _).bind fun _ => (total_failIf _ _).bind fun _ => (total_failIf _ _).bind fun _ =>
      (total_failIf _ _).bind fun _ => (total_failIf _ _).bind fun _ => total_failIf _ _

theorem total_validateRepeated (reservations : ResourceReservations) :
    Total (validateRepeated reservations execution) :=
  (total_failIf _ _).bind fun _ => (total_failIf _ _).bind fun _ => (total_failIf _ _).bind fun _ =>
    (total_failIf _ _).bind fun _ => total_ok ()

theorem total_validateReservations : Total (validateReservations plan execution) :=
  (total_failIf _ _).bind fun _ => (total_failIf _ _).bind fun _ =>
    (total_validateRepeated execution _).bind fun _ => (total_okOr _ _).bind fun _ =>
      (total_failIf _ _).bind fun _ => total_failIf _ _

theorem total_validateCache (capabilities : CapabilitySet) :
    Total (validateCache plan capabilities execution) := by
  unfold validateCache
  split
  · exact total_ok ()
  · exact (total_failIf _ _).bind fun _ => (total_failIf _ _).bind fun _ => total_failIf _ _

theorem total_compile : Total (compile plan context) := by
  refine Total.bind ?_ fun _ => (PersistedExecutionPlan.total_validateConcreteDecisions plan).bind fun _ =>
    (total_validateContext context).bind fun _ => (total_validateBindings plan context).bind fun _ =>
      (total_validateStaticPlan plan context).bind fun execution =>
        (total_validateResourceLimits plan context).bind fun _ =>
          (total_validateReservations plan execution).bind fun _ =>
            (total_validateCache plan execution context.capabilities).bind fun _ =>
              Total.bind ?_ fun _ => total_mapErr _ ?_
  · exact (total_failIf _ _).bind fun _ => total_failIf _ _
  · exact (total_failIf _ _).bind fun _ => total_failIf _ _
  · refine Total.bind ?_ fun _ => total_ok _
    exact (total_failIf _ _).bind fun _ => (total_failIf _ _).bind fun _ =>
      (total_failIf _ _).bind fun _ => (total_failIf _ _).bind fun _ => total_failIf _ _

end PlanCompiler

/-! ## What compiled -/

namespace PlanCompiler

variable {p : ExecutionPlan} {context : PlanCompilationContext} {execution : ExecutionMemoryPlan}

/-- The compiler takes nothing that it would have to decide itself, and no GPU plan. -/
theorem of_validateConcreteDecisions_ok (h : validateConcreteDecisions p = .ok ()) :
    p.cpuThreadCount ≠ 0 ∧ p.ramBudgetBytes ≠ 0 ∧
      p.layerCache.enabled = decide (0 < p.layerCache.capacityBytes) ∧
      p.strategy = .cpuLayerStreaming ∧
      p.gpu.enabled = false ∧ p.gpu.selectedDeviceId = none ∧ p.gpu.preference ≠ .require := by
  obtain ⟨hthreads, h⟩ := of_failIf_bind_ok h
  obtain ⟨hbudget, h⟩ := of_failIf_bind_ok h
  obtain ⟨hcache, h⟩ := of_failIf_bind_ok h
  cases hstrategy : p.strategy with
  | cpuLayerStreaming =>
    rw [hstrategy] at h
    have hgpu := of_failIf_ok h
    simp only [not_or, Bool.not_eq_true, Option.isSome_eq_false_iff, Option.isNone_iff_eq_none] at hgpu
    exact ⟨hthreads, hbudget, not_not.mp hcache, rfl, hgpu⟩
  | gpuLayerOffload =>
    rw [hstrategy] at h
    obtain ⟨-, h⟩ := of_failIf_bind_ok h
    cases h

theorem of_validateContext_ok (h : validateContext context = .ok ()) :
    context.machine.validate = .ok () ∧ context.model.validate = .ok () ∧
      context.storage.validate = .ok () ∧
      context.capabilities =
        CapabilitySet.derive context.machine context.model context.storage context.staticPlan := by
  obtain ⟨_, hmachine, h⟩ := of_bind_ok h
  obtain ⟨_, hmodel, h⟩ := of_bind_ok h
  obtain ⟨_, hstorage, h⟩ := of_bind_ok h
  exact ⟨of_mapErr_ok hmachine, of_mapErr_ok hmodel, of_mapErr_ok hstorage,
    not_not.mp (of_failIf_ok h)⟩

theorem of_validateStaticPlan_ok (h : validateStaticPlan p context = .ok execution) :
    context.staticPlan.executionMemory = some execution ∧
      context.staticPlan.executionPreflightError = none ∧
      context.staticPlan.ramRequested = p.ramBudgetBytes ∧
      context.staticPlan.fileSize = context.model.fileSizeBytes ∧
      context.staticPlan.tensorCount = context.model.tensorCount ∧
      context.staticPlan.architecture = context.model.architecture ∧
      context.storage.fileSizeBytes = some context.model.fileSizeBytes := by
  obtain ⟨hram, h⟩ := of_failIf_bind_ok h
  obtain ⟨hsize, h⟩ := of_failIf_bind_ok h
  obtain ⟨htensors, h⟩ := of_failIf_bind_ok h
  obtain ⟨harchitecture, h⟩ := of_failIf_bind_ok h
  obtain ⟨hstorage, h⟩ := of_failIf_bind_ok h
  obtain ⟨hpreflight, h⟩ := of_failIf_bind_ok h
  have hmemory : context.staticPlan.executionMemory = some execution := by
    cases hmemory : context.staticPlan.executionMemory with
    | none =>
      rw [hmemory] at h
      cases h
    | some planned =>
      rw [hmemory] at h
      exact congrArg some (Outcome.ok.inj h)
  refine ⟨hmemory, ?_, not_not.mp hram, not_not.mp hsize, not_not.mp htensors,
    not_not.mp harchitecture, not_not.mp hstorage⟩
  rw [hmemory] at hpreflight
  exact Option.not_isSome_iff_eq_none.mp fun hsome => hpreflight ⟨rfl, hsome⟩

/-- Every limit is one of the context, none is one that the plan brings along. -/
theorem of_validateResourceLimits_ok (h : validateResourceLimits p context = .ok ()) :
    p.cpuThreadCount ≤ context.machine.logicalCpuCores ∧
      (∃ total available, context.machine.totalRamBytes = some total ∧
        context.machine.availableRamBytes = some available ∧ p.ramBudgetBytes ≤ available ∧
        p.reservations.availableRamBytesAtPlanning ≤ total) ∧
      context.capabilities.storageUsable = true ∧ context.capabilities.cpuBackendUsable = true ∧
      context.capabilities.modelExecutionCompatible = true := by
  obtain ⟨hthreads, h⟩ := of_failIf_bind_ok h
  obtain ⟨total, htotal, h⟩ := of_okOr_bind_ok h
  obtain ⟨available, havailable, h⟩ := of_okOr_bind_ok h
  obtain ⟨-, h⟩ := of_failIf_bind_ok h
  obtain ⟨hplanning, h⟩ := of_failIf_bind_ok h
  obtain ⟨hbudget, h⟩ := of_failIf_bind_ok h
  obtain ⟨hstorage, h⟩ := of_failIf_bind_ok h
  obtain ⟨hcpu, h⟩ := of_failIf_bind_ok h
  exact ⟨Nat.not_lt.mp hthreads,
    ⟨total, available, htotal, havailable, Nat.not_lt.mp hbudget, Nat.not_lt.mp hplanning⟩,
    not_not.mp hstorage, not_not.mp hcpu, not_not.mp (of_failIf_ok h)⟩

theorem of_validateRepeated_ok {reservations : ResourceReservations}
    (h : validateRepeated reservations execution = .ok ()) :
    reservations.persistentResidentBytes = execution.persistentResidentBytes ∧
      reservations.persistentStartupPeakBytes = execution.persistentStartupPeakBytes ∧
      reservations.largestLayerLoadPeakBytes = execution.largestLayerLoadPeakBytes ∧
      reservations.managedLowerBoundBytes = execution.managedLowerBoundBytes := by
  obtain ⟨hresident, h⟩ := of_failIf_bind_ok h
  obtain ⟨hstartup, h⟩ := of_failIf_bind_ok h
  obtain ⟨hlayer, h⟩ := of_failIf_bind_ok h
  obtain ⟨hlower, -⟩ := of_failIf_bind_ok h
  exact ⟨not_not.mp hresident, not_not.mp hstartup, not_not.mp hlayer, not_not.mp hlower⟩

theorem of_validateReservations_ok (h : validateReservations p execution = .ok ()) :
    execution.layerStreamingLowerBoundFits = true ∧
      execution.managedLowerBoundBytes ≤ p.ramBudgetBytes ∧
      p.ramBudgetBytes ≤ p.reservations.availableRamBytesAtPlanning ∧
      validateRepeated p.reservations execution = .ok () ∧
      p.reservations.remainingBudgetAfterLowerBoundBytes =
        p.ramBudgetBytes - execution.managedLowerBoundBytes ∧
      execution.layerCacheCapacityBytes = p.ramBudgetBytes - execution.managedLowerBoundBytes := by
  obtain ⟨hfits, h⟩ := of_failIf_bind_ok h
  obtain ⟨hbudget, h⟩ := of_failIf_bind_ok h
  obtain ⟨_, hrepeated, h⟩ := of_bind_ok h
  obtain ⟨remaining, hremaining, h⟩ := of_okOr_bind_ok h
  obtain ⟨hrest, h⟩ := of_failIf_bind_ok h
  obtain ⟨-, rfl⟩ := checkedSub_eq_some.mp hremaining
  obtain ⟨-, -, -, hlower⟩ := of_validateRepeated_ok hrepeated
  rw [hlower] at hrest h
  simp only [not_or, not_not, Nat.not_lt] at hfits
  exact ⟨hfits.1, hfits.2, Nat.not_lt.mp hbudget, hrepeated, not_not.mp hrest,
    not_not.mp (of_failIf_ok h)⟩

theorem of_validateCache_ok {capabilities : CapabilitySet}
    (h : validateCache p capabilities execution = .ok ()) (henabled : p.layerCache.enabled = true) :
    capabilities.layerCachePossible = true ∧
      execution.minLayerResidentBytes ≤ p.layerCache.capacityBytes ∧
      p.layerCache.capacityBytes ≤ execution.layerCacheCapacityBytes := by
  rw [validateCache, if_neg (not_not.mpr henabled)] at h
  obtain ⟨hpossible, h⟩ := of_failIf_bind_ok h
  obtain ⟨hcapacity, h⟩ := of_failIf_bind_ok h
  exact ⟨not_not.mp hpossible, Nat.not_lt.mp (of_failIf_ok h), Nat.not_lt.mp hcapacity⟩

/-- A plan that is bound to its context compiles only where it is compilable there. -/
theorem compilable_of_compile {config : RuntimeConfig}
    (hbinding : p.binding =
      { modelDescriptorFingerprint := context.model.identity.descriptorFingerprint
        machineFingerprint := context.machine.fingerprint
        storageFingerprint := context.storage.fingerprint
        modelPath := context.storage.modelPath })
    (havailable : ∀ available, context.machine.availableRamBytes = some available →
      p.reservations.availableRamBytesAtPlanning = available)
    (h : compile p context = .ok config) :
    ∃ execution, Compilable p context execution ∧ config = p.runtimeConfig := by
  obtain ⟨_, hheader, h⟩ := of_bind_ok h
  obtain ⟨hschema, hruleset⟩ := of_failIf_bind_ok hheader
  obtain ⟨_, hdecisions, h⟩ := of_bind_ok h
  obtain ⟨hthreads, hbudget, hcache, hstrategy, hgpu⟩ := of_validateConcreteDecisions_ok hdecisions
  obtain ⟨_, hcontext, h⟩ := of_bind_ok h
  obtain ⟨hmachine, hmodel, hstorage, hderived⟩ := of_validateContext_ok hcontext
  obtain ⟨_, -, h⟩ := of_bind_ok h
  obtain ⟨execution, hstatic, h⟩ := of_bind_ok h
  obtain ⟨hmemory, hpreflight, hram, hsize, htensors, harchitecture, hstorageSize⟩ :=
    of_validateStaticPlan_ok hstatic
  obtain ⟨_, hlimits, h⟩ := of_bind_ok h
  obtain ⟨hthreadsLe, ⟨total, available, htotal, hnow, hbudgetLe, hplanning⟩, hstorageUsable, hcpu,
    hexecutable⟩ := of_validateResourceLimits_ok hlimits
  obtain ⟨_, hreservations, h⟩ := of_bind_ok h
  obtain ⟨hfits, hlower, hreserved, hrepeated, hremaining, hcapacity⟩ :=
    of_validateReservations_ok hreservations
  obtain ⟨hresident, hstartup, hlayer, hlowerEq⟩ := of_validateRepeated_ok hrepeated
  obtain ⟨_, hcacheChecks, h⟩ := of_bind_ok h
  obtain ⟨_, hio, h⟩ := of_bind_ok h
  obtain ⟨hcoalescing, hgrouped⟩ := of_failIf_bind_ok hio
  have hgrouped := of_failIf_ok hgrouped
  have hnew := of_mapErr_ok h
  obtain ⟨_, -, hconfig⟩ := of_bind_ok hnew
  refine ⟨execution, ?_, (Outcome.ok.inj hconfig).symm⟩
  exact
    { header := ⟨not_not.mp hschema, not_not.mp (of_failIf_ok hruleset)⟩
      strategy := hstrategy
      threads := hthreads
      threads_le := hthreadsLe
      ramBudget := hbudget
      cache := hcache
      cacheSound :=
        { enabled := fun henabled => (of_validateCache_ok hcacheChecks henabled).2
          disabled := fun hdisabled => by
            rw [hcache, decide_eq_false_iff_not] at hdisabled
            exact Nat.eq_zero_of_not_pos hdisabled }
      cachePossible := fun henabled => (of_validateCache_ok hcacheChecks henabled).1
      gpu := hgpu
      io :=
        ⟨fun hon => not_not.mp fun hno => hcoalescing ⟨hon, hno⟩,
          fun hon => not_not.mp fun hno => hgrouped ⟨hon, hno⟩⟩
      binding := hbinding
      available := by rw [hnow, havailable available hnow]
      total := ⟨total, htotal, hplanning⟩
      budget_le := hreserved
      lowerBound_le := hlower
      resident := hresident
      startupPeak := hstartup
      layerPeak := hlayer
      lowerBound := hlowerEq
      remaining := hremaining
      capacity := hcapacity
      executionMemory := hmemory
      preflight := hpreflight
      fits := hfits
      ramRequested := hram
      fileSize := hsize
      tensorCount := htensors
      architecture := harchitecture
      storageSize := hstorageSize
      machineValid := hmachine
      modelValid := hmodel
      storageValid := hstorage
      derived := hderived
      storageUsable := hstorageUsable
      cpuUsable := hcpu
      modelCompatible := hexecutable }

end PlanCompiler

/-- What a configuration keeps to on a machine with the given memory, for a static plan. -/
structure SafeConfig (config : RuntimeConfig) (cores : Nat) (execution : ExecutionMemoryPlan)
    (available total : Nat) : Prop where
  threads_pos : 1 ≤ config.cpuThreadCount
  threads_le : config.cpuThreadCount ≤ cores
  lowerBound_le : execution.managedLowerBoundBytes ≤ config.ramBudgetBytes
  budget_le : config.ramBudgetBytes ≤ available
  available_le : available ≤ total
  cache_off : config.layerCacheEnabled = false → config.layerCacheCapacityBytes = 0
  cache_on : config.layerCacheEnabled = true →
    execution.minLayerResidentBytes ≤ config.layerCacheCapacityBytes ∧
      config.layerCacheCapacityBytes ≤ config.ramBudgetBytes - execution.managedLowerBoundBytes

theorem Compilable.safe {p : ExecutionPlan} {context : PlanCompilationContext}
    {execution : ExecutionMemoryPlan} (h : Compilable p context execution) :
    ∃ available total, context.machine.availableRamBytes = some available ∧
      context.machine.totalRamBytes = some total ∧
      SafeConfig p.runtimeConfig context.machine.logicalCpuCores execution available total := by
  obtain ⟨total, htotal, hle⟩ := h.total
  refine ⟨p.reservations.availableRamBytesAtPlanning, total, h.available, htotal, ?_⟩
  exact
    { threads_pos := Nat.pos_of_ne_zero h.threads
      threads_le := h.threads_le
      lowerBound_le := h.lowerBound_le
      budget_le := h.budget_le
      available_le := hle
      cache_off := h.cacheSound.disabled
      cache_on := fun henabled => by
        obtain ⟨hmin, -⟩ := h.cacheSound.enabled henabled
        exact ⟨hmin, h.capacity_le⟩ }

namespace PersistedExecutionPlan

variable {plan : PersistedExecutionPlan} {context : PlanCompilationContext}

/-- A stored plan is bound to the context before it is compiled, so that the checks are
against the context. -/
theorem compilable_of_compileRuntimeConfig {config : RuntimeConfig}
    (h : plan.compileRuntimeConfig context = .ok config) :
    plan.modelDescriptorFingerprint = context.model.identity.descriptorFingerprint ∧
      ∃ execution, Compilable (plan.materializeForContext context) context execution ∧
        config = (plan.materializeForContext context).runtimeConfig := by
  obtain ⟨_, -, h⟩ := of_bind_ok h
  obtain ⟨hmodel, h⟩ := of_failIf_bind_ok h
  have hmodel := not_not.mp hmodel
  refine ⟨hmodel, PlanCompiler.compilable_of_compile ?_ ?_ (of_mapErr_ok h)⟩
  · rw [← hmodel]
    rfl
  · intro available havailable
    show context.machine.availableRamBytes.getD _ = available
    rw [havailable]
    rfl

theorem calibrationMismatchReason_ok (plan : PersistedExecutionPlan)
    (context : PersistedPlanCompatibilityContext) :
    ∃ reason, plan.calibrationMismatchReason context = .ok reason ∧
      reason ≠ some .persistedPlanInvalid := by
  unfold calibrationMismatchReason
  split
  next => exact ⟨_, rfl, (by decide)⟩
  next calibration _ =>
    obtain ⟨invalid, hinvalid⟩ := isErr_eq calibration.total_validate
    simp only [hinvalid, ok_bind]
    by_cases h : invalid = true
    · exact ⟨_, if_pos h, (by decide)⟩
    rw [if_neg h]
    repeat' split
    all_goals exact ⟨_, rfl, (by decide)⟩

theorem recalibrationReasons_ok (plan : PersistedExecutionPlan)
    (context : PersistedPlanCompatibilityContext) :
    ∃ reasons, plan.recalibrationReasons context = .ok reasons ∧ .persistedPlanInvalid ∉ reasons := by
  unfold recalibrationReasons
  split
  next => exact ⟨_, rfl, (by decide)⟩
  next => exact ⟨_, rfl, (by decide)⟩
  next =>
    obtain ⟨reason, hreason, hne⟩ := plan.calibrationMismatchReason_ok context
    refine ⟨reason.toList, by rw [hreason]; rfl, fun hmem => hne ?_⟩
    exact Option.mem_toList.mp hmem
  next => exact ⟨_, rfl, (by decide)⟩

/-- The report of a plan whose structure is accepted. -/
theorem compatibilityReport_ok {plan : PersistedExecutionPlan}
    (hvalid : plan.validateStructure = .ok ()) (context : PersistedPlanCompatibilityContext) :
    ∃ report, plan.compatibilityReport context = .ok report ∧
      ((∃ config, plan.compileRuntimeConfig context.compilation = .ok config) ↔
        report.state ≠ .incompatible) ∧
      .persistedPlanInvalid ∉ report.reasons := by
  have hstructure : isErr plan.validateStructure = .ok false := by
    rw [hvalid]
    rfl
  rw [compatibilityReport, hstructure, ok_bind, if_neg Bool.false_ne_true, compileRuntimeConfig,
    hvalid]
  by_cases hmodel : plan.modelDescriptorFingerprint ≠
      context.compilation.model.identity.descriptorFingerprint
  · rw [if_pos hmodel]
    refine ⟨_, rfl, ⟨fun h => ?_, fun h => absurd rfl h⟩, (by decide)⟩
    obtain ⟨config, h⟩ := h
    exact absurd hmodel (of_failIf_bind_ok h).1
  · rw [if_neg hmodel]
    show ∃ report, _ ∧ ((∃ config, (failIf _ _ >>= _) = .ok config) ↔ _) ∧ _
    rw [failIf_of_not hmodel, ok_bind]
    have htotal := PlanCompiler.total_compile (plan.materializeForContext context.compilation)
      context.compilation
    cases hcompile : PlanCompiler.compile (plan.materializeForContext context.compilation)
        context.compilation with
    | err error =>
      refine ⟨{ state := .incompatible, reasons := [.planCompilationFailed error] }, ?_,
        ⟨fun h => ?_, fun h => absurd rfl h⟩, ?_⟩
      · simp only [hcompile]
        rfl
      · obtain ⟨config, h⟩ := h
        simp only [hcompile] at h
        cases h
      · exact fun hmem => (by cases List.mem_singleton.mp hmem)
    | panic p => exact absurd hcompile (htotal p)
    | ok config =>
      obtain ⟨reasons, hreasons, hnot⟩ := plan.recalibrationReasons_ok context
      refine ⟨{ state := if reasons = [] then .valid else .compatibleRecalibrationRecommended
                reasons := reasons }, ?_, ⟨fun _ => ?_, fun _ => ⟨config, ?_⟩⟩, hnot⟩
      · simp only [hcompile, hreasons]
        rfl
      · show (if reasons = [] then PlanCompatibility.valid
          else .compatibleRecalibrationRecommended) ≠ .incompatible
        split <;> decide
      · simp only [hcompile]
        rfl

/-- For an accepted encoding, the report and the compiler agree, and what compiles is safe
in the context that it was compiled for. -/
theorem compiles_iff_compatible {bytes : List UInt8} {plan : PersistedExecutionPlan}
    (context : PersistedPlanCompatibilityContext) (h : fromBytes bytes = .ok plan) :
    ∃ report, plan.compatibilityReport context = .ok report ∧
      ((∃ config, plan.compileRuntimeConfig context.compilation = .ok config) ↔
        report.state ≠ .incompatible) ∧
      .persistedPlanInvalid ∉ report.reasons ∧
      ∀ config, plan.compileRuntimeConfig context.compilation = .ok config →
        plan.modelDescriptorFingerprint =
          context.compilation.model.identity.descriptorFingerprint ∧
        ∃ execution available total,
          context.compilation.staticPlan.executionMemory = some execution ∧
          context.compilation.machine.availableRamBytes = some available ∧
          context.compilation.machine.totalRamBytes = some total ∧
          SafeConfig config context.compilation.machine.logicalCpuCores execution available
            total := by
  obtain ⟨hvalid, -⟩ := of_fromBytes_ok h
  obtain ⟨report, hreport, hiff, hnot⟩ := compatibilityReport_ok hvalid context
  refine ⟨report, hreport, hiff, hnot, fun config hconfig => ?_⟩
  obtain ⟨hmodel, execution, hcompilable, rfl⟩ := compilable_of_compileRuntimeConfig hconfig
  obtain ⟨available, total, havailable, htotal, hsafe⟩ := hcompilable.safe
  exact ⟨hmodel, execution, available, total, hcompilable.executionMemory, havailable, htotal, hsafe⟩

/-! ### A plan of another machine -/

/-- Planned on a machine with other fingerprints and more memory. -/
def movedPlan : PersistedExecutionPlan :=
  { samplePlan with
    modelDescriptorFingerprint := sampleModel.identity.descriptorFingerprint
    ramBudgetBytes := 10000
    layerCache :=
      { enabled := true
        capacityBytes := 3000 }
    reservations :=
      { availableRamBytesAtPlanning := 40000
        persistentResidentBytes := sampleExecution.persistentResidentBytes
        persistentStartupPeakBytes := sampleExecution.persistentStartupPeakBytes
        largestLayerLoadPeakBytes := sampleExecution.largestLayerLoadPeakBytes
        managedLowerBoundBytes := sampleExecution.managedLowerBoundBytes
        remainingBudgetAfterLowerBoundBytes := 6832 } }

def sampleContext : PersistedPlanCompatibilityContext where
  compilation :=
    { machine := sampleMachine
      model := sampleModel
      storage := sampleStorage
      capabilities := sampleCapabilities
      staticPlan := sampleStaticPlan }
  calibration := none

theorem movedPlan_fits : movedPlan.Fits where
  persistenceSchema := by decide
  executionSchema := by decide
  ruleset := by decide
  ramBudget := by decide
  threads := by decide
  layerCache := by unfold LayerCacheDecision.Fits; decide
  reservations := by constructor <;> decide
  cost := samplePlan_fits.cost
  calibration := samplePlan_fits.calibration
  reasons := samplePlan_fits.reasons

theorem movedPlan_compiles : ∃ bytes report, ∃ config : RuntimeConfig,
    fromBytes bytes = .ok movedPlan ∧
    movedPlan.compatibilityReport sampleContext = .ok report ∧
    report.state ≠ .incompatible ∧
    movedPlan.compileRuntimeConfig sampleContext.compilation = .ok config ∧
    SafeConfig config 8 sampleExecution 24000 32000 := by
  have hvalid : movedPlan.validateStructure = .ok () := by decide +kernel
  obtain ⟨bytes, hput, hshort⟩ : ∃ bytes, putPlan movedPlan [] = (.ok (), bytes) ∧
      ¬maxPersistedPlanBytes < bytes.length :=
    ⟨(putPlan movedPlan []).2, Prod.ext (by decide +kernel) rfl, by decide +kernel⟩
  have hbytes := fromBytes_of_put [] hvalid movedPlan_fits hput (by rwa [List.append_nil])
  rw [List.append_nil, if_pos rfl] at hbytes
  obtain ⟨config, hconfig⟩ : ∃ config,
      movedPlan.compileRuntimeConfig sampleContext.compilation = .ok config :=
    exists_of_isOk (by decide +kernel)
  obtain ⟨report, hreport, hiff, -, hsafe⟩ := compiles_iff_compatible sampleContext hbytes
  obtain ⟨-, execution, available, total, hexecution, havailable, htotal, hsafe⟩ :=
    hsafe config hconfig
  cases hexecution
  cases havailable
  cases htotal
  exact ⟨bytes, report, config, hbytes, hreport, hiff.mp ⟨config, hconfig⟩, hconfig, hsafe⟩

end PersistedExecutionPlan
end Planner
end Ramforge
