/-
From the planner to the runtime: a plan that the planner returns is compiled, and
survives being stored.

The planner, the compiler and the stored form check the same decisions with rules of
their own.  `Accepted` is what a returned plan has passed; every later check follows
from it and from the static plan.
-/
import Ramforge.Runtime.PlanFormat
import Ramforge.Runtime.PlanModel
import Ramforge.Runtime.PlannerSoundness

namespace Ramforge
namespace Planner

open Std Rust Rust.Outcome

/-! ## Calibrations -/

theorem le_of_clamped {raw : Option Nat} {cap value : Nat}
    (h : (raw.map fun value => min value cap).filter (0 < ·) = some value) : value ≤ cap := by
  obtain ⟨hmin, -⟩ := Option.filter_eq_some_iff.mp h
  obtain ⟨unclamped, -, hvalue⟩ := Option.map_eq_some_iff.mp hmin
  rw [← hvalue]
  exact Nat.min_le_right _ _

theorem aggregateObservationValue_lt {unit : ObservationUnit} {samples : List MeasurementSample}
    {value : Nat} (h : aggregateObservationValue unit samples = .ok (some value)) :
    value < u64Bound := by
  unfold aggregateObservationValue at h
  refine Nat.lt_of_le_of_lt ?_ (Nat.sub_one_lt (by decide : u64Bound ≠ 0))
  split at h
  · cases h
  obtain ⟨_, -, h⟩ := of_bind_ok h
  obtain ⟨units, -, h⟩ := of_bind_ok h
  -- the two rates have one branch more than the latency
  cases unit with
  | nanoseconds =>
    obtain ⟨_, -, h⟩ := of_bind_ok h
    exact le_of_clamped (Outcome.ok.inj h)
  | bytesPerSecond | elementsPerSecond =>
    generalize U128.mul units 1000000000 = scaled at h
    cases scaled with
    | none => exact le_of_clamped (Outcome.ok.inj h)
    | some scaled =>
      obtain ⟨_, -, h⟩ := of_bind_ok h
      exact le_of_clamped (Outcome.ok.inj h)

/-- What the planner relies on in an accepted observation. -/
structure PerformanceObservation.Valid (observation : PerformanceObservation) : Prop where
  identifier : observation.identifier ≠ ""
  value_lt : observation.status = .measured → ∀ value, observation.value = some value →
    value < u64Bound

theorem PerformanceObservation.validate_ok {observation : PerformanceObservation}
    (h : observation.validate = .ok ()) : observation.Valid := by
  obtain ⟨hidentity, h⟩ := of_failIf_bind_ok h
  obtain ⟨-, h⟩ := of_failIf_bind_ok h
  obtain ⟨-, h⟩ := of_failIf_bind_ok h
  obtain ⟨-, h⟩ := of_failIf_bind_ok h
  refine ⟨fun hempty => hidentity (.inl hempty), fun hmeasured value hvalue => ?_⟩
  rw [hmeasured] at h
  obtain ⟨-, h⟩ := of_failIf_bind_ok h
  obtain ⟨_, -, h⟩ := of_bind_ok h
  obtain ⟨-, h⟩ := of_failIf_bind_ok h
  obtain ⟨aggregate, haggregate, h⟩ := of_bind_ok h
  rw [← not_not.mp (of_failIf_ok h), hvalue] at haggregate
  exact aggregateObservationValue_lt haggregate

namespace CalibrationResult

/-- Observations are accepted in any order. -/
theorem validateObservations_eq_ok {level : CalibrationLevel}
    {observations : List PerformanceObservation} {identifiers : ExtTreeSet String} :
    validateObservations level observations identifiers = .ok () ↔
      (∀ observation ∈ observations, observation.validate = .ok () ∧
        observation.calibrationLevel = level ∧ observation.identifier ∉ identifiers) ∧
      (observations.map (·.identifier)).Nodup := by
  induction observations generalizing identifiers with
  | nil => exact ⟨fun _ => ⟨fun _ hmem => (by cases hmem), List.nodup_nil⟩, fun _ => rfl⟩
  | cons observation rest ih =>
    rw [List.forall_mem_cons, List.map_cons, List.nodup_cons]
    constructor
    · intro h
      obtain ⟨_, hvalid, h⟩ := of_bind_ok h
      obtain ⟨hlevel, h⟩ := of_failIf_bind_ok h
      obtain ⟨hfresh, h⟩ := of_failIf_bind_ok h
      obtain ⟨hrest, hdistinct⟩ := ih.mp h
      have hnew : ∀ other ∈ rest, other.identifier ≠ observation.identifier ∧
          other.identifier ∉ identifiers := by
        intro other hother
        have hnot := (hrest other hother).2.2
        rw [ExtTreeSet.mem_insert, not_or] at hnot
        exact ⟨fun heq => hnot.1 (by rw [heq]; exact ReflCmp.compare_self), hnot.2⟩
      refine ⟨⟨⟨hvalid, not_not.mp hlevel, ?_⟩, ?_⟩, ?_, hdistinct⟩
      · exact fun hmem => hfresh (ExtTreeSet.contains_iff_mem.mpr hmem)
      · exact fun other hother =>
          ⟨(hrest other hother).1, (hrest other hother).2.1, (hnew other hother).2⟩
      · intro hmem
        obtain ⟨other, hother, heq⟩ := List.mem_map.mp hmem
        exact (hnew other hother).1 heq
    · rintro ⟨⟨⟨hvalid, hlevel, hfresh⟩, hrest⟩, hnotin, hdistinct⟩
      rw [validateObservations, hvalid, ok_bind, failIf_of_not (not_not.mpr hlevel), ok_bind,
        failIf_of_not (fun hmem => hfresh (ExtTreeSet.contains_iff_mem.mp hmem)), ok_bind]
      refine ih.mpr ⟨fun other hother => ?_, hdistinct⟩
      obtain ⟨hvalidOther, hlevelOther, hfreshOther⟩ := hrest other hother
      refine ⟨hvalidOther, hlevelOther, fun hmem => ?_⟩
      rw [ExtTreeSet.mem_insert] at hmem
      refine hmem.elim (fun heq => hnotin ?_) hfreshOther
      rw [LawfulEqCmp.eq_of_compare heq]
      exact List.mem_map_of_mem hother

/-- What the planner relies on in an accepted calibration. -/
structure Valid (calibration : CalibrationResult) : Prop where
  identifier : calibration.identifier ≠ ""
  planIdentifier : calibration.calibrationPlanIdentifier ≠ ""
  planVersion : calibration.calibrationPlanVersion = Planner.calibrationPlanVersion
  rulesetVersion : calibration.calibrationRulesetVersion = Planner.calibrationRulesetVersion
  observations : ∀ observation ∈ calibration.observations, observation.Valid
  distinct : (calibration.observations.map (·.identifier)).Nodup

theorem validate_ok {calibration : CalibrationResult} (h : calibration.validate = .ok ()) :
    calibration.Valid := by
  obtain ⟨hheader, h⟩ := of_failIf_bind_ok h
  simp only [not_or, not_not] at hheader
  obtain ⟨-, hidentifier, -, -, -, -, hplan, hplanVersion, hruleset⟩ := hheader
  obtain ⟨hobservations, hdistinct⟩ := validateObservations_eq_ok.mp h
  exact
    { identifier := hidentifier
      planIdentifier := hplan
      planVersion := hplanVersion
      rulesetVersion := hruleset
      observations := fun observation hmem =>
        PerformanceObservation.validate_ok (hobservations observation hmem).1
      distinct := hdistinct }

end CalibrationResult

theorem of_bestObservation {calibration : CalibrationResult} {metric : ObservationMetric}
    {strategy : Option StrategyId} {observation : PerformanceObservation}
    (h : bestObservation calibration metric strategy = some observation) :
    observation ∈ calibration.observations ∧ observation.status = .measured ∧
      observation.metric = metric := by
  obtain ⟨hmem, hkind⟩ := List.mem_filter.mp (mem_of_maxBy h)
  simp only [decide_eq_true_eq] at hkind
  exact ⟨hmem, hkind.1, hkind.2.1⟩

/-! ## The cost of a plan -/

/-- No calibration was used. -/
def CalibrationProvenance.unused : CalibrationProvenance where
  calibrationIdentifier := none
  calibrationPlanIdentifier := none
  calibrationPlanVersion := none
  calibrationRulesetVersion := none
  observationIdentifiers := []

/-- These observations of a calibration were used. -/
def CalibrationProvenance.of (calibration : CalibrationResult) (identifiers : List String) :
    CalibrationProvenance where
  calibrationIdentifier := some calibration.identifier
  calibrationPlanIdentifier := some calibration.calibrationPlanIdentifier
  calibrationPlanVersion := some calibration.calibrationPlanVersion
  calibrationRulesetVersion := some calibration.calibrationRulesetVersion
  observationIdentifiers := identifiers

/-- At most two observations of an accepted calibration, by name. -/
structure Named (calibration : CalibrationResult) (identifiers : List String) : Prop where
  length : identifiers.length ≤ 2
  nodup : identifiers.Nodup
  nonempty : ∀ identifier ∈ identifiers, identifier ≠ ""

/-- How a plan accounts for its calibration. -/
inductive Accounted (calibration : Option CalibrationResult) :
    CalibrationProvenance → PlanReasonCode → Prop where
  | notRequested : Accounted calibration .unused .calibrationNotRequested
  | notApplicable : Accounted calibration .unused .calibrationNotApplicable
  | nothingMeasured (c : CalibrationResult) (h : calibration = some c) (hvalid : c.Valid) :
      Accounted calibration (.of c []) .calibrationNotApplicable
  | applied (c : CalibrationResult) (h : calibration = some c) (hvalid : c.Valid)
      (identifiers : List String) (hnamed : Named c identifiers) (hne : identifiers ≠ []) :
      Accounted calibration (.of c identifiers) .calibrationObservationsApplied

/-- The cost of a plan is one that can be stored. -/
structure Costed (execution : ExecutionMemoryPlan) (cost : CostEstimate) : Prop where
  bytes : cost.physicalReadBytesPerForward = execution.estimatedPhysicalBytesPerForward
  readTime : ∀ n, cost.calibratedReadTimeNsPerForward = some n → n < u64Bound
  latency : ∀ n, cost.observedStrategyLatencyNs = some n → n < u64Bound

theorem Costed.uncalibrated (execution : ExecutionMemoryPlan) :
    Costed execution
      { physicalReadBytesPerForward := execution.estimatedPhysicalBytesPerForward
        calibratedReadTimeNsPerForward := none
        observedStrategyLatencyNs := none } :=
  ⟨rfl, fun _ hn => (by cases hn), fun _ hn => (by cases hn)⟩

theorem ceilRateDurationNs_lt {units unitsPerSecond duration : Nat}
    (h : ceilRateDurationNs units unitsPerSecond = .ok duration) : duration < u64Bound := by
  obtain ⟨_, -, h⟩ := of_bind_ok h
  obtain ⟨_, -, h⟩ := of_bind_ok h
  rw [← Outcome.ok.inj h]
  exact Nat.lt_of_le_of_lt (Nat.min_le_right _ _) (Nat.sub_one_lt (by decide))

section cost

variable {strategy : StrategyId} {execution : ExecutionMemoryPlan} {cost : CostEstimate}
  {provenance : CalibrationProvenance} {reason : PlanReasonCode}

/-- The names of the observations that were used: one for each metric. -/
theorem named_observations (strategy : StrategyId) {calibration : CalibrationResult} (h : calibration.Valid) :
    Named calibration
      ((((bestObservation calibration .sequentialReadThroughput none).map (·.identifier)).toList ++
        ((bestObservation calibration .strategyLatency (some strategy)).map
          (·.identifier)).toList).insertionSort (· ≤ ·)) := by
  have hperm := fun names : List String => List.perm_insertionSort (· ≤ ·) names
  have hshort : ∀ o : Option String, o.toList.length ≤ 1 := fun o => by cases o <;> simp
  refine ⟨?_, (hperm _).nodup_iff.mpr ?_, fun identifier hmem => ?_⟩
  · rw [(hperm _).length_eq, List.length_append]
    exact Nat.add_le_add (hshort _) (hshort _)
  · refine List.nodup_append.mpr ⟨?_, ?_, ?_⟩
    · cases bestObservation calibration .sequentialReadThroughput none <;> simp
    · cases bestObservation calibration .strategyLatency (some strategy) <;> simp
    · intro a ha b hb heq
      obtain ⟨read, hread, rfl⟩ := Option.map_eq_some_iff.mp (Option.mem_toList.mp ha)
      obtain ⟨latency, hlatency, rfl⟩ := Option.map_eq_some_iff.mp (Option.mem_toList.mp hb)
      obtain ⟨hread, -, hreadMetric⟩ := of_bestObservation hread
      obtain ⟨hlatency, -, hlatencyMetric⟩ := of_bestObservation hlatency
      obtain rfl := List.inj_on_of_nodup_map h.distinct hread hlatency heq
      rw [hreadMetric] at hlatencyMetric
      cases hlatencyMetric
  · rw [(hperm _).mem_iff, List.mem_append] at hmem
    have hvalid : ∀ {metric : ObservationMetric} {strategy : Option StrategyId},
        identifier ∈ ((bestObservation calibration metric strategy).map (·.identifier)).toList →
          identifier ≠ "" := by
      intro metric strategy hmem
      obtain ⟨observation, hbest, rfl⟩ := Option.map_eq_some_iff.mp (Option.mem_toList.mp hmem)
      exact (h.observations observation (of_bestObservation hbest).1).identifier
    exact hmem.elim hvalid hvalid

theorem calibratedCost_ok {calibration : CalibrationResult} (hvalid : calibration.Valid)
    (h : calibratedCost strategy execution calibration = .ok (cost, provenance, reason)) :
    Costed execution cost ∧ Accounted (some calibration) provenance reason := by
  have hnamed := named_observations strategy hvalid
  unfold calibratedCost at h
  dsimp only at h
  obtain ⟨readTime, hread, h⟩ := of_bind_ok h
  obtain ⟨latencyNs, hlatency, h⟩ := of_bind_ok h
  generalize ((((bestObservation calibration .sequentialReadThroughput none).map
    (·.identifier)).toList ++ ((bestObservation calibration .strategyLatency (some strategy)).map
      (·.identifier)).toList).insertionSort (· ≤ ·)) = identifiers at h hnamed
  cases h
  refine ⟨⟨rfl, fun n hn => ?_, fun n hn => ?_⟩, ?_⟩
  · split at hread
    · obtain ⟨value, -, hread⟩ := of_bind_ok hread
      obtain ⟨duration, hduration, hread⟩ := of_bind_ok hread
      cases hread
      cases hn
      exact ceilRateDurationNs_lt hduration
    · cases hread
      cases hn
  · split at hlatency
    · rename_i latency hbest
      obtain ⟨hmem, hmeasured, -⟩ := of_bestObservation hbest
      obtain ⟨value, hvalue, hlatency⟩ := of_bind_ok hlatency
      cases hlatency
      cases hn
      refine (hvalid.observations latency hmem).value_lt hmeasured n ?_
      cases hsome : latency.value with
      | none =>
        rw [hsome] at hvalue
        cases hvalue
      | some value' =>
        rw [hsome] at hvalue
        cases hvalue
        rfl
    · cases hlatency
      cases hn
  · cases identifiers with
    | nil => exact .nothingMeasured calibration rfl hvalid
    | cons identifier rest => exact .applied calibration rfl hvalid _ hnamed (List.cons_ne_nil _ _)

theorem estimateCost_ok {user : UserProfile} {calibration : Option CalibrationResult}
    {machineFingerprint modelFingerprint storageFingerprint : UInt64}
    (hvalid : ∀ c, calibration = some c → c.Valid)
    (h : estimateCost user machineFingerprint modelFingerprint storageFingerprint strategy execution
      calibration = .ok (cost, provenance, reason)) :
    Costed execution cost ∧ Accounted calibration provenance reason := by
  unfold estimateCost at h
  dsimp only at h
  split at h
  · cases h
    exact ⟨.uncalibrated execution, .notRequested⟩
  split at h
  · cases h
    exact ⟨.uncalibrated execution, .notApplicable⟩
  split at h
  · exact calibratedCost_ok (hvalid _ rfl) h
  · cases h
    exact ⟨.uncalibrated execution, .notApplicable⟩

end cost

/-! ## Accepted inputs -/

/-- The checks that a returned plan has passed, besides the decisions. -/
structure Accepted (user : UserProfile) (machine : MachineProfile) (model : ModelProfile)
    (storage : StorageProfile) (capabilities : CapabilitySet) (staticPlan : PlanResult)
    (calibration : Option CalibrationResult) : Prop where
  ramBudget : user.ramBudgetBytes ≠ 0
  machineValid : machine.validate = .ok ()
  modelValid : model.validate = .ok ()
  storageValid : storage.validate = .ok ()
  calibrationValid : ∀ c, calibration = some c → c.Valid
  derived : capabilities = CapabilitySet.derive machine model storage staticPlan
  profiles : matchesProfiles staticPlan user model = true
  storageSize : storage.fileSizeBytes = some model.fileSizeBytes
  storageUsable : capabilities.storageUsable = true
  cpuUsable : capabilities.cpuBackendUsable = true
  modelCompatible : capabilities.modelExecutionCompatible = true
  fits : ∀ execution, staticPlan.executionMemory = some execution →
    execution.layerStreamingLowerBoundFits = true

/-- A ready path has a file size. -/
theorem StorageProfile.isSome_fileSizeBytes {storage : StorageProfile} {machine : MachineProfile}
    {model : ModelProfile} {staticPlan : PlanResult} (h : storage.validate = .ok ())
    (husable : (CapabilitySet.derive machine model storage staticPlan).storageUsable = true) :
    storage.fileSizeBytes.isSome = true := by
  obtain ⟨-, h⟩ := of_failIf_bind_ok h
  obtain ⟨-, h⟩ := of_failIf_bind_ok h
  obtain ⟨hready, -⟩ := of_failIf_bind_ok h
  have hstate : storage.pathState = .ready := by
    simp only [CapabilitySet.derive, Bool.and_eq_true, decide_eq_true_eq] at husable
    exact husable.1.1.1
  by_contra hnone
  exact hready ⟨hstate, .inr (.inr (by simpa using hnone))⟩

section accepted

variable {user : UserProfile} {machine : MachineProfile} {model : ModelProfile}
  {storage : StorageProfile} {capabilities : CapabilitySet} {staticPlan : PlanResult}
  {calibration : Option CalibrationResult} {p : ExecutionPlan}

theorem plan_accepted
    (h : plan user machine model storage capabilities staticPlan calibration = .ok p) :
    Accepted user machine model storage capabilities staticPlan calibration := by
  unfold plan at h
  obtain ⟨_, huser, h⟩ := of_bind_ok h
  obtain ⟨_, hmachine, h⟩ := of_bind_ok h
  obtain ⟨_, hmodel, h⟩ := of_bind_ok h
  obtain ⟨_, hstorage, h⟩ := of_bind_ok h
  obtain ⟨_, hcalibration, h⟩ := of_bind_ok h
  obtain ⟨hderived, h⟩ := of_failIf_bind_ok h
  obtain ⟨hprofiles, h⟩ := of_failIf_bind_ok h
  obtain ⟨hsize, h⟩ := of_failIf_bind_ok h
  obtain ⟨_, -, h⟩ := of_okOr_bind_ok h
  obtain ⟨_, -, h⟩ := of_okOr_bind_ok h
  obtain ⟨-, h⟩ := of_failIf_bind_ok h
  obtain ⟨-, h⟩ := of_failIf_bind_ok h
  obtain ⟨husable, h⟩ := of_failIf_bind_ok h
  obtain ⟨hcpu, h⟩ := of_failIf_bind_ok h
  obtain ⟨hcompatible, h⟩ := of_failIf_bind_ok h
  obtain ⟨execution, hexecution, h⟩ := of_okOr_bind_ok h
  obtain ⟨hlower, -⟩ := of_failIf_bind_ok h
  obtain ⟨-, huser⟩ := of_failIf_bind_ok huser
  obtain ⟨hbudget, -⟩ := of_failIf_bind_ok huser
  have hderived := not_not.mp hderived
  have husable := not_not.mp husable
  refine
    { ramBudget := hbudget
      machineValid := hmachine
      modelValid := hmodel
      storageValid := hstorage
      calibrationValid := ?_
      derived := hderived
      profiles := not_not.mp hprofiles
      storageSize := ?_
      storageUsable := husable
      cpuUsable := not_not.mp hcpu
      modelCompatible := not_not.mp hcompatible
      fits := ?_ }
  · rintro c rfl
    exact CalibrationResult.validate_ok hcalibration
  · rw [hderived] at husable
    obtain ⟨size, hsome⟩ := Option.isSome_iff_exists.mp
      (StorageProfile.isSome_fileSizeBytes hstorage husable)
    rw [hsome, Option.any_some, bne_iff_ne, ne_eq, not_not] at hsize
    rw [hsome, hsize]
  · intro execution' hexecution'
    obtain rfl := Option.some.inj (hexecution.symm.trans hexecution')
    by_contra hnot
    exact hlower (.inl hnot)

/-- No plan uses a GPU. -/
theorem decideGpu_none {gpu : GpuDecision}
    (h : decideGpu user machine (CapabilitySet.derive machine model storage staticPlan) = .ok gpu) :
    gpu.enabled = false ∧ gpu.selectedDeviceId = none ∧ gpu.preference ≠ .require := by
  have hunusable : (CapabilitySet.derive machine model storage staticPlan).gpuBackendUsable = false :=
    Bool.and_false _
  obtain ⟨hrequire, h⟩ := of_failIf_bind_ok h
  obtain ⟨-, h⟩ := of_failIf_bind_ok h
  obtain ⟨selected, hselected, h⟩ := of_bind_ok h
  cases h
  rw [hunusable, Bool.and_false] at hselected ⊢
  cases hselected
  refine ⟨rfl, rfl, fun hpreference => hrequire ⟨hpreference, .inr ?_⟩⟩
  rw [hunusable]
  exact Bool.false_ne_true

theorem decideIo_possible {io : IoDecision} (h : decideIo user capabilities = .ok io) :
    (io.readCoalescingEnabled = true → capabilities.readCoalescingPossible = true) ∧
      (io.groupedReadBufferReuseEnabled = true →
        capabilities.groupedReadBufferReusePossible = true) := by
  have hchoice : ∀ {explicit : Option Bool} {policyDefault available b : Bool}
      {rejection : FeasibilityRejection},
      resolveCapabilityChoice explicit policyDefault available rejection = .ok b →
        b = true → available = true := by
    intro explicit policyDefault available b rejection h hb
    obtain ⟨-, h⟩ := of_failIf_bind_ok h
    cases h
    exact (Bool.and_eq_true_iff.mp hb).2
  obtain ⟨readCoalescing, hread, h⟩ := of_bind_ok h
  obtain ⟨grouped, hgrouped, h⟩ := of_bind_ok h
  cases h
  exact ⟨hchoice hread, hchoice hgrouped⟩

/-- A cache that is on was possible. -/
theorem decideCache_possible {execution : ExecutionMemoryPlan} {cache : LayerCacheDecision}
    (h : decideCache user capabilities execution = .ok cache) (henabled : cache.enabled = true) :
    capabilities.layerCachePossible = true := by
  obtain ⟨-, h⟩ := of_failIf_bind_ok h
  obtain ⟨requested, hrequested, h⟩ := of_bind_ok h
  obtain ⟨-, h⟩ := of_failIf_bind_ok h
  cases h
  obtain ⟨hmin, hpos⟩ := of_decide_eq_true henabled
  by_contra hnot
  rw [requestedCacheCapacity, if_pos (.inr hnot)] at hrequested
  cases hrequested
  omega

theorem decideThreads_reason {threads : Nat × PlanReasonCode}
    (h : decideThreads user machine = .ok threads) :
    threads.2 = .threadCountSelectedByPreset ∨
      threads.2 = .threadCountSelectedByAdvancedOverride := by
  unfold decideThreads at h
  cases hrequest : user.advanced.threadCount with
  | none =>
    rw [hrequest] at h
    cases h
    exact .inl rfl
  | some requested =>
    rw [hrequest] at h
    obtain ⟨-, h⟩ := of_failIf_bind_ok h
    cases h
    exact .inr rfl

end accepted

/-! ## Compiling a returned plan -/

/-- The runtime configuration that a plan asks for. -/
def ExecutionPlan.runtimeConfig (p : ExecutionPlan) : RuntimeConfig where
  cpuThreadCount := p.cpuThreadCount
  ramBudgetBytes := p.ramBudgetBytes
  layerCacheEnabled := p.layerCache.enabled
  layerCacheCapacityBytes := p.layerCache.capacityBytes
  readCoalescingEnabled := p.io.readCoalescingEnabled
  groupedReadBufferReuseEnabled := p.io.groupedReadBufferReuseEnabled
  executionDevice := .cpu

/-- What the compiler and the stored form check about a returned plan. -/
structure Compilable (p : ExecutionPlan) (context : PlanCompilationContext)
    (execution : ExecutionMemoryPlan) : Prop where
  header : p.schemaVersion = executionPlanSchemaVersion ∧
    p.rulesetVersion = Planner.plannerRulesetVersion
  strategy : p.strategy = .cpuLayerStreaming
  threads : p.cpuThreadCount ≠ 0
  threads_le : p.cpuThreadCount ≤ context.machine.logicalCpuCores
  ramBudget : p.ramBudgetBytes ≠ 0
  cache : p.layerCache.enabled = decide (0 < p.layerCache.capacityBytes)
  cacheSound : CacheSound execution p.layerCache
  cachePossible : p.layerCache.enabled = true → context.capabilities.layerCachePossible = true
  gpu : p.gpu.enabled = false ∧ p.gpu.selectedDeviceId = none ∧ p.gpu.preference ≠ .require
  io : (p.io.readCoalescingEnabled = true → context.capabilities.readCoalescingPossible = true) ∧
    (p.io.groupedReadBufferReuseEnabled = true →
      context.capabilities.groupedReadBufferReusePossible = true)
  binding : p.binding =
    { modelDescriptorFingerprint := context.model.identity.descriptorFingerprint
      machineFingerprint := context.machine.fingerprint
      storageFingerprint := context.storage.fingerprint
      modelPath := context.storage.modelPath }
  available : context.machine.availableRamBytes = some p.reservations.availableRamBytesAtPlanning
  total : ∃ total, context.machine.totalRamBytes = some total ∧
    p.reservations.availableRamBytesAtPlanning ≤ total
  budget_le : p.ramBudgetBytes ≤ p.reservations.availableRamBytesAtPlanning
  lowerBound_le : execution.managedLowerBoundBytes ≤ p.ramBudgetBytes
  resident : p.reservations.persistentResidentBytes = execution.persistentResidentBytes
  startupPeak : p.reservations.persistentStartupPeakBytes = execution.persistentStartupPeakBytes
  layerPeak : p.reservations.largestLayerLoadPeakBytes = execution.largestLayerLoadPeakBytes
  lowerBound : p.reservations.managedLowerBoundBytes = execution.managedLowerBoundBytes
  remaining : p.reservations.remainingBudgetAfterLowerBoundBytes =
    p.ramBudgetBytes - execution.managedLowerBoundBytes
  capacity : execution.layerCacheCapacityBytes =
    p.ramBudgetBytes - execution.managedLowerBoundBytes
  executionMemory : context.staticPlan.executionMemory = some execution
  preflight : context.staticPlan.executionPreflightError = none
  fits : execution.layerStreamingLowerBoundFits = true
  ramRequested : context.staticPlan.ramRequested = p.ramBudgetBytes
  fileSize : context.staticPlan.fileSize = context.model.fileSizeBytes
  tensorCount : context.staticPlan.tensorCount = context.model.tensorCount
  architecture : context.staticPlan.architecture = context.model.architecture
  storageSize : context.storage.fileSizeBytes = some context.model.fileSizeBytes
  machineValid : context.machine.validate = .ok ()
  modelValid : context.model.validate = .ok ()
  storageValid : context.storage.validate = .ok ()
  derived : context.capabilities =
    CapabilitySet.derive context.machine context.model context.storage context.staticPlan
  storageUsable : context.capabilities.storageUsable = true
  cpuUsable : context.capabilities.cpuBackendUsable = true
  modelCompatible : context.capabilities.modelExecutionCompatible = true

namespace Compilable

open PlanCompiler

variable {p : ExecutionPlan} {context : PlanCompilationContext} {execution : ExecutionMemoryPlan}

theorem validateConcreteDecisions_eq (h : Compilable p context execution) :
    validateConcreteDecisions p = .ok () := by
  obtain ⟨henabled, hdevice, hpreference⟩ := h.gpu
  have hgpu : ¬(p.gpu.enabled ∨ p.gpu.selectedDeviceId.isSome ∨ p.gpu.preference = .require) := by
    simp [henabled, hdevice, hpreference]
  rw [validateConcreteDecisions, failIf_of_not h.threads, ok_bind, failIf_of_not h.ramBudget, ok_bind,
    failIf_of_not (not_not.mpr h.cache), ok_bind, h.strategy]
  exact failIf_of_not hgpu

theorem validateContext_eq (h : Compilable p context execution) : validateContext context = .ok () := by
  rw [validateContext, h.machineValid, h.modelValid, h.storageValid]
  exact failIf_of_not (not_not.mpr h.derived)

theorem validateBindings_eq (h : Compilable p context execution) :
    validateBindings p context = .ok () := by
  rw [validateBindings, h.binding]
  simp only [ne_eq, not_true_eq_false, failIf_of_not not_false, ok_bind]

theorem validateStaticPlan_eq (h : Compilable p context execution) :
    validateStaticPlan p context = .ok execution := by
  have hpreflight : ¬(context.staticPlan.executionMemory.isSome ∧
      context.staticPlan.executionPreflightError.isSome) := by
    rw [h.preflight]
    exact fun hboth => Bool.false_ne_true hboth.2
  rw [validateStaticPlan, failIf_of_not (not_not.mpr h.ramRequested), ok_bind,
    failIf_of_not (not_not.mpr h.fileSize), ok_bind, failIf_of_not (not_not.mpr h.tensorCount), ok_bind,
    failIf_of_not (not_not.mpr h.architecture), ok_bind, failIf_of_not (not_not.mpr h.storageSize),
    ok_bind, failIf_of_not hpreflight, ok_bind, h.executionMemory, okOr_some]

theorem validateResourceLimits_eq (h : Compilable p context execution) :
    validateResourceLimits p context = .ok () := by
  obtain ⟨total, htotal, hle⟩ := h.total
  have hbudget := h.budget_le
  rw [validateResourceLimits, failIf_of_not (Nat.not_lt.mpr h.threads_le), ok_bind, htotal, okOr_some,
    ok_bind, h.available, okOr_some, ok_bind, failIf_of_not (by omega), ok_bind,
    failIf_of_not (by omega), ok_bind, failIf_of_not (by omega), ok_bind,
    failIf_of_not (not_not.mpr h.storageUsable), ok_bind, failIf_of_not (not_not.mpr h.cpuUsable),
    ok_bind, failIf_of_not (not_not.mpr h.modelCompatible)]

theorem validateReservations_eq (h : Compilable p context execution) :
    validateReservations p execution = .ok () := by
  have hrepeated : validateRepeated p.reservations execution = .ok () := by
    rw [validateRepeated, h.resident, h.startupPeak, h.layerPeak, h.lowerBound]
    simp only [List.forM_eq_forM, List.forM_cons, List.forM_nil, ne_eq, not_true_eq_false,
      failIf_of_not not_false, ok_bind, pure_eq]
  have hlower : ¬(¬execution.layerStreamingLowerBoundFits ∨
      p.ramBudgetBytes < execution.managedLowerBoundBytes) :=
    not_or.mpr ⟨not_not.mpr h.fits, Nat.not_lt.mpr h.lowerBound_le⟩
  rw [validateReservations, failIf_of_not hlower, ok_bind, failIf_of_not (Nat.not_lt.mpr h.budget_le),
    ok_bind, hrepeated, ok_bind, h.lowerBound, checkedSub_of_le h.lowerBound_le, okOr_some, ok_bind,
    failIf_of_not (not_not.mpr h.remaining), ok_bind, failIf_of_not (not_not.mpr h.capacity)]

theorem validateCache_eq (h : Compilable p context execution) :
    validateCache p context.capabilities execution = .ok () := by
  unfold validateCache
  split
  · rfl
  · rename_i henabled
    have henabled := not_not.mp henabled
    obtain ⟨hmin, hmax⟩ := h.cacheSound.enabled henabled
    rw [failIf_of_not (not_not.mpr (h.cachePossible henabled)), ok_bind,
      failIf_of_not (Nat.not_lt.mpr hmax), ok_bind, failIf_of_not (Nat.not_lt.mpr hmin)]

theorem validateIo_eq (h : Compilable p context execution) :
    validateIo p context.capabilities = .ok () := by
  rw [validateIo, failIf_of_not fun hno => hno.2 (h.io.1 hno.1), ok_bind,
    failIf_of_not fun hno => hno.2 (h.io.2 hno.1)]

theorem capacity_le (h : Compilable p context execution) :
    p.layerCache.capacityBytes ≤ p.ramBudgetBytes - execution.managedLowerBoundBytes := by
  rw [← h.capacity]
  cases henabled : p.layerCache.enabled with
  | true => exact (h.cacheSound.enabled henabled).2
  | false =>
    rw [h.cacheSound.disabled henabled]
    exact Nat.zero_le _

theorem runtimeConfig_valid (h : Compilable p context execution) : p.runtimeConfig.Valid where
  threads := h.threads
  budget := h.ramBudget
  cache := by
    show p.layerCache.enabled = true ↔ p.layerCache.capacityBytes ≠ 0
    rw [h.cache, decide_eq_true_iff, Nat.pos_iff_ne_zero]
  capacity_le := h.capacity_le.trans (Nat.sub_le _ _)

theorem compile_eq (h : Compilable p context execution) :
    compile p context = .ok p.runtimeConfig := by
  have hheader : validatePlanHeader p = .ok () := by
    rw [validatePlanHeader, failIf_of_not (not_not.mpr h.header.1), ok_bind,
      failIf_of_not (not_not.mpr h.header.2)]
  have hconfig : RuntimeConfig.new p.cpuThreadCount p.ramBudgetBytes p.layerCache.enabled
      p.layerCache.capacityBytes p.io.readCoalescingEnabled p.io.groupedReadBufferReuseEnabled =
        .ok p.runtimeConfig := by
    show p.runtimeConfig.validate >>= _ = _
    rw [h.runtimeConfig_valid.validate]
    rfl
  rw [compile, hheader, ok_bind, h.validateConcreteDecisions_eq, ok_bind, h.validateContext_eq, ok_bind,
    h.validateBindings_eq, ok_bind, h.validateStaticPlan_eq, ok_bind, h.validateResourceLimits_eq,
    ok_bind, h.validateReservations_eq, ok_bind, h.validateCache_eq, ok_bind, h.validateIo_eq, ok_bind,
    hconfig]
  rfl

end Compilable

section returned

variable {R : Type} [F32 R] [F32Narrow R] [FloatText] {gguf : GgufModel} {ramBudgetBytes : Nat}
  {user : UserProfile} {machine : MachineProfile} {model : ModelProfile} {storage : StorageProfile}
  {capabilities : CapabilitySet} {staticPlan : PlanResult} {calibration : Option CalibrationResult}
  {p : ExecutionPlan}

/-- A returned plan, with the static plan and the cost that it was made from. -/
theorem plan_compilable (hstatic : planModel R gguf ramBudgetBytes = .ok staticPlan)
    (h : plan user machine model storage capabilities staticPlan calibration = .ok p) :
    ∃ execution,
      Compilable p { machine, model, storage, capabilities, staticPlan } execution ∧
      execution.Consistent p.ramBudgetBytes ∧ Costed execution p.cost ∧
      ∃ threads reason, p.reasons = decisionReasons user threads p.gpu p.layerCache p.io ++
          [{ code := reason, value := some p.calibration.observationIdentifiers.length }] ∧
        threads.1 = p.cpuThreadCount ∧ (threads.2 = .threadCountSelectedByPreset ∨
          threads.2 = .threadCountSelectedByAdvancedOverride) ∧
        p.ramBudgetBytes = user.ramBudgetBytes ∧ Accounted calibration p.calibration reason := by
  have haccepted := plan_accepted h
  obtain ⟨d, cost, provenance, reason, hd, hcost, rfl⟩ := plan_ok h
  obtain ⟨hram, hmemory⟩ := planModel_ok hstatic
  obtain ⟨hplanned, hpreflight⟩ := hmemory d.execution hd.execution
  have hmatches := haccepted.profiles
  simp only [matchesProfiles, Bool.and_eq_true, decide_eq_true_eq] at hmatches
  obtain ⟨⟨⟨hrequested, hfile⟩, hcount⟩, harchitecture⟩ := hmatches
  have hbudget : ramBudgetBytes = user.ramBudgetBytes := hram.symm.trans hrequested
  rw [hbudget] at hplanned
  have hconsistent := planExecutionMemory_consistent hplanned
  have hderived := haccepted.derived
  obtain ⟨hcosted, haccounted⟩ := estimateCost_ok haccepted.calibrationValid hcost
  obtain ⟨hone, hlimit, -⟩ := decideThreads_ok hd.valid hd.logicalCpuCores hd.threads
  obtain ⟨hsound, -, -⟩ := decideCache_ok hd.valid hd.layer_pos hd.layerCache
  have hgpu : d.gpu.enabled = false ∧ d.gpu.selectedDeviceId = none ∧ d.gpu.preference ≠ .require := by
    have hdecided := hd.gpu
    rw [hderived] at hdecided
    exact decideGpu_none hdecided
  have hcache : d.layerCache.enabled = decide (0 < d.layerCache.capacityBytes) := by
    cases henabled : d.layerCache.enabled with
    | false =>
      rw [hsound.disabled henabled]
      rfl
    | true =>
      have hpos := hd.layer_pos (decideCache_possible hd.layerCache henabled)
      have hmin := (hsound.enabled henabled).1
      exact (decide_eq_true (by omega)).symm
  refine ⟨d.execution, ?_, hconsistent, hcosted, d.threads, reason, rfl, rfl,
    decideThreads_reason hd.threads, rfl, haccounted⟩
  exact
    { header := ⟨rfl, rfl⟩
      strategy := by
        show d.strategy = _
        rw [Decisions.strategy, hgpu.1]
        rfl
      threads := Nat.ne_of_gt hone
      threads_le := hlimit.trans (Nat.min_le_left _ _)
      ramBudget := haccepted.ramBudget
      cache := hcache
      cacheSound := hsound
      cachePossible := decideCache_possible hd.layerCache
      gpu := hgpu
      io := decideIo_possible hd.io
      binding := rfl
      available := hd.available
      total := ⟨d.totalRamBytes, hd.total, hd.available_le_total⟩
      budget_le := hd.budget_le
      lowerBound_le := hd.lowerBound_le
      resident := rfl
      startupPeak := rfl
      layerPeak := rfl
      lowerBound := rfl
      remaining := rfl
      capacity := hconsistent.capacity
      executionMemory := hd.execution
      preflight := hpreflight
      fits := haccepted.fits _ hd.execution
      ramRequested := hrequested
      fileSize := hfile
      tensorCount := hcount
      architecture := harchitecture
      storageSize := haccepted.storageSize
      machineValid := haccepted.machineValid
      modelValid := haccepted.modelValid
      storageValid := haccepted.storageValid
      derived := hderived
      storageUsable := haccepted.storageUsable
      cpuUsable := haccepted.cpuUsable
      modelCompatible := haccepted.modelCompatible }

end returned

end Planner
end Ramforge
