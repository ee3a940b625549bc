/-
The static plan of a model and its startup keep the same books.

What the plan promises is what startup does, unless startup meets one of the three
checks that it makes and the plan does not: a tensor that it keeps has to have bytes and
whole blocks, the sizes of all tensors have to fit in 64 bits together, and so has the
grouped estimate of every layer.
-/
import Ramforge.Runtime.PlanStorage
import Ramforge.Runtime.StartupWeights
import Ramforge.Rust.Checked

namespace Ramforge

open Rust Rust.Exec GgufDataSource

namespace Planner

/-! ## The layers -/

theorem checkedSum_eq_some {values : List Nat} {total : Nat} :
    checkedSum values = some total ↔ values.sum < u64Bound ∧ total = values.sum := by
  have hsum := foldlM_checkedAdd_eq_some id values total (show 0 < u64Bound by decide)
  rw [List.map_id, Nat.zero_add] at hsum
  exact hsum

/-- The tables of the layers, as far as the plan has computed them. -/
theorem layers_of_plan {layers : List LayerDescriptor} {totals totals' : LayerTotals}
    (h : layers.foldlM LayerTotals.add totals = .ok totals') :
    ∃ readPlans estimates, layers.mapM readPlanOf = .ok readPlans ∧
      layers.mapM estimateOf = .ok estimates ∧
      totals'.largestLoadPeakBytes =
        (estimates.map (·.loadPeakBytes)).foldl max totals.largestLoadPeakBytes := by
  induction layers generalizing totals with
  | nil =>
    cases h
    exact ⟨[], [], rfl, rfl, rfl⟩
  | cons layer rest ih =>
    rw [List.foldlM_cons] at h
    obtain ⟨next, hadd, h⟩ := Outcome.of_bind_ok h
    obtain ⟨readPlans, estimates, hplans, hestimates, hpeak⟩ := ih h
    obtain ⟨readPlan, hplan, hadd⟩ := Outcome.of_bind_ok hadd
    obtain ⟨estimate, hestimate, hadd⟩ := Outcome.of_bind_ok hadd
    obtain ⟨_, -, hadd⟩ := Outcome.of_okOr_bind_ok hadd
    obtain ⟨_, -, hadd⟩ := Outcome.of_okOr_bind_ok hadd
    obtain ⟨_, -, hadd⟩ := Outcome.of_bind_ok hadd
    obtain ⟨_, -, hadd⟩ := Outcome.of_bind_ok hadd
    obtain ⟨_, -, hadd⟩ := Outcome.of_bind_ok hadd
    cases hadd
    have hlargest : (totals.noteLargest layer estimate).largestLoadPeakBytes =
        max totals.largestLoadPeakBytes estimate.loadPeakBytes := by
      unfold LayerTotals.noteLargest
      split
      · rename_i hlt
        exact (Nat.max_eq_right (Nat.le_of_lt hlt)).symm
      · rename_i hge
        exact (Nat.max_eq_left (Nat.not_lt.mp hge)).symm
    refine ⟨readPlan :: readPlans, estimate :: estimates, ?_, ?_, ?_⟩
    · rw [List.mapM_cons, readPlanOf, Outcome.of_mapErr_ok hplan, hplans]
      rfl
    · rw [List.mapM_cons, estimateOf, Outcome.of_mapErr_ok hestimate, hestimates]
      rfl
    · rw [hpeak]
      show List.foldl max (totals.noteLargest layer estimate).largestLoadPeakBytes _ = _
      rw [hlargest]
      rfl

/-- The grouped estimate of a layer, along the read plan of its tensors. -/
def groupedEstimate (layer : LayerDescriptor) : Outcome String LayerMemoryEstimate := do
  let readPlan ← buildLayerReadPlan layer.tensors
  estimateGroupedLayerMemory layer.tensors readPlan

theorem groupedEstimates_iff {layers : List LayerDescriptor} {readPlans : List LayerReadPlan}
    (hplans : layers.mapM readPlanOf = .ok readPlans) :
    (∃ estimates, (layers.zip readPlans).mapM groupedEstimateOf = .ok estimates) ↔
      ∀ layer ∈ layers, (groupedEstimate layer).isOk = true := by
  have hpairs := Outcome.forall₂_of_mapM_ok hplans
  clear hplans
  induction hpairs with
  | nil => exact ⟨fun _ layer hmem => absurd hmem List.not_mem_nil, fun _ => ⟨[], rfl⟩⟩
  | @cons layer readPlan layers readPlans hplan _ ih =>
    have hbuild := Outcome.of_mapErr_ok hplan
    have hgrouped : groupedEstimate layer = estimateGroupedLayerMemory layer.tensors readPlan := by
      unfold groupedEstimate
      rw [hbuild]
      rfl
    rw [List.zip_cons_cons, List.forall_mem_cons, hgrouped]
    constructor
    · rintro ⟨estimates, hmap⟩
      rw [List.mapM_cons] at hmap
      obtain ⟨estimate, hfirst, hmap⟩ := Outcome.of_bind_ok hmap
      obtain ⟨rest, hrest, -⟩ := Outcome.of_bind_ok hmap
      rw [Outcome.of_mapErr_ok hfirst]
      exact ⟨rfl, ih.mp ⟨rest, hrest⟩⟩
    · rintro ⟨hfirst, hrest⟩
      obtain ⟨rest, hrest⟩ := ih.mpr hrest
      obtain ⟨estimate, hfirst⟩ := Outcome.exists_of_isOk hfirst
      refine ⟨estimate :: rest, ?_⟩
      rw [List.mapM_cons, groupedEstimateOf, hfirst, hrest]
      rfl

theorem counts_of_fold {ramBudgetBytes : Nat} {descs : List TensorDescriptor}
    {totals totals' : PersistentTotals}
    (h : descs.foldlM (PersistentTotals.add ramBudgetBytes) totals = .ok totals') :
    totals'.residentCount = totals.residentCount + descs.countP (keptResident ramBudgetBytes) ∧
      totals'.streamedCount =
        totals.streamedCount + descs.countP (!keptResident ramBudgetBytes ·) := by
  induction descs generalizing totals with
  | nil =>
    cases h
    exact ⟨rfl, rfl⟩
  | cons desc rest ih =>
    rw [List.foldlM_cons] at h
    obtain ⟨next, hadd, h⟩ := Outcome.of_bind_ok h
    obtain ⟨hresident, hstreamed⟩ := ih h
    rw [List.countP_cons, List.countP_cons, hresident, hstreamed]
    obtain ⟨hkept, _, _, _, -, rfl⟩ | ⟨hkept, -, rfl⟩ := PersistentTotals.add_cases hadd
    · simp only [hkept, PersistentTotals.keep, Bool.not_true, if_true, Bool.false_eq_true, if_false]
      omega
    · simp only [hkept, Bool.not_false, if_true, Bool.false_eq_true, if_false]
      omega

/-- The sizes of all tensors bound those of a part. -/
theorem sum_filterMap_filter_le (tensors : List TensorDescriptor) (p : TensorDescriptor → Bool) :
    ((tensors.filter p).filterMap (·.byteLength)).sum ≤ (tensors.filterMap (·.byteLength)).sum := by
  induction tensors with
  | nil => exact Nat.le_refl _
  | cons t rest ih =>
    rw [List.filter_cons]
    split
    · rw [List.filterMap_cons, List.filterMap_cons]
      split
      · exact ih
      · rw [List.sum_cons, List.sum_cons]
        omega
    · rw [List.filterMap_cons]
      split
      · exact ih
      · rw [List.sum_cons]
        omega

/-- The tables exist if and only if the two sums of a plan do. -/
theorem layerTables_iff {model : GgufModel} {layers : List LayerDescriptor}
    {readPlans : List LayerReadPlan} {estimates : List LayerMemoryEstimate}
    (hplans : layers.mapM readPlanOf = .ok readPlans)
    (hestimates : layers.mapM estimateOf = .ok estimates) :
    (∃ tables, layerTables model layers = .ok tables) ↔
      (model.tensors.filterMap (·.byteLength)).sum < u64Bound ∧
        ∀ layer ∈ layers, (groupedEstimate layer).isOk = true := by
  rw [← groupedEstimates_iff hplans]
  constructor
  · rintro ⟨tables, h⟩
    obtain ⟨total, htotal, h⟩ := Outcome.of_okOr_bind_ok h
    obtain ⟨_, -, h⟩ := Outcome.of_okOr_bind_ok h
    obtain ⟨plans, hfound, h⟩ := Outcome.of_bind_ok h
    rw [hplans] at hfound
    cases hfound
    obtain ⟨_, -, h⟩ := Outcome.of_bind_ok h
    obtain ⟨grouped, hgrouped, -⟩ := Outcome.of_bind_ok h
    exact ⟨(checkedSum_eq_some.mp htotal).1, grouped, hgrouped⟩
  · rintro ⟨hsum, grouped, hgrouped⟩
    have hpart := Nat.lt_of_le_of_lt
      (sum_filterMap_filter_le model.tensors fun t => countsAsQuantized t.ggmlType) hsum
    unfold layerTables
    rw [checkedSum_eq_some.mpr ⟨hsum, rfl⟩, checkedSum_eq_some.mpr ⟨hpart, rfl⟩, hplans, hestimates]
    show ∃ tables, ((layers.zip readPlans).mapM groupedEstimateOf >>= _) = _
    rw [hgrouped]
    exact ⟨_, rfl⟩

theorem estimates_of_layerTables {model : GgufModel} {layers : List LayerDescriptor}
    {tables : LayerTables} {estimates : List LayerMemoryEstimate}
    (hestimates : layers.mapM estimateOf = .ok estimates)
    (h : layerTables model layers = .ok tables) : tables.estimates = estimates := by
  obtain ⟨_, -, h⟩ := Outcome.of_okOr_bind_ok h
  obtain ⟨_, -, h⟩ := Outcome.of_okOr_bind_ok h
  obtain ⟨_, -, h⟩ := Outcome.of_bind_ok h
  obtain ⟨found, hfound, h⟩ := Outcome.of_bind_ok h
  obtain ⟨_, -, h⟩ := Outcome.of_bind_ok h
  cases h
  rw [hestimates] at hfound
  cases hfound
  rfl

/-! ## The agreement -/

section agreement

variable (R : Type) [F32 R] [F32Narrow R] [FloatText]

/-- What startup checks and the plan does not. -/
structure StartsUp (model : GgufModel) (ramBudgetBytes : Nat) : Prop where
  holdable : ∀ desc ∈ (PersistentDescriptors.fromModel model).present,
    keptResident ramBudgetBytes desc = true → Holdable desc
  totalBytes : (model.tensors.filterMap (·.byteLength)).sum < u64Bound
  grouped : ∀ config, LlamaConfig.fromGguf R model = .ok config →
    ∀ layer ∈ groupLayers model config.blockCount, (groupedEstimate layer).isOk = true

/-- The persistent weights stand as the plan has counted them. -/
structure StartsAsPlanned (model : GgufModel) (ramBudgetBytes : Nat) (memory : ExecutionMemoryPlan)
    (startup : Startup R) (b : MemoryBudget) : Prop where
  resident : (loadedWeights startup.weights).map isResident =
    (PersistentDescriptors.fromModel model).present.map (keptResident ramBudgetBytes)
  names : startup.chargeNames =
    (PersistentDescriptors.fromModel model).present.flatMap (chargeNamesOf ramBudgetBytes)
  residentCount : memory.residentPersistentCount =
    (PersistentDescriptors.fromModel model).present.countP (keptResident ramBudgetBytes)
  streamedCount : memory.streamedPersistentCount =
    (PersistentDescriptors.fromModel model).present.countP (!keptResident ramBudgetBytes ·)
  used : b.used = memory.persistentResidentBytes
  peak : b.peakUsed = memory.persistentStartupPeakBytes

/-- The cache capacity that a configuration asks for. -/
def capacityAsked (runtimeConfig : Option RuntimeConfig) : Option Nat :=
  runtimeConfig.map fun config =>
    if config.layerCacheEnabled then config.layerCacheCapacityBytes else 0

/-- Startup does what the plan says: it keeps the weights that the plan has counted, under
the charges and with the peak of the plan, it loads the model if and only if the lower bound
fits, and it accepts a cache capacity if and only if it is at most the planned one. -/
structure PreflightAgrees (model : GgufModel) (ramBudgetBytes : Nat) (memory : ExecutionMemoryPlan)
    (s : Host × MemoryBudget) : Prop where
  startup : ∃ startup s', startUp R model s = (.ok startup, s') ∧
    StartsAsPlanned R model ramBudgetBytes memory startup s'.2
  load : ∀ runtimeConfig, (loadInternal R runtimeConfig s).1.isOk = true ↔
    memory.layerStreamingLowerBoundFits = true ∧
      ∀ capacity, capacityAsked runtimeConfig = some capacity →
        capacity ≤ memory.layerCacheCapacityBytes
  cache : ∀ runtimeConfig loaded s', loadInternal R runtimeConfig s = (.ok loaded, s') →
    loaded.2.capacityBytes =
        (capacityAsked runtimeConfig).getD memory.layerCacheCapacityBytes ∧
      s'.2.used = memory.persistentResidentBytes ∧
      s'.2.peakUsed = memory.persistentStartupPeakBytes

variable {R}

/-- Where a plan comes from. -/
theorem of_planExecutionMemory_ok {model : GgufModel} {ramBudgetBytes : Nat}
    {memory : ExecutionMemoryPlan} (h : planExecutionMemory R model ramBudgetBytes = .ok memory) :
    ∃ config persistent layers, LlamaConfig.fromGguf R model = .ok config ∧
      validateRequiredTensors model config = .ok () ∧
      (PersistentDescriptors.fromModel model).present.foldlM
        (PersistentTotals.add ramBudgetBytes) .zero = .ok persistent ∧
      (groupLayers model config.blockCount).foldlM LayerTotals.add .zero = .ok layers ∧
      persistent.residentBytes + layers.largestLoadPeakBytes < u64Bound ∧
      memory.residentPersistentCount = persistent.residentCount ∧
      memory.streamedPersistentCount = persistent.streamedCount ∧
      memory.persistentResidentBytes = persistent.residentBytes ∧
      memory.persistentStartupPeakBytes = persistent.startupPeakBytes ∧
      memory.managedLowerBoundBytes = max persistent.startupPeakBytes
        (persistent.residentBytes + layers.largestLoadPeakBytes) ∧
      memory.layerCacheCapacityBytes = ramBudgetBytes - memory.managedLowerBoundBytes ∧
      memory.layerStreamingLowerBoundFits = decide (memory.managedLowerBoundBytes ≤ ramBudgetBytes) := by
  obtain ⟨config, hconfig, h⟩ := Outcome.of_bind_ok h
  obtain ⟨_, hrequired, h⟩ := Outcome.of_bind_ok h
  obtain ⟨persistent, hpersistent, h⟩ := Outcome.of_bind_ok h
  obtain ⟨layers, hlayers, h⟩ := Outcome.of_bind_ok h
  obtain ⟨lower, hlower, h⟩ := Outcome.of_bind_ok h
  cases h
  obtain ⟨rfl, hlt⟩ := labelledAdd_ok hlower
  exact ⟨config, persistent, layers, hconfig, hrequired, hpersistent, hlayers, hlt,
    rfl, rfl, rfl, rfl, rfl, rfl, rfl⟩

/-! ## The cache capacity -/

section capacity

omit [F32 R] [F32Narrow R] [FloatText]

theorem abandonLoad_not_ok {α : Type} {names : List String} {error : String}
    {s s' : Host × MemoryBudget} {a : α} : abandonLoad names error s ≠ (.ok a, s') := by
  intro h
  obtain ⟨_, _, -, h⟩ := of_bind_ok h
  cases h

/-- What the capacity of a cache is, and when there is one. -/
theorem cacheCapacity_ok_iff {runtimeConfig : Option RuntimeConfig} {names : List String}
    {peak capacity : Nat} {s s' : Host × MemoryBudget} (hlt : s.2.used + peak < u64Bound) :
    cacheCapacity runtimeConfig names peak s = (.ok capacity, s') ↔
      s' = s ∧ max s.2.peakUsed (s.2.used + peak) ≤ s.2.total ∧
        capacity = (capacityAsked runtimeConfig).getD
          (s.2.total - max s.2.peakUsed (s.2.used + peak)) ∧
        capacity ≤ s.2.total - max s.2.peakUsed (s.2.used + peak) := by
  unfold cacheCapacity
  rw [self_bind_run]
  simp only [checkedAdd_of_lt hlt]
  by_cases hfits : max s.2.peakUsed (s.2.used + peak) ≤ s.2.total
  · simp only [checkedSub_of_le hfits]
    generalize s.2.total - max s.2.peakUsed (s.2.used + peak) = maximum
    have hend : ∀ asked error, (if asked > maximum then abandonLoad names error
        else return asked : Managed Nat) s = (.ok capacity, s') ↔
          s' = s ∧ capacity = asked ∧ capacity ≤ maximum := by
      intro asked error
      split
      · rename_i hgt
        exact ⟨fun h => absurd h abandonLoad_not_ok, fun h => by omega⟩
      · rename_i hle
        constructor
        · intro h
          cases h
          exact ⟨rfl, rfl, Nat.not_lt.mp hle⟩
        · rintro ⟨rfl, rfl, -⟩
          rfl
    cases runtimeConfig with
    | none =>
      refine (hend maximum _).trans ⟨fun h => ⟨h.1, hfits, h.2⟩, fun h => ⟨h.1, h.2.2⟩⟩
    | some config =>
      refine (hend (if config.layerCacheEnabled then config.layerCacheCapacityBytes else 0) _).trans
        ⟨fun h => ⟨h.1, hfits, h.2⟩, fun h => ⟨h.1, h.2.2⟩⟩
  · simp only [checkedSub_eq_none.mpr (Nat.not_le.mp hfits)]
    exact ⟨fun h => absurd h abandonLoad_not_ok, fun h => absurd h.2.1 hfits⟩

end capacity

theorem of_loadInternal_ok {runtimeConfig : Option RuntimeConfig} {s s' s₁ : Host × MemoryBudget}
    {startup : Startup R} (hstart : startUp R s.1.2.2.model s = (.ok startup, s₁))
    {loaded : StreamingLlamaModel R × LayerCache (StreamingLayerWeights R)}
    (h : loadInternal R runtimeConfig s = (.ok loaded, s')) :
    ∃ capacity, cacheCapacity runtimeConfig startup.chargeNames
      (maxLoadPeak startup.tables.estimates) s₁ = (.ok capacity, s') ∧
      loaded.2.capacityBytes = capacity := by
  unfold loadInternal at h
  rw [self_bind_run, bind_of_ok hstart] at h
  obtain ⟨capacity, s₂, hcapacity, h⟩ := of_bind_ok h
  cases h
  exact ⟨capacity, hcapacity, rfl⟩

theorem isOk_loadInternal {runtimeConfig : Option RuntimeConfig} {s s₁ s₂ : Host × MemoryBudget}
    {startup : Startup R} {capacity : Nat}
    (hstart : startUp R s.1.2.2.model s = (.ok startup, s₁))
    (hcapacity : cacheCapacity runtimeConfig startup.chargeNames
      (maxLoadPeak startup.tables.estimates) s₁ = (.ok capacity, s₂)) :
    (loadInternal R runtimeConfig s).1.isOk = true := by
  unfold loadInternal
  rw [self_bind_run, bind_of_ok hstart, bind_of_ok hcapacity]
  rfl

/-! ## Startup -/

section startup

variable {model : GgufModel} {ramBudgetBytes : Nat} {memory : ExecutionMemoryPlan} {host : Host}
  {b : MemoryBudget}

omit [F32 R] [F32Narrow R] [FloatText] in
/-- A fresh ledger mirrors an empty plan. -/
theorem mirrors_new (hbudget : MemoryBudget.new ramBudgetBytes = .ok b)
    (hlt : ramBudgetBytes < u64Bound) : Mirrors ramBudgetBytes .zero [] b := by
  unfold MemoryBudget.new at hbudget
  split at hbudget
  · cases hbudget
  · cases hbudget
    have hnone : ∀ name, MemoryBudget.get
        { total := ramBudgetBytes, allocations := ∅, used := 0, peakUsed := 0 } name = none :=
      fun name => Std.ExtTreeMap.getElem?_empty
    refine ⟨⟨rfl, Nat.zero_le _, hlt, ?_, Nat.le_refl _⟩, rfl, rfl, rfl, Nat.zero_le _, ?_⟩
    · intro name bytes hget
      rw [hnone] at hget
      cases hget
    · intro name hsome
      rw [hnone] at hsome
      cases hsome

theorem startUp_run (hplan : planExecutionMemory R model ramBudgetBytes = .ok memory)
    (hbudget : MemoryBudget.new ramBudgetBytes = .ok b) (hlt : ramBudgetBytes < u64Bound)
    (hmodel : host.2.2.model = model) (hsized : ∀ desc ∈ model.tensors, desc.Sized)
    (hreads : ((PersistentDescriptors.fromModel model).present.forM (readKept ramBudgetBytes)
      host).1 = .ok ()) (hcond : StartsUp R model ramBudgetBytes) :
    ∃ (startup : Startup R) (s : Host × MemoryBudget), startUp R model (host, b) = (.ok startup, s) ∧
      StartsAsPlanned R model ramBudgetBytes memory startup s.2 ∧
      s.2.total = ramBudgetBytes ∧
      s.2.used + maxLoadPeak startup.tables.estimates < u64Bound ∧
      memory.managedLowerBoundBytes =
        max s.2.peakUsed (s.2.used + maxLoadPeak startup.tables.estimates) := by
  obtain ⟨config, persistent, layers, hconfig, hrequired, hpersistent, hlayers, hsum, hcount,
    hstreamed, hused, hpeak, hlower, -, -⟩ := of_planExecutionMemory_ok hplan
  obtain ⟨readPlans, estimates, hplans, hestimates, hlargest⟩ := layers_of_plan hlayers
  obtain ⟨tables, htables⟩ := (layerTables_iff hplans hestimates).mpr
    ⟨hcond.totalBytes, hcond.grouped config hconfig⟩
  have hloading : Loading model ramBudgetBytes persistent
      ((PersistentDescriptors.fromModel model).present.forM (readKept ramBudgetBytes) host).2
      (PersistentDescriptors.fromModel model).present 0 ([], host, b) :=
    ⟨hmodel, ⟨.zero, hpersistent, mirrors_new hbudget hlt, Nat.le_refl _⟩, Prod.ext hreads rfl⟩
  obtain ⟨weights, names, host', b', hload, hresident, hnames, hmirrors⟩ :=
    loadPersistents_run (R := R)
      (hasTensor_of_validateRequiredTensors hrequired (by simp [requiredTensors]))
      (hasTensor_of_validateRequiredTensors hrequired (by simp [requiredTensors]))
      hloading rfl hlt hsized hcond.holdable
  have hweights : withLocal [] (attempt (loadPersistents model)) (host, b) =
      ((.ok (.ok weights, names), (host', b')) : Outcome String _ × _) := by
    refine withLocal_of_ok ?_
    unfold attempt
    rw [hload]
  have hmax : maxLoadPeak tables.estimates = layers.largestLoadPeakBytes := by
    rw [estimates_of_layerTables hestimates htables, hlargest]
    rfl
  obtain ⟨hcounts, hcounts'⟩ := counts_of_fold hpersistent
  refine ⟨{
    config := config
    layerDescriptors := groupLayers model config.blockCount
    tables := tables
    weights := weights
    chargeNames := names }, (host', b'), ?_, ?_, hmirrors.total, ?_, ?_⟩
  · unfold startUp
    rw [hconfig]
    show (resume (validateRequiredTensors model config) >>= _) _ = _
    rw [hrequired]
    show (resume (layerTables model (groupLayers model config.blockCount)) >>= _) _ = _
    rw [htables]
    show (withLocal [] (attempt (loadPersistents model)) >>= _) _ = _
    rw [bind_of_ok hweights]
    rfl
  · refine ⟨hresident, hnames, ?_, ?_, ?_, ?_⟩
    · rw [hcount, hcounts]
      exact Nat.zero_add _
    · rw [hstreamed, hcounts']
      exact Nat.zero_add _
    · rw [hused]
      exact hmirrors.used
    · rw [hpeak]
      exact hmirrors.peak
  · show b'.used + maxLoadPeak tables.estimates < u64Bound
    rw [hmirrors.used, hmax]
    exact hsum
  · show memory.managedLowerBoundBytes = max b'.peakUsed (b'.used + maxLoadPeak tables.estimates)
    rw [hlower, hmirrors.used, hmirrors.peak, hmax]

theorem startsUp_of_startUp_ok (hplan : planExecutionMemory R model ramBudgetBytes = .ok memory)
    (hbudget : MemoryBudget.new ramBudgetBytes = .ok b) (hlt : ramBudgetBytes < u64Bound)
    (hmodel : host.2.2.model = model) {startup : Startup R} {s : Host × MemoryBudget}
    (h : startUp R model (host, b) = (.ok startup, s)) : StartsUp R model ramBudgetBytes := by
  obtain ⟨config, persistent, layers, hconfig, -, -, hlayers, -⟩ := of_planExecutionMemory_ok hplan
  obtain ⟨readPlans, estimates, hplans, hestimates, -⟩ := layers_of_plan hlayers
  unfold startUp at h
  rw [hconfig] at h
  obtain ⟨_, _, hstep, h⟩ := of_bind_ok h
  cases hstep
  obtain ⟨_, s₁, hstep, h⟩ := of_bind_ok h
  obtain rfl : s₁ = (host, b) := ((Prod.mk.inj hstep).2).symm
  obtain ⟨tables, s₂, hstep, h⟩ := of_bind_ok h
  obtain rfl : s₂ = (host, b) := ((Prod.mk.inj hstep).2).symm
  have htables : layerTables model (groupLayers model config.blockCount) = .ok tables :=
    (Prod.mk.inj hstep).1
  obtain ⟨⟨result, names⟩, s₃, hlocal, h⟩ := of_bind_ok h
  cases result with
  | error error => exact absurd h abandonLoad_not_ok
  | ok weights =>
    obtain ⟨hbytes, hgrouped⟩ := (layerTables_iff hplans hestimates).mp ⟨tables, htables⟩
    refine ⟨?_, hbytes, fun config' hconfig' => ?_⟩
    · have hload : loadPersistents model ([], host, b) = (.ok weights, (names, s₃)) :=
        of_attempt_value (of_withLocal_ok hlocal)
      have hmirrors := mirrors_new hbudget hlt
      exact holdable_of_loadPersistents hload hmodel ⟨hmirrors.accounted, hmirrors.total⟩
    · rw [hconfig] at hconfig'
      cases hconfig'
      exact hgrouped

/-- The plan of a model and its startup in a fresh ledger agree if and only if the model
passes the three checks that the plan leaves out. -/
theorem preflight_agrees_iff (hplan : planExecutionMemory R model ramBudgetBytes = .ok memory)
    (hbudget : MemoryBudget.new ramBudgetBytes = .ok b) (hlt : ramBudgetBytes < u64Bound)
    (hmodel : host.2.2.model = model) (hsized : ∀ desc ∈ model.tensors, desc.Sized)
    (hreads : ((PersistentDescriptors.fromModel model).present.forM (readKept ramBudgetBytes)
      host).1 = .ok ()) :
    PreflightAgrees R model ramBudgetBytes memory (host, b) ↔ StartsUp R model ramBudgetBytes := by
  constructor
  · intro h
    obtain ⟨startup, s, hstart, -⟩ := h.startup
    exact startsUp_of_startUp_ok hplan hbudget hlt hmodel hstart
  intro hcond
  obtain ⟨startup, s, hstart, hplanned, htotal, hsum, hlower⟩ :=
    startUp_run hplan hbudget hlt hmodel hsized hreads hcond
  obtain ⟨-, -, -, -, -, -, -, -, -, -, -, -, -, hcapacity, hfits⟩ := of_planExecutionMemory_ok hplan
  have hmodel' : (host, b).1.2.2.model = model := hmodel
  rw [← hmodel'] at hstart
  have hmax : s.2.total - max s.2.peakUsed (s.2.used + maxLoadPeak startup.tables.estimates) =
      memory.layerCacheCapacityBytes := by
    rw [hcapacity, hlower, htotal]
  have hbound : memory.layerStreamingLowerBoundFits = true ↔
      max s.2.peakUsed (s.2.used + maxLoadPeak startup.tables.estimates) ≤ s.2.total := by
    rw [hfits, hlower, htotal, decide_eq_true_eq]
  have hrun : ∀ runtimeConfig capacity s', cacheCapacity runtimeConfig startup.chargeNames
      (maxLoadPeak startup.tables.estimates) s = (.ok capacity, s') ↔
        s' = s ∧ max s.2.peakUsed (s.2.used + maxLoadPeak startup.tables.estimates) ≤ s.2.total ∧
          capacity = (capacityAsked runtimeConfig).getD memory.layerCacheCapacityBytes ∧
          capacity ≤ memory.layerCacheCapacityBytes := by
    intro runtimeConfig capacity s'
    rw [← hmax]
    exact cacheCapacity_ok_iff hsum
  refine ⟨⟨startup, s, by rw [← hmodel']; exact hstart, hplanned⟩, ?_, ?_⟩
  · intro runtimeConfig
    constructor
    · intro hok
      obtain ⟨loaded, s', hloaded⟩ : ∃ loaded s', loadInternal R runtimeConfig (host, b) =
          (.ok loaded, s') := by
        obtain ⟨loaded, hloaded⟩ := Outcome.exists_of_isOk hok
        exact ⟨loaded, _, Prod.ext hloaded rfl⟩
      obtain ⟨capacity, hrun', -⟩ := of_loadInternal_ok hstart hloaded
      obtain ⟨-, hle, rfl, hsmall⟩ := (hrun _ _ _).mp hrun'
      refine ⟨hbound.mpr hle, fun capacity hasked => ?_⟩
      rw [hasked] at hsmall
      exact hsmall
    · rintro ⟨hle, hsmall⟩
      refine isOk_loadInternal hstart ((hrun _ _ _).mpr ⟨rfl, hbound.mp hle, rfl, ?_⟩)
      cases hasked : capacityAsked runtimeConfig with
      | none => exact Nat.le_refl _
      | some capacity => exact hsmall capacity hasked
  · intro runtimeConfig loaded s' hloaded
    obtain ⟨capacity, hrun', hcache⟩ := of_loadInternal_ok hstart hloaded
    obtain ⟨rfl, -, rfl, -⟩ := (hrun _ _ _).mp hrun'
    exact ⟨hcache, hplanned.used, hplanned.peak⟩

end startup

end agreement

/-! ### A small file -/

def sampleLayout : GgufShardLayout where
  path := "/models/tiny.gguf"
  fileSize := 3168
  dataStartOffset := 0
  dataLength := 3168
  virtualStart := 0
  virtualEnd := 3168
  physicalDataStart := 0

/-- A host whose file holds zeros. -/
def sampleHost (model : GgufModel) : Host :=
  ([], [], {
    model := model
    shards := [{
      layout := sampleLayout
      state := {
        file := {
          contents := ⟨List.replicate 3168 0, by rw [List.length_replicate]; decide⟩
          cursor := 0 }
        position := some 0 } }]
    fileSize := 3168 })

/-- The small model with an output projection to no tokens at all. -/
def emptyOutputGguf : GgufModel :=
  { sampleGguf with tensors := sampleGguf.tensors ++ [sampleDescriptor "output.weight" [8, 0] 3168] }

theorem sized_sampleDescriptor {name : String} {dimensions : List Nat} {offset : Nat}
    (hlt : ∀ dimension ∈ dimensions, dimension < u64Bound)
    (hprod : Gguf.numElementsOf dimensions = dimensions.prod)
    (hlen : Gguf.byteLengthOf .f32 dimensions.prod = some (4 * dimensions.prod)) :
    (sampleDescriptor name dimensions offset).Sized :=
  ⟨hlt, hprod.symm, hlen.symm⟩

theorem sized_emptyOutputGguf : ∀ desc ∈ emptyOutputGguf.tensors, desc.Sized := by
  intro desc hmem
  simp only [emptyOutputGguf, sampleGguf, List.cons_append, List.nil_append, List.mem_cons,
    List.not_mem_nil, or_false] at hmem
  rcases hmem with rfl | rfl | rfl | rfl | rfl | rfl | rfl | rfl | rfl | rfl | rfl | rfl <;>
    exact sized_sampleDescriptor (by decide) (by decide) (by decide)

theorem preflight_agrees_sample :
    ∃ memory b, @planExecutionMemory ℚ _ _ sampleText sampleGguf 10000 = .ok memory ∧
      MemoryBudget.new 10000 = .ok b ∧
      @PreflightAgrees ℚ _ _ sampleText sampleGguf 10000 memory (sampleHost sampleGguf, b) := by
  let _ := sampleText
  obtain ⟨memory, hplan⟩ := Outcome.exists_of_isOk
    (show (planExecutionMemory ℚ sampleGguf 10000).isOk = true by decide +kernel)
  have hsized : ∀ desc ∈ sampleGguf.tensors, desc.Sized := fun desc hmem =>
    sized_emptyOutputGguf desc (List.mem_append_left _ hmem)
  have hreads : ((PersistentDescriptors.fromModel sampleGguf).present.forM (readKept 10000)
      (sampleHost sampleGguf)).1 = .ok () := by
    decide +kernel
  refine ⟨memory, _, hplan, rfl,
    (preflight_agrees_iff hplan rfl (by decide) rfl hsized hreads).mpr ⟨?_, by decide, ?_⟩⟩
  · decide +kernel
  · intro config hconfig
    have hcount : config.blockCount = 1 := by
      have hall : (LlamaConfig.fromGguf ℚ sampleGguf).map (·.blockCount) = .ok 1 := by decide +kernel
      rw [hconfig] at hall
      exact Outcome.ok.inj hall
    rw [hcount]
    decide +kernel

/-- A persistent tensor without bytes is counted by the plan and refused by startup. -/
theorem empty_output_refused :
    ∃ memory b, @planExecutionMemory ℚ _ _ sampleText emptyOutputGguf 10000 = .ok memory ∧
      MemoryBudget.new 10000 = .ok b ∧
      ((PersistentDescriptors.fromModel emptyOutputGguf).present.forM (readKept 10000)
        (sampleHost emptyOutputGguf)).1 = .ok () ∧
      memory.layerStreamingLowerBoundFits = true ∧
      (∃ error, (@loadInternal ℚ _ _ sampleText none (sampleHost emptyOutputGguf, b)).1 =
        .err error) ∧
      ¬@PreflightAgrees ℚ _ _ sampleText emptyOutputGguf 10000 memory
            (sampleHost emptyOutputGguf, b) := by
  let _ := sampleText
  have hrun : (planExecutionMemory ℚ emptyOutputGguf 10000).map
      (·.layerStreamingLowerBoundFits) = .ok true := by decide +kernel
  obtain ⟨memory, hplan, hfits⟩ := Outcome.of_map_ok hrun
  refine ⟨memory, _, hplan, rfl, by decide +kernel, hfits, ?_, fun hagrees => ?_⟩
  · have herr : (loadInternal ℚ none (sampleHost emptyOutputGguf,
        { total := 10000, allocations := ∅, used := 0, peakUsed := 0 })).1.kind = .err () := by
      decide +kernel
    cases hload : (loadInternal ℚ none (sampleHost emptyOutputGguf,
        { total := 10000, allocations := ∅, used := 0, peakUsed := 0 })).1 with
    | err error => exact ⟨error, rfl⟩
    | ok loaded =>
      rw [hload] at herr
      cases herr
    | panic message =>
      rw [hload] at herr
      cases herr
  · obtain ⟨startup, s, hstart, -⟩ := hagrees.startup
    have hstarts := startsUp_of_startUp_ok hplan rfl (by decide) rfl hstart
    have hnot : ¬∀ desc ∈ (PersistentDescriptors.fromModel emptyOutputGguf).present,
        keptResident 10000 desc = true → Holdable desc := by
      decide +kernel
    exact hnot hstarts.holdable

end Planner
end Ramforge
