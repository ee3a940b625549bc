/-
What a plan promises, and what a calibration can change in it.

`Decided` is everything `plan` fixes before it looks at the calibration.  It
determines the plan but for the cost, the provenance and the last reason.
-/
import Ramforge.Runtime.Planner

namespace Ramforge
namespace Planner

open Std Rust Rust.Outcome

/-! ## Accepted profiles -/

/-- What the planner relies on in an accepted user profile. -/
structure UserProfile.Valid (user : UserProfile) : Prop where
  cpuThreadLimit : user.cpuThreadLimit ≠ some 0
  overrides : user.mode = .advanced ∨ user.advanced.isEmpty = true
  threadCount : user.advanced.threadCount ≠ some 0
  cache : ¬(user.advanced.layerCacheEnabled = some false ∧
    user.advanced.layerCacheCapacityBytes.isSome = true)
  gpu : ¬(user.advanced.gpuDeviceId.isSome = true ∧ user.gpuPreference = .disabled)

theorem UserProfile.validate_ok {user : UserProfile} (h : user.validate = .ok ()) : user.Valid := by
  unfold UserProfile.validate at h
  obtain ⟨-, h⟩ := of_failIf_bind_ok h
  obtain ⟨-, h⟩ := of_failIf_bind_ok h
  obtain ⟨hlimit, h⟩ := of_failIf_bind_ok h
  obtain ⟨hoverrides, h⟩ := of_failIf_bind_ok h
  obtain ⟨hthreads, h⟩ := of_failIf_bind_ok h
  obtain ⟨-, h⟩ := of_failIf_bind_ok h
  obtain ⟨-, h⟩ := of_failIf_bind_ok h
  obtain ⟨hcache, h⟩ := of_failIf_bind_ok h
  refine ⟨hlimit, ?_, hthreads, hcache, of_failIf_ok h⟩
  by_cases hmode : user.mode = .advanced
  · exact .inl hmode
  · refine .inr (Classical.byContradiction fun hempty => hoverrides ⟨hmode, hempty⟩)

/-- An override is only there in the advanced mode. -/
theorem UserProfile.Valid.mode_of {user : UserProfile} (h : user.Valid)
    (hempty : user.advanced.isEmpty = false) : user.mode = .advanced := by
  rcases h.overrides with hmode | hnone
  · exact hmode
  · rw [hempty] at hnone
    cases hnone

theorem MachineProfile.validate_ok {machine : MachineProfile} (h : machine.validate = .ok ()) :
    machine.logicalCpuCores ≠ 0 ∧ machine.availableExceedsTotal = false := by
  unfold MachineProfile.validate at h
  obtain ⟨-, h⟩ := of_failIf_bind_ok h
  obtain ⟨-, h⟩ := of_failIf_bind_ok h
  obtain ⟨hcores, h⟩ := of_failIf_bind_ok h
  obtain ⟨hram, -⟩ := of_failIf_bind_ok h
  simp only [not_or, Bool.not_eq_true] at hcores hram
  exact ⟨hcores.1, hram.2.2⟩

theorem CapabilitySet.layerCachePossible_derive {machine : MachineProfile} {model : ModelProfile}
    {storage : StorageProfile} {staticPlan : PlanResult} {execution : ExecutionMemoryPlan}
    (h : staticPlan.executionMemory = some execution) :
    (derive machine model storage staticPlan).layerCachePossible = true ↔
      0 < execution.minLayerResidentBytes ∧
        execution.minLayerResidentBytes ≤ execution.layerCacheCapacityBytes := by
  simp [derive, h]

/-! ## The decisions -/

/-- What a plan is made from besides its inputs and the calibration. -/
structure Decisions where
  execution : ExecutionMemoryPlan
  totalRamBytes : Nat
  availableRamBytes : Nat
  threads : Nat × PlanReasonCode
  gpu : GpuDecision
  layerCache : LayerCacheDecision
  io : IoDecision

namespace Decisions

def strategy (d : Decisions) : StrategyId :=
  if d.gpu.enabled then .gpuLayerOffload else .cpuLayerStreaming

/-- The plan with these decisions. -/
def toPlan (d : Decisions) (user : UserProfile) (machine : MachineProfile) (model : ModelProfile)
    (storage : StorageProfile) (cost : CostEstimate) (provenance : CalibrationProvenance)
    (calibrationReason : PlanReasonCode) : ExecutionPlan where
  schemaVersion := executionPlanSchemaVersion
  rulesetVersion := plannerRulesetVersion
  binding :=
    { modelDescriptorFingerprint := model.identity.descriptorFingerprint
      machineFingerprint := machine.fingerprint
      storageFingerprint := storage.fingerprint
      modelPath := storage.modelPath }
  mode := user.mode
  strategy := d.strategy
  ramBudgetBytes := user.ramBudgetBytes
  cpuThreadCount := d.threads.1
  layerCache := d.layerCache
  io := d.io
  gpu := d.gpu
  reservations :=
    { availableRamBytesAtPlanning := d.availableRamBytes
      persistentResidentBytes := d.execution.persistentResidentBytes
      persistentStartupPeakBytes := d.execution.persistentStartupPeakBytes
      largestLayerLoadPeakBytes := d.execution.largestLayerLoadPeakBytes
      managedLowerBoundBytes := d.execution.managedLowerBoundBytes
      remainingBudgetAfterLowerBoundBytes :=
        saturatingSub user.ramBudgetBytes d.execution.managedLowerBoundBytes }
  cost := cost
  calibration := provenance
  reasons := decisionReasons user d.threads d.gpu d.layerCache d.io ++
    [{ code := calibrationReason, value := some provenance.observationIdentifiers.length }]

end Decisions

/-- The decisions `plan` takes on these inputs. -/
structure Decided (user : UserProfile) (machine : MachineProfile) (capabilities : CapabilitySet)
    (staticPlan : PlanResult) (d : Decisions) : Prop where
  valid : user.Valid
  logicalCpuCores : machine.logicalCpuCores ≠ 0
  available_le_total : d.availableRamBytes ≤ d.totalRamBytes
  execution : staticPlan.executionMemory = some d.execution
  total : machine.totalRamBytes = some d.totalRamBytes
  available : machine.availableRamBytes = some d.availableRamBytes
  budget_le : user.ramBudgetBytes ≤ d.availableRamBytes
  lowerBound_le : d.execution.managedLowerBoundBytes ≤ user.ramBudgetBytes
  layer_pos : capabilities.layerCachePossible = true → 0 < d.execution.minLayerResidentBytes
  threads : decideThreads user machine = .ok d.threads
  gpu : decideGpu user machine capabilities = .ok d.gpu
  layerCache : decideCache user capabilities d.execution = .ok d.layerCache
  io : decideIo user capabilities = .ok d.io

section plan

variable {user : UserProfile} {machine : MachineProfile} {model : ModelProfile}
  {storage : StorageProfile} {capabilities : CapabilitySet} {staticPlan : PlanResult}
  {calibration : Option CalibrationResult} {p : ExecutionPlan}

/-- A plan is its decisions with a cost, a provenance and a reason. -/
theorem plan_ok
    (h : plan user machine model storage capabilities staticPlan calibration = .ok p) :
    ∃ d cost provenance reason,
      Decided user machine capabilities staticPlan d ∧
      estimateCost user machine.fingerprint model.identity.descriptorFingerprint storage.fingerprint
        d.strategy d.execution calibration = .ok (cost, provenance, reason) ∧
      p = d.toPlan user machine model storage cost provenance reason := by
  unfold plan at h
  obtain ⟨_, huser, h⟩ := of_bind_ok h
  obtain ⟨_, hmachine, h⟩ := of_bind_ok h
  obtain ⟨_, -, h⟩ := of_bind_ok h
  obtain ⟨_, -, h⟩ := of_bind_ok h
  obtain ⟨_, -, h⟩ := of_bind_ok h
  obtain ⟨hderived, h⟩ := of_failIf_bind_ok h
  obtain ⟨-, h⟩ := of_failIf_bind_ok h
  obtain ⟨-, h⟩ := of_failIf_bind_ok h
  obtain ⟨total, htotal, h⟩ := of_okOr_bind_ok h
  obtain ⟨available, havailable, h⟩ := of_okOr_bind_ok h
  obtain ⟨-, h⟩ := of_failIf_bind_ok h
  obtain ⟨hbudget, h⟩ := of_failIf_bind_ok h
  obtain ⟨-, h⟩ := of_failIf_bind_ok h
  obtain ⟨-, h⟩ := of_failIf_bind_ok h
  obtain ⟨-, h⟩ := of_failIf_bind_ok h
  obtain ⟨execution, hexecution, h⟩ := of_okOr_bind_ok h
  obtain ⟨hlower, h⟩ := of_failIf_bind_ok h
  obtain ⟨threads, hthreads, h⟩ := of_bind_ok h
  obtain ⟨gpu, hgpu, h⟩ := of_bind_ok h
  obtain ⟨layerCache, hcache, h⟩ := of_bind_ok h
  obtain ⟨io, hio, h⟩ := of_bind_ok h
  obtain ⟨⟨cost, provenance, reason⟩, hcost, h⟩ := of_bind_ok h
  obtain ⟨hcores, hram⟩ := MachineProfile.validate_ok hmachine
  rw [MachineProfile.availableExceedsTotal, htotal, havailable] at hram
  have hle : available ≤ total := by simpa using hram
  let d : Decisions :=
    { execution := execution
      totalRamBytes := total
      availableRamBytes := available
      threads := threads
      gpu := gpu
      layerCache := layerCache
      io := io }
  refine ⟨d, cost, provenance, reason, ?_, hcost, ?_⟩
  · exact
      { valid := UserProfile.validate_ok huser
        logicalCpuCores := hcores
        available_le_total := hle
        execution := hexecution
        total := htotal
        available := havailable
        budget_le := Nat.le_of_not_lt hbudget
        lowerBound_le := Nat.le_of_not_lt fun hlt => hlower (.inr hlt)
        layer_pos := fun hpossible => by
          rw [not_not.mp hderived, CapabilitySet.layerCachePossible_derive hexecution] at hpossible
          exact hpossible.1
        threads := hthreads
        gpu := hgpu
        layerCache := hcache
        io := hio }
  · cases h
    rfl

/-- The inputs leave no choice in the decisions. -/
theorem Decided.unique {d d' : Decisions} (h : Decided user machine capabilities staticPlan d)
    (h' : Decided user machine capabilities staticPlan d') : d = d' := by
  obtain ⟨execution, total, available, threads, gpu, layerCache, io⟩ := d
  obtain ⟨execution', total', available', threads', gpu', layerCache', io'⟩ := d'
  obtain rfl : execution = execution' := Option.some.inj (h.execution.symm.trans h'.execution)
  obtain rfl : total = total' := Option.some.inj (h.total.symm.trans h'.total)
  obtain rfl : available = available' := Option.some.inj (h.available.symm.trans h'.available)
  obtain rfl : threads = threads' := Outcome.ok.inj (h.threads.symm.trans h'.threads)
  obtain rfl : gpu = gpu' := Outcome.ok.inj (h.gpu.symm.trans h'.gpu)
  obtain rfl : layerCache = layerCache' := Outcome.ok.inj (h.layerCache.symm.trans h'.layerCache)
  obtain rfl : io = io' := Outcome.ok.inj (h.io.symm.trans h'.io)
  rfl

/-! ## Each decision -/

theorem decideThreads_ok {threads : Nat × PlanReasonCode} (hvalid : user.Valid)
    (hcores : machine.logicalCpuCores ≠ 0) (h : decideThreads user machine = .ok threads) :
    1 ≤ threads.1 ∧
      threads.1 ≤ min machine.logicalCpuCores
        (user.cpuThreadLimit.getD machine.logicalCpuCores) ∧
      ∀ n, user.advanced.threadCount = some n → threads.1 = n := by
  have hlimit : 1 ≤ min machine.logicalCpuCores
      (user.cpuThreadLimit.getD machine.logicalCpuCores) := by
    cases hcpu : user.cpuThreadLimit with
    | none =>
      rw [Option.getD_none, Nat.min_self]
      omega
    | some limit =>
      have hne : limit ≠ 0 := fun hzero => hvalid.cpuThreadLimit (by rw [hcpu, hzero])
      rw [Option.getD_some]
      omega
  unfold decideThreads at h
  cases hrequested : user.advanced.threadCount with
  | some requested =>
    rw [hrequested] at h
    obtain ⟨hle, h⟩ := of_failIf_bind_ok h
    cases h
    have hne : requested ≠ 0 := fun hzero => hvalid.threadCount (by rw [hrequested, hzero])
    refine ⟨by omega, Nat.le_of_not_lt hle, fun n hn => Option.some.inj hn⟩
  | none =>
    rw [hrequested] at h
    cases h
    refine ⟨Nat.le_max_right _ _, Nat.max_le.mpr ⟨?_, hlimit⟩, fun n hn => by cases hn⟩
    -- no preset takes more than the whole
    have hfraction : user.mode.policy.threadFractionNumerator ≤
        user.mode.policy.threadFractionDenominator := by
      cases user.mode <;> decide
    refine Nat.div_le_of_le_mul ((Nat.min_le_left _ _).trans ?_)
    rw [Nat.mul_comm]
    exact Nat.mul_le_mul_right _ hfraction

theorem resolveCapabilityChoice_ok {explicit : Option Bool} {policyDefault available b : Bool}
    {rejection : FeasibilityRejection}
    (h : resolveCapabilityChoice explicit policyDefault available rejection = .ok b) :
    ∀ b', explicit = some b' → b = b' := by
  obtain ⟨havailable, h⟩ := of_failIf_bind_ok h
  cases h
  rintro b' rfl
  cases b' with
  | false => rfl
  | true =>
    rw [Option.getD_some, Bool.true_and]
    exact Classical.byContradiction fun hnot => havailable ⟨rfl, hnot⟩

theorem decideIo_ok {io : IoDecision} (h : decideIo user capabilities = .ok io) :
    (∀ b, user.advanced.readCoalescingEnabled = some b → io.readCoalescingEnabled = b) ∧
      ∀ b, user.advanced.groupedReadBufferReuseEnabled = some b →
        io.groupedReadBufferReuseEnabled = b := by
  obtain ⟨readCoalescing, hread, h⟩ := of_bind_ok h
  obtain ⟨grouped, hgrouped, h⟩ := of_bind_ok h
  cases h
  exact ⟨resolveCapabilityChoice_ok hread, resolveCapabilityChoice_ok hgrouped⟩

theorem selectGpu_ok {identifier : String} {selected : Option String}
    (h : selectGpu machine (some identifier) = .ok selected) : selected = some identifier := by
  unfold selectGpu at h
  dsimp only at h
  split at h
  · rename_i gpu hfind
    have hid := List.find?_some hfind
    cases h
    exact congrArg some (of_decide_eq_true hid)
  · cases h

theorem decideGpu_ok {gpu : GpuDecision} (hvalid : user.Valid)
    (h : decideGpu user machine capabilities = .ok gpu) :
    gpu.preference = user.gpuPreference ∧
      ∀ id, user.advanced.gpuDeviceId = some id →
        gpu.enabled = true ∧ gpu.selectedDeviceId = some id := by
  obtain ⟨-, h⟩ := of_failIf_bind_ok h
  obtain ⟨hdevice, h⟩ := of_failIf_bind_ok h
  obtain ⟨selected, hselect, h⟩ := of_bind_ok h
  cases h
  refine ⟨rfl, fun id hid => ?_⟩
  have hmode : user.mode = .advanced := hvalid.mode_of (by simp [AdvancedOverrides.isEmpty, hid])
  have hpreference : user.gpuPreference ≠ .disabled := fun hdisabled =>
    hvalid.gpu ⟨by rw [hid]; rfl, hdisabled⟩
  have husable : capabilities.gpuBackendUsable = true :=
    Classical.byContradiction fun hnot => hdevice ⟨by rw [hid]; rfl, hnot⟩
  have henabled : (user.mode.policy.allowGpu && user.gpuPreference != .disabled &&
      capabilities.gpuBackendUsable) = true := by
    rw [hmode, husable, Bool.and_true]
    simpa [OperatingMode.policy] using hpreference
  rw [if_pos henabled, hid] at hselect
  exact ⟨henabled, selectGpu_ok hselect⟩

theorem requestedCacheCapacity_ok {execution : ExecutionMemoryPlan} {requested : Nat}
    (h : requestedCacheCapacity user capabilities execution = .ok requested) :
    requested ≤ execution.layerCacheCapacityBytes ∧
      (wantsCache user = false → requested = 0) ∧
      (wantsCache user = true → capabilities.layerCachePossible = true →
        ∀ capacity, user.advanced.layerCacheCapacityBytes = some capacity → requested = capacity) := by
  unfold requestedCacheCapacity at h
  split at h
  · rename_i hnot
    cases h
    refine ⟨Nat.zero_le _, fun _ => rfl, fun hwants hpossible => ?_⟩
    simp [hwants, hpossible] at hnot
  · rename_i hboth
    have hwants : wantsCache user = true :=
      Classical.byContradiction fun hnot => hboth (.inl hnot)
    cases hcapacity : user.advanced.layerCacheCapacityBytes with
    | some capacity =>
      rw [hcapacity] at h
      obtain ⟨hle, h⟩ := of_failIf_bind_ok h
      cases h
      refine ⟨Nat.le_of_not_lt hle, fun hfalse => ?_, fun _ _ c hc => Option.some.inj hc⟩
      rw [hwants] at hfalse
      cases hfalse
    | none =>
      rw [hcapacity] at h
      cases h
      have hpart : user.mode.policy.layerCacheCapacityBasisPoints ≤ 10000 := by
        cases user.mode <;> decide
      refine ⟨(Nat.mod_le _ _).trans (Nat.div_le_of_le_mul ?_), fun hfalse => ?_,
        fun _ _ c hc => by cases hc⟩
      · rw [Nat.mul_comm 10000]
        exact Nat.mul_le_mul_left _ hpart
      · rw [hwants] at hfalse
        cases hfalse

/-- A cache that is on has room for a layer, within the static capacity. -/
structure CacheSound (execution : ExecutionMemoryPlan) (cache : LayerCacheDecision) : Prop where
  enabled : cache.enabled = true →
    execution.minLayerResidentBytes ≤ cache.capacityBytes ∧
      cache.capacityBytes ≤ execution.layerCacheCapacityBytes
  disabled : cache.enabled = false → cache.capacityBytes = 0

/-- A cache that is asked for is on, with the capacity asked for. -/
theorem decideCache_ok {execution : ExecutionMemoryPlan} {cache : LayerCacheDecision}
    (hvalid : user.Valid) (hpos : capabilities.layerCachePossible = true →
      0 < execution.minLayerResidentBytes)
    (h : decideCache user capabilities execution = .ok cache) :
    CacheSound execution cache ∧
      (∀ b, user.advanced.layerCacheEnabled = some b → cache.enabled = b) ∧
      ∀ capacity, user.advanced.layerCacheCapacityBytes = some capacity →
        cache = { enabled := true, capacityBytes := capacity } := by
  obtain ⟨hpossible, h⟩ := of_failIf_bind_ok h
  obtain ⟨requested, hrequested, h⟩ := of_bind_ok h
  obtain ⟨hfits, h⟩ := of_failIf_bind_ok h
  cases h
  obtain ⟨hle, hunwanted, hexplicit⟩ := requestedCacheCapacity_ok hrequested
  have hon : user.advanced.layerCacheEnabled = some true ∨
      user.advanced.layerCacheCapacityBytes.isSome = true →
      capabilities.layerCachePossible = true ∧
        execution.minLayerResidentBytes ≤ requested ∧ 0 < execution.minLayerResidentBytes := by
    intro hrequired
    have hable : capabilities.layerCachePossible = true :=
      Classical.byContradiction fun hnot => hpossible ⟨hrequired, hnot⟩
    exact ⟨hable, Nat.le_of_not_lt fun hlt => hfits ⟨hrequired, hlt⟩, hpos hable⟩
  refine ⟨⟨fun henabled => ?_, fun hdisabled => ?_⟩, fun b hb => ?_, fun capacity hcapacity => ?_⟩
  · rw [if_pos henabled]
    exact ⟨(of_decide_eq_true henabled).1, hle⟩
  · simp only at hdisabled ⊢
    rw [hdisabled]
    rfl
  · cases b with
    | true => exact decide_eq_true (hon (.inl hb)).2
    | false =>
      have hzero : requested = 0 := hunwanted (by rw [wantsCache, hb, Option.getD_some])
      exact decide_eq_false (by omega)
  · obtain ⟨hable, hroom⟩ := hon (.inr (by rw [hcapacity]; rfl))
    have hwants : wantsCache user = true := by
      rw [wantsCache]
      cases henabled : user.advanced.layerCacheEnabled with
      | none =>
        have hmode : user.mode = .advanced :=
          hvalid.mode_of (by simp [AdvancedOverrides.isEmpty, hcapacity])
        rw [hmode]
        rfl
      | some b =>
        cases b with
        | true => rfl
        | false => exact absurd ⟨henabled, by rw [hcapacity]; rfl⟩ hvalid.cache
    have hequal : requested = capacity := hexplicit hwants hable capacity hcapacity
    rw [decide_eq_true hroom, if_pos rfl, hequal]

/-! ## Every plan -/

/-- The plan keeps what the user asked for. -/
structure Honours (user : UserProfile) (p : ExecutionPlan) : Prop where
  ramBudget : p.ramBudgetBytes = user.ramBudgetBytes
  mode : p.mode = user.mode
  gpuPreference : p.gpu.preference = user.gpuPreference
  threadCount : ∀ n, user.advanced.threadCount = some n → p.cpuThreadCount = n
  cacheEnabled : ∀ b, user.advanced.layerCacheEnabled = some b → p.layerCache.enabled = b
  cacheCapacity : ∀ capacity, user.advanced.layerCacheCapacityBytes = some capacity →
    p.layerCache = { enabled := true, capacityBytes := capacity }
  readCoalescing : ∀ b, user.advanced.readCoalescingEnabled = some b →
    p.io.readCoalescingEnabled = b
  groupedReadBufferReuse : ∀ b, user.advanced.groupedReadBufferReuseEnabled = some b →
    p.io.groupedReadBufferReuseEnabled = b
  gpuDevice : ∀ id, user.advanced.gpuDeviceId = some id →
    p.gpu.enabled = true ∧ p.gpu.selectedDeviceId = some id

theorem plan_sound (user : UserProfile) (machine : MachineProfile) (model : ModelProfile)
    (storage : StorageProfile) (capabilities : CapabilitySet) (staticPlan : PlanResult)
    (calibration : Option CalibrationResult) (p : ExecutionPlan)
    (h : plan user machine model storage capabilities staticPlan calibration = .ok p) :
    ∃ execution total available,
      staticPlan.executionMemory = some execution ∧
      machine.totalRamBytes = some total ∧
      machine.availableRamBytes = some available ∧
      1 ≤ p.cpuThreadCount ∧
      p.cpuThreadCount ≤ min machine.logicalCpuCores
        (user.cpuThreadLimit.getD machine.logicalCpuCores) ∧
      CacheSound execution p.layerCache ∧
      p.reservations.managedLowerBoundBytes = execution.managedLowerBoundBytes ∧
      execution.managedLowerBoundBytes ≤ p.ramBudgetBytes ∧
      p.ramBudgetBytes ≤ available ∧
      available ≤ total ∧
      Honours user p := by
  obtain ⟨d, cost, provenance, reason, hd, -, rfl⟩ := plan_ok h
  obtain ⟨hone, hlimit, hthreads⟩ := decideThreads_ok hd.valid hd.logicalCpuCores hd.threads
  obtain ⟨hsound, henabled, hcapacity⟩ := decideCache_ok hd.valid hd.layer_pos hd.layerCache
  obtain ⟨hread, hgrouped⟩ := decideIo_ok hd.io
  obtain ⟨hpreference, hdevice⟩ := decideGpu_ok hd.valid hd.gpu
  refine ⟨d.execution, d.totalRamBytes, d.availableRamBytes, hd.execution, hd.total, hd.available,
    hone, hlimit, hsound, rfl, hd.lowerBound_le, hd.budget_le, hd.available_le_total, ?_⟩
  exact
    { ramBudget := rfl
      mode := rfl
      gpuPreference := hpreference
      threadCount := hthreads
      cacheEnabled := henabled
      cacheCapacity := hcapacity
      readCoalescing := hread
      groupedReadBufferReuse := hgrouped
      gpuDevice := hdevice }

/-! ### A small model on a laptop, planned by hand -/

def usableBackend : Availability := { detected := true, supported := true, usable := true }

def sampleMachine : MachineProfile where
  schemaVersion := profileSchemaVersion
  os := "linux"
  architecture := "x86_64"
  kernelVersion := none
  cpuVendor := none
  cpuModel := none
  physicalCpuCores := some 4
  logicalCpuCores := 8
  cpuFeatures := ∅
  totalRamBytes := some 32000
  availableRamBytes := some 24000
  cpuBackend := usableBackend
  gpuInventoryState := .complete
  gpus := []

def sampleStorage : StorageProfile where
  schemaVersion := profileSchemaVersion
  modelPath := "/models/tiny.gguf"
  pathState := .ready
  readable := true
  regularFile := true
  fileSizeBytes := some 3168
  filesystemType := some "testfs"
  filesystemId := none
  deviceId := none
  kind := .localDisk
  seekable := true

def sampleModel : ModelProfile where
  schemaVersion := profileSchemaVersion
  identity := { displayName := none, descriptorFingerprint := 1 }
  architecture := some "llama"
  contextSize := some 64
  layerCount := some 1
  tensorCount := 11
  totalTensorElements := some 792
  fileSizeBytes := 3168
  tensorDataBytes := some 3168
  tensorFormats :=
    [{ format := "F32", tensorCount := 11, elementCount := some 792, byteCount := some 3168,
       runtimeSupported := true }]
  executionCompatibility := .executable
  hasCoalescibleLayerReads := true
  hasReusableGroupedReadCandidate := false

def sampleExecution : ExecutionMemoryPlan where
  blockCount := 1
  residentPersistentCount := 2
  streamedPersistentCount := 0
  persistentResidentBytes := 544
  persistentStartupPeakBytes := 544
  largestLayerIndex := 0
  largestLayerTensorCount := 9
  largestLayerResidentBytes := 2624
  largestLayerLoadPeakBytes := 2624
  managedLowerBoundBytes := 3168
  layerCacheCapacityBytes := 6832
  maxCompleteCachedLayers := 1
  minLayerResidentBytes := 2624
  logicalTensorReadsPerForward := 9
  estimatedPhysicalReadsPerForward := 1
  logicalTensorBytesPerForward := 2624
  estimatedPhysicalBytesPerForward := 2624
  estimatedGapBytesPerForward := 0
  layerStreamingLowerBoundFits := true

def sampleStaticPlan : PlanResult where
  fileSize := 3168
  architecture := some "llama"
  tensorCount := 11
  ramRequested := 10000
  cacheCapacity := 5000
  overheadReserved := 0
  available := 10000
  fitsInRam := true
  fileBackedNeeded := 0
  totalTensorBytes := some 3168
  executionMemory := some sampleExecution
  executionPreflightError := none
  budget := { total := 10000, allocations := ∅, used := 0, peakUsed := 0 }

def sampleUser : UserProfile :=
  { UserProfile.new 10000 .advanced with
    cpuThreadLimit := some 6
    calibrationLevel := .standard
    advanced :=
      { AdvancedOverrides.default with
        threadCount := some 3
        layerCacheCapacityBytes := some 3000
        groupedReadBufferReuseEnabled := some false } }

def sampleCapabilities : CapabilitySet :=
  CapabilitySet.derive sampleMachine sampleModel sampleStorage sampleStaticPlan

theorem plan_sound_advanced :
    ∃ p, plan sampleUser sampleMachine sampleModel sampleStorage sampleCapabilities sampleStaticPlan
        none = .ok p ∧
      p.cpuThreadCount = 3 ∧ p.layerCache = { enabled := true, capacityBytes := 3000 } ∧
      p.io.groupedReadBufferReuseEnabled = false := by
  obtain ⟨p, hp⟩ : ∃ p, plan sampleUser sampleMachine sampleModel sampleStorage sampleCapabilities
      sampleStaticPlan none = .ok p := exists_of_isOk (by decide +kernel)
  obtain ⟨_, _, _, -, -, -, -, -, -, -, -, -, -, hkeeps⟩ := plan_sound sampleUser sampleMachine
    sampleModel sampleStorage sampleCapabilities sampleStaticPlan none p hp
  exact ⟨p, hp, hkeeps.threadCount 3 rfl, hkeeps.cacheCapacity 3000 rfl,
    hkeeps.groupedReadBufferReuse false rfl⟩

/-! ## Two calibrations -/

/-- The reasons that are about the calibration. -/
def PlanReasonCode.isCalibration : PlanReasonCode → Bool
  | .calibrationObservationsApplied | .calibrationNotRequested | .calibrationNotApplicable => true
  | _ => false

theorem estimateCost_reason {machineFingerprint modelFingerprint storageFingerprint : UInt64}
    {strategy : StrategyId} {execution : ExecutionMemoryPlan} {cost : CostEstimate}
    {provenance : CalibrationProvenance} {reason : PlanReasonCode}
    (h : estimateCost user machineFingerprint modelFingerprint storageFingerprint strategy execution
      calibration = .ok (cost, provenance, reason)) : reason.isCalibration = true := by
  unfold estimateCost at h
  dsimp only at h
  split at h
  · cases h
    rfl
  split at h
  · cases h
    rfl
  split at h
  · unfold calibratedCost at h
    obtain ⟨_, -, h⟩ := of_bind_ok h
    obtain ⟨_, -, h⟩ := of_bind_ok h
    cases h
    split <;> rfl
  · cases h
    rfl

/-- Two plans for the same inputs differ in what the calibration is shown to say. -/
theorem plan_noninterference (user : UserProfile) (machine : MachineProfile) (model : ModelProfile)
    (storage : StorageProfile) (capabilities : CapabilitySet) (staticPlan : PlanResult)
    (calibration calibration' : Option CalibrationResult) (p p' : ExecutionPlan)
    (h : plan user machine model storage capabilities staticPlan calibration = .ok p)
    (h' : plan user machine model storage capabilities staticPlan calibration' = .ok p') :
    p'.strategy = p.strategy ∧ p'.cpuThreadCount = p.cpuThreadCount ∧
      p'.layerCache = p.layerCache ∧ p'.io = p.io ∧ p'.gpu = p.gpu ∧
      p'.reservations = p.reservations ∧
      p' = { p with cost := p'.cost, calibration := p'.calibration, reasons := p'.reasons } ∧
      ∃ common reason reason', p.reasons = common ++ [reason] ∧ p'.reasons = common ++ [reason'] ∧
        reason.code.isCalibration = true ∧ reason'.code.isCalibration = true := by
  obtain ⟨d, cost, provenance, reason, hd, hcost, rfl⟩ := plan_ok h
  obtain ⟨d', cost', provenance', reason', hd', hcost', rfl⟩ := plan_ok h'
  obtain rfl := hd.unique hd'
  exact ⟨rfl, rfl, rfl, rfl, rfl, rfl, rfl, _, _, _, rfl, rfl, estimateCost_reason hcost,
    estimateCost_reason hcost'⟩

/-- One sequential read of 2 MB in 2 s. -/
def sampleObservation : PerformanceObservation where
  identifier := "sequential-read"
  metric := .sequentialReadThroughput
  unit := .bytesPerSecond
  value := some 1000000
  status := .measured
  statusReason := none
  strategy := none
  quantizationFormat := none
  calibrationLevel := .standard
  workloadBytes := 2000000
  workloadElements := 0
  measurementDurationNs := 2000000000
  sampleCount := 1
  rawSamples := [{ elapsedNs := 2000000000, unitsProcessed := 2000000 }]
  timestampUnixSeconds := none
  qualityBasisPoints := 10000

def sampleCalibration : CalibrationResult where
  schemaVersion := profileSchemaVersion
  identifier := "calibration-1"
  level := .standard
  machineFingerprint := sampleMachine.fingerprint
  modelFingerprint := some sampleModel.identity.descriptorFingerprint
  storageFingerprint := some sampleStorage.fingerprint
  calibrationPlanIdentifier := "calibration-plan-1"
  calibrationPlanVersion := Planner.calibrationPlanVersion
  calibrationRulesetVersion := Planner.calibrationRulesetVersion
  observations := [sampleObservation]

theorem plan_noninterference_calibrated :
    ∃ p p', plan sampleUser sampleMachine sampleModel sampleStorage sampleCapabilities
        sampleStaticPlan none = .ok p ∧
      plan sampleUser sampleMachine sampleModel sampleStorage sampleCapabilities sampleStaticPlan
        (some sampleCalibration) = .ok p' ∧
      p'.cpuThreadCount = p.cpuThreadCount ∧ p'.layerCache = p.layerCache ∧
      p'.calibration.observationIdentifiers = ["sequential-read"] := by
  obtain ⟨p, hp⟩ : ∃ p, plan sampleUser sampleMachine sampleModel sampleStorage sampleCapabilities
      sampleStaticPlan none = .ok p := exists_of_isOk (by decide +kernel)
  obtain ⟨p', hp', hread⟩ : ∃ p', plan sampleUser sampleMachine sampleModel sampleStorage
      sampleCapabilities sampleStaticPlan (some sampleCalibration) = .ok p' ∧
      p'.calibration.observationIdentifiers = ["sequential-read"] := by
    have hrun : (plan sampleUser sampleMachine sampleModel sampleStorage sampleCapabilities
        sampleStaticPlan (some sampleCalibration)).map
          (fun p' => p'.calibration.observationIdentifiers) = .ok ["sequential-read"] := by
      decide +kernel
    exact of_map_ok hrun
  obtain ⟨-, hthreads, hcache, -⟩ := plan_noninterference sampleUser sampleMachine sampleModel
    sampleStorage sampleCapabilities sampleStaticPlan none (some sampleCalibration) p p' hp hp'
  exact ⟨p, p', hp, hp', hthreads, hcache, hread⟩

end plan
end Planner
end Ramforge
