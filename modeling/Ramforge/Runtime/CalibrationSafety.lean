/-
Calibration runs to its end: every task of a plan gets one observation that is accepted, within
the limits of the plan, and nothing stays charged.
-/
import Ramforge.Core.MemoryAccounting
import Ramforge.Runtime.CalibrationOrder
import Ramforge.Runtime.CalibrationMeasure
import Ramforge.Runtime.PlannerSoundness

namespace Ramforge
namespace Calibration

open Std Rust Rust.Exec Planner

/-! ## Observations -/

/-- An observation of the task, which is accepted when its sample times can be added up. -/
structure Reports (task : CalibrationTask) (level : CalibrationLevel)
    (observation : PerformanceObservation) : Prop where
  identifier : observation.identifier = task.identifier
  sameLevel : observation.calibrationLevel = level
  accepted : task.identifier ≠ "" → level ≠ .none →
    (observation.rawSamples.map fun sample => sample.elapsedNs.toNat).sum < u64Bound →
      observation.validate = .ok ()

theorem observationShape_fits (kind : CalibrationTestKind) :
    (observationShape kind).2.1 = (observationShape kind).1.expectedUnit ∧
      ¬((observationShape kind).1 = .strategyLatency ∧ (observationShape kind).2.2.1 = none) ∧
      ¬((observationShape kind).1 = .quantizedDecodeThroughput ∧
        (observationShape kind).2.2.2 = none) := by
  cases kind <;> simp [observationShape, ObservationMetric.expectedUnit]

/-- The checks that do not depend on the status. -/
theorem validate_of_shape {observation : PerformanceObservation} (kind : CalibrationTestKind)
    (hidentifier : observation.identifier ≠ "") (hlevel : observation.calibrationLevel ≠ .none)
    (hquality : observation.qualityBasisPoints ≤ 10000)
    (hshape : (observation.metric, observation.unit, observation.strategy,
      observation.quantizationFormat) = observationShape kind)
    (hmeasured : observation.status = .measured → observation.validateMeasured = .ok ())
    (hother : observation.status ≠ .measured → ¬(observation.value.isSome ∨
      observation.measurementDurationNs ≠ 0 ∨ observation.sampleCount ≠ 0 ∨
      observation.rawSamples ≠ [] ∨ observation.statusReason = none ∨
      observation.qualityBasisPoints ≠ 0)) : observation.validate = .ok () := by
  obtain ⟨hunit, hstrategy, hformat⟩ := observationShape_fits kind
  rw [← hshape] at hunit hstrategy hformat
  rw [PerformanceObservation.validate, Outcome.failIf_of_not, Outcome.ok_bind,
    Outcome.failIf_of_not (not_not.mpr hunit), Outcome.ok_bind, Outcome.failIf_of_not hstrategy,
    Outcome.ok_bind, Outcome.failIf_of_not hformat, Outcome.ok_bind]
  · split
    next hstatus => exact hmeasured hstatus
    next hstatus => exact Outcome.failIf_of_not (hother (by rw [hstatus]; decide))
    next hstatus => exact Outcome.failIf_of_not (hother (by rw [hstatus]; decide))
    next hstatus => exact Outcome.failIf_of_not (hother (by rw [hstatus]; decide))
  · rintro (h | h | h)
    · exact hidentifier h
    · exact hlevel h
    · omega

theorem nonMeasuredObservation_reports (task : CalibrationTask) (level : CalibrationLevel)
    {status : ObservationStatus} (reason : ObservationStatusReason) (h : status ≠ .measured) :
    Reports task level (nonMeasuredObservation task level status reason) := by
  refine ⟨rfl, rfl, fun hidentifier hlevel _ => ?_⟩
  refine validate_of_shape task.kind hidentifier hlevel (Nat.zero_le _) rfl
    (fun hstatus => absurd hstatus h) fun _ => ?_
  rintro (h | h | h | h | h | h)
  · cases h
  · exact h rfl
  · exact h rfl
  · exact h rfl
  · cases h
  · exact h rfl

theorem pos_of_clamped {raw : Option Nat} {cap value : Nat}
    (h : (raw.map fun value => min value cap).filter (0 < ·) = some value) : 0 < value :=
  of_decide_eq_true (Option.filter_eq_some_iff.mp h).2

/-- What a value that was aggregated says about its samples. -/
theorem of_aggregate_some {unit : ObservationUnit} {samples : List MeasurementSample} {value : Nat}
    (h : aggregateObservationValue unit samples = .ok (some value)) :
    0 < value ∧ samples ≠ [] ∧ ∀ sample ∈ samples, sample.isZero = false := by
  unfold aggregateObservationValue at h
  split at h
  next => cases h
  next hsamples =>
    simp only [not_or, List.isEmpty_iff, Bool.not_eq_true, List.any_eq_false] at hsamples
    refine ⟨?_, hsamples⟩
    obtain ⟨elapsed, -, h⟩ := Outcome.of_bind_ok h
    obtain ⟨units, -, h⟩ := Outcome.of_bind_ok h
    cases unit with
    | nanoseconds =>
      obtain ⟨total, -, h⟩ := Outcome.of_bind_ok h
      exact pos_of_clamped (Outcome.ok.inj h)
    | bytesPerSecond | elementsPerSecond =>
      generalize U128.mul units 1000000000 = scaled at h
      cases scaled with
      | none => exact pos_of_clamped (Outcome.ok.inj h)
      | some scaled =>
        obtain ⟨total, -, h⟩ := Outcome.of_bind_ok h
        exact pos_of_clamped (Outcome.ok.inj h)

/-- Saturating and plain addition agree where the sum fits. -/
theorem saturatingTotal_eq {part : MeasurementSample → Nat} {samples : List MeasurementSample}
    (h : (samples.map part).sum < u64Bound) : saturatingTotal part samples = (samples.map part).sum := by
  have hfold : ∀ start, start + (samples.map part).sum < u64Bound →
      samples.foldl (fun total sample => saturatingAdd total (part sample)) start =
        start + (samples.map part).sum := by
    clear h
    induction samples with
    | nil => exact fun start _ => rfl
    | cons sample rest ih =>
      intro start hstart
      rw [List.map_cons, List.sum_cons, ← Nat.add_assoc] at hstart ⊢
      have hadd : saturatingAdd start (part sample) = start + part sample := by
        unfold saturatingAdd
        omega
      rw [List.foldl_cons, hadd]
      exact ih _ hstart
  rw [saturatingTotal, hfold 0 (by rwa [Nat.zero_add]), Nat.zero_add]

theorem measuredObservation_reports (task : CalibrationTask) (level : CalibrationLevel)
    {samples : List MeasurementSample} (hlength : samples.length ≤ u64Bound) :
    ∃ observation, measuredObservation task level samples = .ok observation ∧
      Reports task level observation := by
  obtain ⟨value, hvalue⟩ := aggregateObservationValue_ok (observationShape task.kind).2.1 hlength
  obtain ⟨quality, hquality, hle⟩ := observationQualityBasisPoints_ok samples
  unfold measuredObservation
  simp only
  rw [hvalue, Outcome.ok_bind]
  cases value with
  | none => exact ⟨_, rfl, nonMeasuredObservation_reports task level _ (by decide)⟩
  | some value =>
    simp only
    rw [hquality, Outcome.ok_bind]
    refine ⟨_, rfl, rfl, rfl, fun hidentifier hlevel hsum => ?_⟩
    obtain ⟨hpos, hne, hzero⟩ := of_aggregate_some hvalue
    refine validate_of_shape task.kind hidentifier hlevel hle rfl (fun _ => ?_)
      fun hstatus => absurd rfl hstatus
    have helapsed := sum_pos hne fun sample hmem => (isZero_eq_false (hzero sample hmem)).1
    have htotal := saturatingTotal_eq hsum
    rw [PerformanceObservation.validateMeasured, Outcome.failIf_of_not, Outcome.ok_bind, hquality,
      Outcome.ok_bind, Outcome.failIf_of_not (not_not.mpr rfl), Outcome.ok_bind, hvalue,
      Outcome.ok_bind, Outcome.failIf_of_not (not_not.mpr rfl)]
    rintro (h | h | h | h | h | h | h)
    · exact h (decide_eq_true hpos)
    · exact absurd (htotal.symm.trans h) (Nat.ne_of_gt helapsed)
    · exact hne (List.eq_nil_of_length_eq_zero h)
    · exact h rfl
    · cases h
    · obtain ⟨sample, hmem, hsample⟩ := List.any_eq_true.mp h
      rw [hzero sample hmem] at hsample
      cases hsample
    · exact h (PerformanceObservation.elapsedTotal_eq_some.mpr ⟨hsum, htotal⟩)

/-! ## One task -/

/-- A call that ends well, with what its end meets. -/
theorem run_of_ends {σ ε α : Type} {m : Exec σ ε α} {s : σ} {Q : α → σ → Prop}
    (h : Ends m s Q (fun _ _ => False) fun _ _ => False) : ∃ a t, m s = (.ok a, t) ∧ Q a t := by
  rcases hrun : m s with ⟨a | e | p, t⟩
  · exact ⟨a, t, rfl, h.of_ok hrun⟩
  · exact (h.of_err hrun).elim
  · exact (h.of_panic hrun).elim

theorem executeTask_ends {task : CalibrationTask} {storage : StorageProfile}
    (hmeasures : ∀ measurement, measurementOf task storage = some measurement →
      Measures task measurement) (hsamples : task.work.sampleCount ≤ u64Bound)
    (level : CalibrationLevel) (host : CalibrationHost) :
    Ends (executeTask task level storage) host
      (fun observation host' => Reports task level observation ∧
        Spent host task.expectedResources.memoryBytes task.expectedResources.storageReadBytes host')
      (fun _ _ => False) fun _ _ => False := by
  unfold executeTask
  split
  next => exact ⟨nonMeasuredObservation_reports task level _ (by decide),
    (Spent.refl host _).mono (Nat.zero_le _)⟩
  next measurement hmeasurement =>
    rw [ends_bind, ends_attempt]
    refine (hmeasures measurement hmeasurement host).mono (fun samples t ht => ?_)
      (fun reason t ht => ?_) fun _ _ ht => ht
    · obtain ⟨observation, hobservation, hreports⟩ :=
        measuredObservation_reports task level (ht.1.trans hsamples)
      simp only [hobservation]
      exact ⟨hreports, ht.2⟩
    · cases reason <;> exact ⟨nonMeasuredObservation_reports task level _ (by decide), ht⟩

/-- A budget that charges nothing, and never has charged more than `limit`. -/
structure Idle (limit : Nat) (budget : MemoryBudget) : Prop where
  accounted : budget.Accounted
  used : budget.used = 0
  peak : budget.peakUsed ≤ limit
  room : limit ≤ budget.total

theorem Idle.free {limit : Nat} {budget : MemoryBudget} (h : Idle limit budget) (name : String) :
    budget.get name = none := by
  cases hget : budget.get name with
  | none => rfl
  | some bytes =>
    have hpos := h.accounted.pos name bytes hget
    have hle := h.accounted.le_used hget
    rw [h.used] at hle
    omega

/-- A temporary charge within the limit is made and given back. -/
theorem withTemp_ends {κ ε α : Type} {ofMemory : MemoryError → ε} {name : String} {bytes limit : Nat}
    {f : Exec κ ε α} {host : κ} {budget : MemoryBudget} {Q : α → κ → Prop} (hidle : Idle limit budget)
    (hpos : 0 < bytes) (hle : bytes ≤ limit)
    (hf : Ends f host Q (fun _ _ => False) fun _ _ => False) :
    Ends (MemoryBudget.withTemp ofMemory name bytes (onFst f)) (host, budget)
      (fun a s => Q a s.1 ∧ Idle limit s.2) (fun _ _ => False) fun _ _ => False := by
  have hfits : budget.used + bytes ≤ budget.total := by
    rw [hidle.used, Nat.zero_add]
    exact hle.trans hidle.room
  have hallocate : MemoryBudget.allocate name bytes budget = (.ok (), budget.charge name bytes) := by
    rw [MemoryBudget.allocate_run hidle.accounted, if_neg (Nat.ne_of_gt hpos), hidle.free name,
      if_neg (by decide), if_pos hfits]
  have hcharged : (budget.charge name bytes).Accounted :=
    (MemoryBudget.Step.charge hpos (hidle.free name) hfits).accounted hidle.accounted
  have hheld : (budget.charge name bytes).get name = some bytes := by
    rw [MemoryBudget.get_charge, if_pos rfl]
  have hrelease : MemoryBudget.release name (budget.charge name bytes) =
      (.ok bytes, (budget.charge name bytes).discharge name bytes) := by
    rw [MemoryBudget.release_run hcharged, hheld]
  have hend : Idle limit ((budget.charge name bytes).discharge name bytes) := by
    refine ⟨(MemoryBudget.Step.discharge hheld).accounted hcharged, ?_, ?_, hidle.room⟩
    · rw [MemoryBudget.discharge_used, MemoryBudget.charge_used, hidle.used, Nat.zero_add, Nat.sub_self]
    · refine Nat.max_le.mpr ⟨hidle.peak, ?_⟩
      rwa [hidle.used, Nat.zero_add]
  rw [MemoryBudget.withTemp, if_neg (Nat.ne_of_gt hpos), ends_bind, ends_mapErr, ends_onSnd,
    ends_of_ok hallocate, ends_bind, ends_catchUnwind, ends_onFst]
  refine hf.mono (fun a host' ha => ?_) (fun _ _ h => h.elim) fun _ _ h => h.elim
  rw [ends_bind, ends_attempt, ends_onSnd, ends_of_ok hrelease]
  exact ⟨ha, hend⟩

/-- What a run tells of a task, with the events of its execution. -/
inductive Told (plan : CalibrationPlan) (task : CalibrationTask) :
    PerformanceObservation → List CalibrationEvent → Prop where
  | passed {observation : PerformanceObservation} (reports : Reports task plan.level observation)
      (status : observation.status = .skipped ∨ observation.status = .unavailable) :
    Told plan task observation []
  | executed {observation : PerformanceObservation} {bytes : Nat} {events : List CalibrationEvent}
      (reports : Reports task plan.level observation) (within : ¬OverLimits plan.limits task)
      (charge : bytes ≤ plan.limits.maxMemoryBytes)
      (uses : Uses bytes plan.limits.maxStorageReadBytes events) :
    Told plan task observation (.charged bytes :: events)

theorem Uses.mono {n n' bound bound' : Nat} {events : List CalibrationEvent} (h : Uses n bound events)
    (hn : n ≤ n') (hbound : bound ≤ bound') : Uses n' bound' events := by
  refine ⟨h.buffers.trans hn, fun event hmem => (h.kinds event hmem).imp id ?_⟩
  exact fun ⟨bytes, hle, hevent⟩ => ⟨bytes, hle.trans hbound, hevent⟩

/-- What a plan promises of a task that it hands to the runner. -/
structure Ready (plan : CalibrationPlan) (storage : StorageProfile) (task : CalibrationTask) : Prop where
  sound : task.Sound
  measures : ∀ measurement, measurementOf task storage = some measurement → Measures task measurement

theorem CalibrationPlan.Sound.ready {plan : CalibrationPlan} (h : plan.Sound) (storage : StorageProfile)
    {task : CalibrationTask} (hmem : task ∈ plan.tasks) : Ready plan storage task :=
  ⟨h.taskSound hmem, fun _ hm => (h.made task hmem).measures (h.taskSound hmem) hm⟩

theorem observeTask_ends {plan : CalibrationPlan} {storage : StorageProfile} {task : CalibrationTask}
    (hready : Ready plan storage task) (capabilities : CapabilitySet) (remainingNs : Nat)
    (host : CalibrationHost) {budget : MemoryBudget} (hidle : Idle plan.limits.maxMemoryBytes budget) :
    Ends (observeTask plan storage capabilities task remainingNs) (host, budget)
      (fun observation s => (∃ events, s.1.trace = host.trace ++ events ∧
        Told plan task observation events) ∧ Idle plan.limits.maxMemoryBytes s.2)
      (fun _ _ => False) fun _ _ => False := by
  have hpassed : ∀ {status reason}, status = .skipped ∨ status = .unavailable →
      (∃ events, host.trace = host.trace ++ events ∧ Told plan task
        (nonMeasuredObservation task plan.level status reason) events) ∧
          Idle plan.limits.maxMemoryBytes budget := by
    intro status reason hstatus
    have hne : status ≠ .measured := by
      rcases hstatus with rfl | rfl <;> decide
    exact ⟨⟨[], (List.append_nil _).symm,
      .passed (nonMeasuredObservation_reports task plan.level reason hne) hstatus⟩, hidle⟩
  unfold observeTask
  split
  next => exact hpassed (.inl rfl)
  next =>
    split
    next => exact hpassed (.inr rfl)
    next =>
      split
      next => exact hpassed (.inr rfl)
      next =>
        split
        next => exact hpassed (.inl rfl)
        next hwithin =>
          have hmemory : task.expectedResources.memoryBytes ≤ plan.limits.maxMemoryBytes :=
            Nat.le_of_not_lt fun h => hwithin (.inl h)
          have hreads : task.expectedResources.storageReadBytes ≤ plan.limits.maxStorageReadBytes :=
            Nat.le_of_not_lt fun h => hwithin (.inr (.inl h))
          have hbytes : max task.expectedResources.memoryBytes 1 = task.expectedResources.memoryBytes :=
            Nat.max_eq_left hready.sound.memory_pos
          simp only [hbytes]
          refine withTemp_ends (Q := fun observation (host' : CalibrationHost) => ∃ events,
            host'.trace = host.trace ++ events ∧ Told plan task observation events) hidle
            hready.sound.memory_pos hmemory ?_
          rw [ends_bind, ends_record]
          refine (executeTask_ends hready.measures ?_ plan.level _).mono
            (fun observation host' ⟨hreports, events, htrace, huses⟩ => ?_) (fun _ _ h => h)
            fun _ _ h => h
          · exact hready.sound.samples.2.trans (by decide)
          · refine ⟨.charged task.expectedResources.memoryBytes :: events, ?_,
              .executed hreports hwithin hmemory (huses.mono (Nat.le_refl _) hreads)⟩
            rw [htrace, List.append_assoc, List.singleton_append]

/-! ## All tasks -/

/-- What a run tells of the tasks from `taskIndex` on: one observation for each, in their order. -/
inductive Tells (plan : CalibrationPlan) : Nat → List CalibrationTask → List PerformanceObservation →
    List CalibrationEvent → Prop where
  | nil (taskIndex : Nat) : Tells plan taskIndex [] [] []
  | cons {taskIndex : Nat} {task : CalibrationTask} {rest : List CalibrationTask}
      {observation : PerformanceObservation} {observations : List PerformanceObservation}
      {events later : List CalibrationEvent} (told : Told plan task observation events)
      (tells : Tells plan (taskIndex + 1) rest observations later) :
    Tells plan taskIndex (task :: rest) (observation :: observations)
      (.started taskIndex :: events ++ .finished taskIndex observation :: later)

theorem runTask_ends {plan : CalibrationPlan} {storage : StorageProfile} {task : CalibrationTask}
    (hready : Ready plan storage task) (capabilities : CapabilitySet) (taskIndex : Nat)
    (host : CalibrationHost) {budget : MemoryBudget} (hidle : Idle plan.limits.maxMemoryBytes budget) :
    Ends (runTask plan storage capabilities taskIndex task) (host, budget)
      (fun observation s => (∃ events, s.1.trace = host.trace ++ (.started taskIndex :: events ++
        [.finished taskIndex observation]) ∧ Told plan task observation events) ∧
          Idle plan.limits.maxMemoryBytes s.2)
      (fun _ _ => False) fun _ _ => False := by
  unfold runTask
  rw [ends_bind, ends_onFst, ends_record, ends_bind, ends_onFst, ends_durationNs]
  refine (observeTask_ends hready capabilities _ _ hidle).bind
    fun observation s ⟨⟨events, htrace, htold⟩, hidle'⟩ => ?_
  rw [ends_bind, ends_onFst, ends_record]
  refine ⟨⟨events, ?_, htold⟩, hidle'⟩
  simp only [htrace, List.append_assoc, List.cons_append, List.nil_append]

theorem runTasks_ends {plan : CalibrationPlan} {storage : StorageProfile} {tasks : List CalibrationTask}
    (hready : ∀ task ∈ tasks, Ready plan storage task) (capabilities : CapabilitySet) (taskIndex : Nat)
    (host : CalibrationHost) {budget : MemoryBudget} (hidle : Idle plan.limits.maxMemoryBytes budget) :
    Ends (runTasks plan storage capabilities taskIndex tasks) (host, budget)
      (fun observations s => (∃ events, s.1.trace = host.trace ++ events ∧
        Tells plan taskIndex tasks observations events) ∧ Idle plan.limits.maxMemoryBytes s.2)
      (fun _ _ => False) fun _ _ => False := by
  induction tasks generalizing taskIndex host budget with
  | nil => exact ⟨⟨[], (List.append_nil _).symm, .nil taskIndex⟩, hidle⟩
  | cons task rest ih =>
    rw [runTasks]
    refine (runTask_ends (hready task List.mem_cons_self) capabilities taskIndex host hidle).bind
      fun observation s ⟨⟨events, htrace, htold⟩, hidle'⟩ => ?_
    refine (ih (fun other hother => hready other (List.mem_cons_of_mem _ hother)) (taskIndex + 1) s.1
      hidle').bind fun observations t ⟨⟨later, htrace', htells⟩, hend⟩ => ?_
    refine ⟨⟨_, ?_, .cons htold htells⟩, hend⟩
    rw [htrace', htrace]
    simp only [List.append_assoc, List.cons_append, List.nil_append]

/-! ## The result -/

/-- Observations of distinct identifiers, each accepted, are accepted together. -/
theorem validateObservations_run {level : CalibrationLevel} {observations : List PerformanceObservation}
    {identifiers : ExtTreeSet String}
    (hvalid : ∀ observation ∈ observations,
      observation.validate = .ok () ∧ observation.calibrationLevel = level)
    (hnodup : (observations.map (·.identifier)).Nodup)
    (hfresh : ∀ observation ∈ observations, identifiers.contains observation.identifier = false) :
    CalibrationResult.validateObservations level observations identifiers = .ok () := by
  induction observations generalizing identifiers with
  | nil => rfl
  | cons observation rest ih =>
    obtain ⟨haccepted, hlevel⟩ := hvalid observation List.mem_cons_self
    rw [List.map_cons, List.nodup_cons] at hnodup
    rw [CalibrationResult.validateObservations, haccepted, Outcome.ok_bind,
      Outcome.failIf_of_not (not_not.mpr hlevel), Outcome.ok_bind, hfresh observation List.mem_cons_self,
      Outcome.failIf_of_not (by decide), Outcome.ok_bind]
    refine ih (fun other hother => hvalid other (List.mem_cons_of_mem _ hother)) hnodup.2
      fun other hother => ?_
    exact contains_insert_of_ne (fun heq => hnodup.1 (heq ▸ List.mem_map_of_mem hother))
      (hfresh other (List.mem_cons_of_mem _ hother))

theorem Told.reports {plan : CalibrationPlan} {task : CalibrationTask}
    {observation : PerformanceObservation} {events : List CalibrationEvent}
    (h : Told plan task observation events) : Reports task plan.level observation := by
  cases h <;> assumption

theorem Tells.reports {plan : CalibrationPlan} {taskIndex : Nat} {tasks : List CalibrationTask}
    {observations : List PerformanceObservation} {events : List CalibrationEvent}
    (h : Tells plan taskIndex tasks observations events) :
    ∀ observation ∈ observations, ∃ task ∈ tasks, Reports task plan.level observation := by
  induction h with
  | nil => exact fun _ hmem => (List.not_mem_nil hmem).elim
  | cons told _ ih =>
    rw [List.forall_mem_cons]
    refine ⟨⟨_, List.mem_cons_self, told.reports⟩, fun observation hmem => ?_⟩
    obtain ⟨task, htask, hreports⟩ := ih observation hmem
    exact ⟨task, List.mem_cons_of_mem _ htask, hreports⟩

theorem Tells.identifiers {plan : CalibrationPlan} {taskIndex : Nat} {tasks : List CalibrationTask}
    {observations : List PerformanceObservation} {events : List CalibrationEvent}
    (h : Tells plan taskIndex tasks observations events) :
    observations.map (·.identifier) = tasks.map (·.identifier) := by
  induction h with
  | nil => rfl
  | cons told _ ih => rw [List.map_cons, List.map_cons, ih, told.reports.identifier]

/-- The inputs of a run that its checks accept, for a plan that is their own. -/
structure Runnable (plan : CalibrationPlan) (user : UserProfile) (machine : MachineProfile)
    (model : ModelProfile) (storage : StorageProfile) (capabilities : CapabilitySet) : Prop where
  userValid : user.validate = .ok ()
  machineValid : machine.validate = .ok ()
  modelValid : model.validate = .ok ()
  storageValid : storage.validate = .ok ()
  limitsValid : plan.limits.validate user = .ok ()
  ram : ∃ available, machine.availableRamBytes = some available ∧
    plan.limits.maxMemoryBytes ≤ available
  above : plan.level ≠ .none
  level : plan.level = user.calibrationLevel
  machineFingerprint : plan.machineFingerprint = machine.fingerprint
  modelFingerprint : plan.modelFingerprint = model.identity.descriptorFingerprint
  storageFingerprint : plan.storageFingerprint = storage.fingerprint
  schema : capabilities.schemaVersion = profileSchemaVersion
  machineCapabilities : capabilities.machineFingerprint = plan.machineFingerprint
  modelCapabilities : capabilities.modelFingerprint = plan.modelFingerprint
  storageCapabilities : capabilities.storageFingerprint = plan.storageFingerprint
  /-- The budget is a `u64`. -/
  budget : user.ramBudgetBytes < u64Bound

section run

variable {plan : CalibrationPlan} {user : UserProfile} {machine : MachineProfile} {model : ModelProfile}
  {storage : StorageProfile} {capabilities : CapabilitySet}

theorem accept {ε : Type} {check : Outcome ε Unit} {host : CalibrationHost} (h : check = .ok ()) :
    resume check host = (.ok (), host) := by
  rw [h]
  rfl

theorem accept_mapped {check : Outcome PlannerError Unit} {host : CalibrationHost}
    (h : check = .ok ()) : resume (check.mapErr CalibrationError.planner) host = (.ok (), host) := by
  rw [h]
  rfl

theorem checkInputs_run (h : Runnable plan user machine model storage capabilities)
    (hplan : plan.Sound) (host : CalibrationHost) :
    checkInputs plan user machine model storage capabilities host = (.ok (), host) := by
  obtain ⟨available, havailable, hfits⟩ := h.ram
  unfold checkInputs
  rw [bind_of_ok (accept hplan.validate), bind_of_ok (accept_mapped h.userValid),
    bind_of_ok (accept_mapped h.machineValid), bind_of_ok (accept_mapped h.modelValid),
    bind_of_ok (accept_mapped h.storageValid), bind_of_ok (accept h.limitsValid), havailable,
    okOr_some, pure_bind, failIf_bind_run, if_neg (Nat.not_lt.mpr hfits), failIf_bind_run,
    if_neg h.above, failIf, if_neg, pure_run]
  rintro (hv | hv | hv | hv | hv | hv | hv | hv)
  · exact hv h.level
  · exact hv h.machineFingerprint
  · exact hv h.modelFingerprint
  · exact hv h.storageFingerprint
  · exact hv h.schema
  · exact hv h.machineCapabilities
  · exact hv h.modelCapabilities
  · exact hv h.storageCapabilities

theorem prefixed_ne {before text : String} (h : before ≠ "") : before ++ text ≠ "" := by
  intro happend
  exact h (String.append_eq_empty_iff.mp happend).1

theorem stableIdentifier_ne (kind : CalibrationTestKind) : kind.stableIdentifier ≠ "" := by
  rcases kind with _ | _ | _ | _ | (_ | _ | _) | (_ | _) <;> decide

/-- The observations of a run are accepted with their time of day, and so is their result. -/
theorem resultOf_accepted (hplan : plan.Sound) (habove : plan.level ≠ .none)
    {observations : List PerformanceObservation} {events : List CalibrationEvent}
    (htells : Tells plan 0 plan.tasks observations events) (timestamp : Option Nat)
    (hsums : ∀ observation ∈ observations,
      (observation.rawSamples.map fun sample => sample.elapsedNs.toNat).sum < u64Bound) :
    (resultOf plan timestamp observations).validate = .ok () ∧
      ∀ observation ∈ (resultOf plan timestamp observations).observations,
        observation.validate = .ok () := by
  have hstamped : ∀ observation ∈ (resultOf plan timestamp observations).observations,
      observation.validate = .ok () ∧ observation.calibrationLevel = plan.level := by
    intro stamped hmem
    obtain ⟨observation, hobservation, rfl⟩ := List.mem_map.mp hmem
    obtain ⟨task, htask, hreports⟩ := htells.reports observation hobservation
    have hidentifier : task.identifier ≠ "" := by
      rw [(hplan.taskSound htask).identifier]
      exact stableIdentifier_ne task.kind
    -- No check looks at the time of day.
    have haccepted : ({ observation with timestampUnixSeconds := timestamp } :
        PerformanceObservation).validate = observation.validate := rfl
    exact ⟨haccepted.trans (hreports.accepted hidentifier habove (hsums observation hobservation)),
      hreports.sameLevel⟩
  have hdistinct : ((resultOf plan timestamp observations).observations.map (·.identifier)).Nodup := by
    rw [resultOf, List.map_map]
    exact htells.identifiers.symm ▸ hplan.distinct
  refine ⟨?_, fun observation hmem => (hstamped observation hmem).1⟩
  rw [CalibrationResult.validate, Outcome.failIf_of_not, Outcome.ok_bind]
  · exact validateObservations_run hstamped hdistinct
      fun _ _ => ExtTreeSet.contains_empty
  · rintro (hv | hv | hv | hv | hv | hv | hv | hv | hv)
    · exact hv rfl
    · exact prefixed_ne (by decide) hv
    · exact habove hv
    · exact hplan.machine hv
    · exact hplan.model (Option.some.inj hv)
    · exact hplan.storage (Option.some.inj hv)
    · exact CalibrationPlan.calibrationPlanIdentifier_ne plan (hplan.identifier.symm.trans hv)
    · exact hv hplan.version
    · exact hv hplan.ruleset

/-- Sound plans run to their end on inputs of their own. -/
theorem runTasks_run (h : Runnable plan user machine model storage capabilities) (hplan : plan.Sound)
    (host : CalibrationHost) :
    ∃ budget observations host' budget', MemoryBudget.new user.ramBudgetBytes = .ok budget ∧
      runTasks plan storage capabilities 0 plan.tasks (host, budget) =
        (.ok observations, (host', budget')) ∧
      (∃ events, host'.trace = host.trace ++ events ∧ Tells plan 0 plan.tasks observations events) ∧
      budget'.used = 0 ∧ budget'.peakUsed ≤ plan.limits.maxMemoryBytes := by
  obtain ⟨hbounded, hle⟩ := bounded_of_validate h.limitsValid
  have hnew := MemoryBudget.new_run (Nat.lt_of_lt_of_le hbounded.memory_pos hle)
  obtain ⟨haccounted, hused, hpeak, htotal, -⟩ := MemoryBudget.accounted_new h.budget hnew
  have hidle : Idle plan.limits.maxMemoryBytes
      { total := user.ramBudgetBytes, allocations := ∅, used := 0, peakUsed := 0 } :=
    ⟨haccounted, rfl, Nat.zero_le _, hle⟩
  obtain ⟨observations, ⟨host', budget'⟩, hrun, htells, hidle'⟩ :=
    run_of_ends (runTasks_ends (fun _ hmem => hplan.ready storage hmem) capabilities 0 host hidle)
  exact ⟨_, observations, host', budget', hnew, hrun, htells, hidle'.used, hidle'.peak⟩

theorem runWithProgress_run (h : Runnable plan user machine model storage capabilities)
    (hplan : plan.Sound) {host host' : CalibrationHost} {budget budget' : MemoryBudget}
    {observations : List PerformanceObservation} (hnew : MemoryBudget.new user.ramBudgetBytes = .ok budget)
    (hrun : runTasks plan storage capabilities 0 plan.tasks (host, budget) =
      (.ok observations, (host', budget'))) (hused : budget'.used = 0)
    (hvalid : (resultOf plan host'.now observations).validate = .ok ()) :
    runWithProgress plan user machine model storage capabilities host =
      (.ok (resultOf plan host'.now observations), host') := by
  have hbudget : withBudget budget (runTasks plan storage capabilities 0 plan.tasks) host =
      (.ok (observations, budget'), host') := by
    rw [withBudget, hrun]
  have hmade : mapErr CalibrationError.budget (ofResult (MemoryBudget.new user.ramBudgetBytes)) host =
      (.ok budget, host) := by
    rw [hnew]
    rfl
  unfold runWithProgress
  rw [bind_of_ok (checkInputs_run h hplan host), bind_of_ok hmade, bind_of_ok hbudget]
  simp only [hused, if_true]
  rw [expect_some, pure_bind, self_bind_run, bind_of_ok (accept_mapped hvalid)]
  rfl

end run

/-- The requests of strategy measurements, one after the other. -/
def requestAll (strategies : List StrategyId) : Exec CalibrationPlan CalibrationError Unit :=
  strategies.forM CalibrationPlan.requestStrategyMeasurement

theorem requestAll_sound {strategies : List StrategyId} {plan plan' : CalibrationPlan}
    (h : plan.Sound) (hrun : requestAll strategies plan = (.ok (), plan')) :
    plan'.Sound ∧ plan'.level = plan.level ∧ plan'.machineFingerprint = plan.machineFingerprint ∧
      plan'.modelFingerprint = plan.modelFingerprint ∧
      plan'.storageFingerprint = plan.storageFingerprint ∧ plan'.limits = plan.limits := by
  induction strategies generalizing plan with
  | nil =>
    obtain ⟨-, rfl⟩ := Prod.mk.inj hrun
    exact ⟨h, rfl, rfl, rfl, rfl, rfl⟩
  | cons strategy rest ih =>
    obtain ⟨_, requested, hfirst, hrest⟩ := of_bind_ok hrun
    obtain ⟨hsound, hlevel, hmachine, hmodel, hstorage, hlimits⟩ :=
      CalibrationPlan.requestStrategyMeasurement_sound h hfirst
    obtain ⟨hsound', hlevel', hmachine', hmodel', hstorage', hlimits'⟩ := ih hsound hrest
    exact ⟨hsound', hlevel'.trans hlevel, hmachine'.trans hmachine, hmodel'.trans hmodel,
      hstorage'.trans hstorage, hlimits'.trans hlimits⟩

/-- The inputs that a plan was built from can run it, with what was requested later. -/
theorem runnable_of_build {user : UserProfile} {machine : MachineProfile} {model : ModelProfile}
    {storage : StorageProfile} {capabilities : CapabilitySet} {limits : CalibrationLimits}
    {plan plan' : CalibrationPlan} {strategies : List StrategyId}
    (h : CalibrationPlan.Buildable user machine model storage capabilities limits)
    (hmachine : machine.fingerprint ≠ 0) (hstorage : storage.fingerprint ≠ 0)
    (hbuild : CalibrationPlan.build user machine model storage capabilities limits = .ok plan)
    (hrequests : requestAll strategies plan = (.ok (), plan')) (hlevel : user.calibrationLevel ≠ .none)
    (hbudget : user.ramBudgetBytes < u64Bound) :
    Runnable plan' user machine model storage capabilities := by
  obtain ⟨built, hbuilt, hsound, hbuiltLevel, hbuiltMachine, hbuiltModel, hbuiltStorage, hbuiltLimits⟩ :=
    CalibrationPlan.build_sound h hmachine hstorage
  obtain rfl := Outcome.ok.inj (hbuild.symm.trans hbuilt)
  obtain ⟨-, hsameLevel, hsameMachine, hsameModel, hsameStorage, hsameLimits⟩ :=
    requestAll_sound hsound hrequests
  rw [hbuiltLevel] at hsameLevel
  rw [hbuiltMachine] at hsameMachine
  rw [hbuiltModel] at hsameModel
  rw [hbuiltStorage] at hsameStorage
  rw [hbuiltLimits] at hsameLimits
  exact
    { userValid := h.userValid
      machineValid := h.machineValid
      modelValid := h.modelValid
      storageValid := h.storageValid
      limitsValid := by rw [hsameLimits]; exact h.limitsValid
      ram := by rw [hsameLimits]; exact h.ram
      above := by rw [hsameLevel]; exact hlevel
      level := hsameLevel
      machineFingerprint := hsameMachine
      modelFingerprint := hsameModel
      storageFingerprint := hsameStorage
      schema := h.schema
      machineCapabilities := h.machineFingerprint.trans hsameMachine.symm
      modelCapabilities := h.modelFingerprint.trans hsameModel.symm
      storageCapabilities := h.storageFingerprint.trans hsameStorage.symm
      budget := hbudget }

/-- Calibration never fails midway: the plan that `build` makes of accepted inputs, with any
strategy measurements requested later, runs to its end within its limits. -/
theorem calibration_completes {user : UserProfile} {machine : MachineProfile} {model : ModelProfile}
    {storage : StorageProfile} {capabilities : CapabilitySet} {limits : CalibrationLimits}
    (h : CalibrationPlan.Buildable user machine model storage capabilities limits)
    (hmachine : machine.fingerprint ≠ 0) (hstorage : storage.fingerprint ≠ 0) :
    ∃ plan, CalibrationPlan.build user machine model storage capabilities limits = .ok plan ∧
      ∀ strategies plan', requestAll strategies plan = (.ok (), plan') →
        ∀ user machine model storage capabilities,
          Runnable plan' user machine model storage capabilities →
          ∀ host, ∃ budget observations host' budget',
            MemoryBudget.new user.ramBudgetBytes = .ok budget ∧
            runTasks plan' storage capabilities 0 plan'.tasks (host, budget) =
              (.ok observations, (host', budget')) ∧
            (∃ events, host'.trace = host.trace ++ events ∧
              Tells plan' 0 plan'.tasks observations events) ∧
            budget'.used = 0 ∧ budget'.peakUsed ≤ plan'.limits.maxMemoryBytes ∧
            ((∀ observation ∈ observations,
                (observation.rawSamples.map fun sample => sample.elapsedNs.toNat).sum < u64Bound) →
              runWithProgress plan' user machine model storage capabilities host =
                  (.ok (resultOf plan' host'.now observations), host') ∧
                ∀ observation ∈ (resultOf plan' host'.now observations).observations,
                  observation.validate = .ok ()) := by
  obtain ⟨plan, hbuild, hsound, -⟩ := CalibrationPlan.build_sound h hmachine hstorage
  refine ⟨plan, hbuild, fun strategies plan' hrequests user machine model storage capabilities
    hrunnable host => ?_⟩
  obtain ⟨hsound', -⟩ := requestAll_sound hsound hrequests
  obtain ⟨budget, observations, host', budget', hnew, hrun, ⟨events, htrace, htells⟩, hused, hpeak⟩ :=
    runTasks_run hrunnable hsound' host
  refine ⟨budget, observations, host', budget', hnew, hrun, ⟨events, htrace, htells⟩, hused, hpeak,
    fun hsums => ?_⟩
  obtain ⟨hvalid, haccepted⟩ := resultOf_accepted hsound' hrunnable.above htells host'.now hsums
  exact ⟨runWithProgress_run hrunnable hsound' hnew hrun hused hvalid, haccepted⟩

/-! ### A thorough calibration whose time runs out after two tasks -/

def thoroughUser : UserProfile :=
  { UserProfile.new 1000000 .balancedNormal with calibrationLevel := .thorough }

def thoroughLimits : CalibrationLimits where
  maxMemoryBytes := 40000
  maxStorageReadBytes := 65536
  maxTotalDurationNs := 1000000
  maxTaskDurationNs := 500000
  maxSamples := 16
  maxIterationsPerSample := 64

def roomyMachine : MachineProfile :=
  { sampleMachine with totalRamBytes := some 4000000, availableRamBytes := some 2000000 }

def roomyCapabilities : CapabilitySet :=
  CapabilitySet.derive roomyMachine sampleModel sampleStorage sampleStaticPlan

def tickingHost : CalibrationHost where
  clock := [0, 1, 2, 3, 4] ++ (List.replicate 7 [100, 10]).flatten ++ [20, 1] ++
    (List.replicate 7 [1000, 30]).flatten ++ [2000000, 2000000]
  opens := []
  lengths := [some 3168]
  transfers := []
  now := some 1700000000
  trace := []

theorem thorough_buildable : CalibrationPlan.Buildable thoroughUser roomyMachine sampleModel sampleStorage
    roomyCapabilities thoroughLimits where
  userValid := by decide +kernel
  machineValid := by decide +kernel
  modelValid := by decide +kernel
  storageValid := by decide +kernel
  limitsValid := by decide +kernel
  fileSize := fun bytes h => (Option.some.inj h).symm
  ram := ⟨2000000, rfl, by decide⟩
  schema := by decide +kernel
  machineFingerprint := by decide +kernel
  modelFingerprint := by decide +kernel
  storageFingerprint := by decide +kernel

theorem calibration_completes_thorough :
    ∃ plan plan' result host',
      CalibrationPlan.build thoroughUser roomyMachine sampleModel sampleStorage roomyCapabilities
        thoroughLimits = .ok plan ∧
      requestAll [.cpuLayerStreaming] plan = (.ok (), plan') ∧
      runWithProgress plan' thoroughUser roomyMachine sampleModel sampleStorage roomyCapabilities
        tickingHost = (.ok result, host') ∧
      result.observations.map (·.status) = [.measured, .measured, .skipped, .skipped] ∧
      ∀ observation ∈ result.observations, observation.validate = .ok () := by
  have hmachine : roomyMachine.fingerprint ≠ 0 := by decide +kernel
  have hstorage : sampleStorage.fingerprint ≠ 0 := by decide +kernel
  obtain ⟨plan, hbuild, hruns⟩ := calibration_completes thorough_buildable hmachine hstorage
  have hrequested : ((CalibrationPlan.build thoroughUser roomyMachine sampleModel sampleStorage
      roomyCapabilities thoroughLimits).map fun plan => (requestAll [.cpuLayerStreaming] plan).1) =
        .ok (.ok ()) := by decide +kernel
  have hseen : ((CalibrationPlan.build thoroughUser roomyMachine sampleModel sampleStorage
      roomyCapabilities thoroughLimits).map fun plan =>
        (runTasks (requestAll [.cpuLayerStreaming] plan).2 sampleStorage roomyCapabilities 0
          (requestAll [.cpuLayerStreaming] plan).2.tasks (tickingHost,
            { total := thoroughUser.ramBudgetBytes, allocations := ∅, used := 0, peakUsed := 0 })).1.map fun observations =>
              observations.map fun observation => (observation.status,
                (observation.rawSamples.map fun sample => sample.elapsedNs.toNat).sum)) =
      .ok (.ok [(.measured, 700), (.measured, 7000), (.skipped, 0), (.skipped, 0)]) := by
    decide +kernel
  rw [hbuild, Outcome.map_ok] at hrequested hseen
  have hrequest : requestAll [.cpuLayerStreaming] plan =
      (.ok (), (requestAll [.cpuLayerStreaming] plan).2) := Prod.ext (Outcome.ok.inj hrequested) rfl
  generalize (requestAll [.cpuLayerStreaming] plan).2 = plan' at hrequest hseen
  have hrunnable := runnable_of_build thorough_buildable hmachine hstorage hbuild hrequest (by decide)
    (by decide)
  obtain ⟨budget, observations, host', budget', hnew, hrun, -, -, -, hresult⟩ :=
    hruns _ plan' hrequest _ _ _ _ _ hrunnable tickingHost
  obtain rfl := Except.ok.inj hnew
  rw [hrun, Outcome.map_ok] at hseen
  have hseen := Outcome.ok.inj (Outcome.ok.inj hseen)
  have hsums : ∀ observation ∈ observations,
      (observation.rawSamples.map fun sample => sample.elapsedNs.toNat).sum < u64Bound := by
    intro observation hmem
    have hsum := List.mem_map_of_mem (f := fun observation => (observation.status,
      (observation.rawSamples.map fun sample => sample.elapsedNs.toNat).sum)) hmem
    rw [hseen] at hsum
    simp only [List.mem_cons, Prod.mk.injEq, List.not_mem_nil, or_false] at hsum
    have hbound : 7000 < u64Bound := by decide
    omega
  obtain ⟨hdone, haccepted⟩ := hresult hsums
  refine ⟨plan, plan', _, host', hbuild, hrequest, hdone, ?_, haccepted⟩
  have hstatus := congrArg (List.map Prod.fst) hseen
  rw [List.map_map] at hstatus
  rw [resultOf, List.map_map]
  exact hstatus

end Calibration
end Ramforge
