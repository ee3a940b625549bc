/-
Every plan passes its own checks: when it is built, and after each request for a strategy
measurement.
-/
import Ramforge.Runtime.CalibrationPlan

namespace Ramforge
namespace Calibration

open Std Rust Rust.Outcome Planner

/-! ## Limits -/

structure CalibrationLimits.Bounded (limits : CalibrationLimits) : Prop where
  memory_pos : 0 < limits.maxMemoryBytes
  memory_le : limits.maxMemoryBytes ≤ maxAbsoluteMemoryBytes
  storage_pos : 0 < limits.maxStorageReadBytes
  storage_le : limits.maxStorageReadBytes ≤ maxAbsoluteStorageReadBytes
  duration_pos : 0 < limits.maxTaskDurationNs
  duration_le : limits.maxTaskDurationNs ≤ maxAbsoluteTaskDurationNs

theorem bounded_of_validate {limits : CalibrationLimits} {user : UserProfile}
    (h : limits.validate user = .ok ()) :
    limits.Bounded ∧ limits.maxMemoryBytes ≤ user.ramBudgetBytes := by
  have hchecks := of_failIf_ok h
  exact ⟨⟨by omega, by omega, by omega, by omega, by omega, by omega⟩, by omega⟩

/-! ## Tasks -/

theorem levelWork_bounds {level : CalibrationLevel} (h : level ≠ .none) :
    1 ≤ (levelWork level).1 ∧ (levelWork level).1 ≤ 7 ∧ 1 ≤ (levelWork level).2 ∧
      (levelWork level).2 ≤ 64 := by
  cases level with
  | none => exact absurd rfl h
  | quick | standard | thorough => decide

/-- No task repeats its work more than 452 times. -/
theorem workVolumeIsBounded_of_le {work : CalibrationWorkBudget} (hiterations : work.iterationsPerSample ≤ 64)
    (hsamples : work.sampleCount ≤ 7) (hwarmup : work.warmupIterations ≤ 4)
    (hbytes : work.bytesPerIteration ≤ 1024 * 1024) (helements : work.elementsPerIteration ≤ 4096) :
    workVolumeIsBounded work = true := by
  have hmeasured : work.iterationsPerSample * work.sampleCount ≤ 64 * 7 :=
    Nat.mul_le_mul hiterations hsamples
  have htotal : work.iterationsPerSample * work.sampleCount + work.warmupIterations ≤ 452 := by omega
  have hb := Nat.mul_le_mul hbytes htotal
  have he := Nat.mul_le_mul helements htotal
  have hbound : 1024 * 1024 * 452 < u64Bound := by decide
  rw [workVolumeIsBounded, checkedMul_of_lt (by omega)]
  simp only [Option.bind_some]
  rw [checkedAdd_of_lt (by omega)]
  simp only
  rw [checkedMul_of_lt (by omega), checkedMul_of_lt (by omega)]
  rw [Bool.and_eq_true]
  refine ⟨decide_eq_true ?_, decide_eq_true ?_⟩
  · unfold maxAbsoluteTaskBytesProcessed
    omega
  · unfold maxAbsoluteTaskElementsProcessed
    omega

/-- What the checks of a task ask for, kind by kind. -/
structure CalibrationTask.Sound (task : CalibrationTask) : Prop where
  identifier : task.identifier = task.kind.stableIdentifier
  threads : task.expectedResources.cpuThreads = 1
  memory_pos : 0 < task.expectedResources.memoryBytes
  memory_le : task.expectedResources.memoryBytes ≤ 2 * (1024 * 1024) + calibrationMetadataBytes
  storage_le : task.expectedResources.storageReadBytes ≤ 1024 * 1024
  iterations : 1 ≤ task.work.iterationsPerSample ∧ task.work.iterationsPerSample ≤ 64
  samples : 1 ≤ task.work.sampleCount ∧ task.work.sampleCount ≤ 7
  warmup : task.work.warmupIterations ≤ 4
  duration : 0 < task.work.maxDurationNs ∧ task.work.maxDurationNs ≤ maxAbsoluteTaskDurationNs
  bytes_le : task.work.bytesPerIteration ≤ 1024 * 1024
  elements_le : task.work.elementsPerIteration ≤ 4096
  work_pos : 0 < task.work.elementsPerIteration ∨ 0 < task.work.bytesPerIteration
  storage : task.kind = .sequentialStorageRead ∨ task.kind = .storageReadLatency →
    task.storageFingerprint.isSome
  model : (∃ format, task.kind = .quantizedRowDecode format) ∨
      (∃ strategy, task.kind = .strategyLatency strategy) → task.modelFingerprint.isSome

theorem failIf_isNone {ε α : Type} {o : Option α} {e : ε} (h : o.isSome = true) :
    failIf (o.isNone = true) e = .ok () :=
  failIf_of_not (by rw [Option.isNone_iff_eq_none, ← Option.not_isSome_iff_eq_none, not_not]; exact h)

theorem CalibrationTask.Sound.validate {task : CalibrationTask} (h : task.Sound) :
    task.validate = .ok () := by
  obtain ⟨hidentifier, hthreads, hpos, hmemory, hstorage, ⟨hi, hi'⟩, ⟨hs, hs'⟩, hwarmup, ⟨hd, hd'⟩,
    hbytes, helements, hwork, hneedsStorage, hneedsModel⟩ := h
  have hvolume := workVolumeIsBounded_of_le hi' hs' hwarmup hbytes helements
  rw [CalibrationTask.validate, failIf_of_not (not_not.mpr hidentifier), ok_bind, failIf_of_not, ok_bind]
  · split
    next hkind => exact failIf_isNone (hneedsStorage (.inl hkind))
    next hkind => exact failIf_isNone (hneedsStorage (.inr hkind))
    next format hkind => exact failIf_isNone (hneedsModel (.inl ⟨format, hkind⟩))
    next strategy hkind => exact failIf_isNone (hneedsModel (.inr ⟨strategy, hkind⟩))
    next => rfl
    next => rfl
  · rw [hvolume]
    simp only [maxAbsoluteIterations, maxAbsoluteSamples, maxAbsoluteMemoryBytes,
      maxAbsoluteStorageReadBytes, calibrationMetadataBytes, not_true_eq_false, or_false] at hmemory ⊢
    omega

/-- The tasks of a plan at a level above `None`, with the fingerprints and limits of the plan. -/
inductive Made (level : CalibrationLevel) (modelFingerprint storageFingerprint : UInt64)
    (limits : CalibrationLimits) : CalibrationTask → Prop where
  | cpu : Made level modelFingerprint storageFingerprint limits (cpuTask level limits)
  | memory : Made level modelFingerprint storageFingerprint limits (memoryTask level limits)
  | storage : Made level modelFingerprint storageFingerprint limits
      (storageTask level storageFingerprint limits)
  | quantized (format : CalibrationQuantization) :
    Made level modelFingerprint storageFingerprint limits
      (quantizedTask level format modelFingerprint limits)
  | strategy (strategy : StrategyId) :
    Made level modelFingerprint storageFingerprint limits (strategyTask strategy modelFingerprint limits)

section tasks

variable {level : CalibrationLevel} {modelFingerprint storageFingerprint : UInt64}
  {limits : CalibrationLimits}

theorem memoryTaskBytes_bounds (limits : CalibrationLimits) :
    4 * 1024 ≤ memoryTaskBytes limits ∧ memoryTaskBytes limits ≤ 1024 * 1024 := by
  unfold memoryTaskBytes
  simp only
  split <;> omega

theorem storageTaskBytes_bounds (h : limits.Bounded) :
    0 < storageTaskBytes limits ∧ storageTaskBytes limits ≤ 1024 * 1024 ∧
      storageTaskBytes limits ≤ limits.maxStorageReadBytes := by
  have hpos := h.storage_pos
  unfold storageTaskBytes
  simp only
  split <;> omega

theorem encodedBytes_bounds (format : CalibrationQuantization) :
    0 < encodedBytes format ∧ encodedBytes format ≤ 4096 := by
  cases format <;> decide

theorem Made.sound {task : CalibrationTask} (h : Made level modelFingerprint storageFingerprint limits task)
    (hlimits : limits.Bounded) (hlevel : level ≠ .none) : task.Sound := by
  obtain ⟨hs, hs', hi, hi'⟩ := levelWork_bounds hlevel
  have hduration : 0 < limits.maxTaskDurationNs ∧
      limits.maxTaskDurationNs ≤ maxAbsoluteTaskDurationNs := ⟨hlimits.duration_pos, hlimits.duration_le⟩
  have ble : ∀ {a b : Nat}, Nat.ble a b = true → a ≤ b := Nat.le_of_ble_eq_true
  cases h with
  | cpu =>
    refine ⟨rfl, rfl, ble rfl, ble rfl, ble rfl, ⟨hi, hi'⟩, ⟨hs, hs'⟩, ble rfl, hduration,
      ble rfl, ble rfl, .inl (ble rfl), ?_, ?_⟩
    · rintro (h | h) <;> cases h
    · rintro (⟨_, h⟩ | ⟨_, h⟩) <;> cases h
  | memory =>
    obtain ⟨hlow, hhigh⟩ := memoryTaskBytes_bounds limits
    refine ⟨rfl, rfl, Nat.add_pos_right _ (by decide), ?_, ble rfl, ⟨hi, hi'⟩, ⟨hs, hs'⟩,
      ble rfl, hduration, hhigh, ble rfl, .inr ?_, ?_, ?_⟩
    · exact Nat.add_le_add_right (Nat.mul_le_mul_left 2 hhigh) _
    · exact Nat.lt_of_lt_of_le (by decide) hlow
    · rintro (h | h) <;> cases h
    · rintro (⟨_, h⟩ | ⟨_, h⟩) <;> cases h
  | storage =>
    obtain ⟨hpos, hhigh, -⟩ := storageTaskBytes_bounds hlimits
    unfold storageTask
    generalize storageTaskBytes limits = bytes at hpos hhigh ⊢
    refine ⟨rfl, rfl, Nat.add_pos_right _ (by decide), ?_, hhigh, ⟨ble rfl, ble rfl⟩, ⟨hs, hs'⟩,
      ble rfl, hduration, hhigh, ble rfl, .inr hpos, fun _ => rfl, ?_⟩
    · have hdouble : bytes ≤ 2 * (1024 * 1024) := by omega
      exact Nat.add_le_add_right hdouble _
    · rintro (⟨_, h⟩ | ⟨_, h⟩) <;> cases h
  | quantized format =>
    obtain ⟨-, hhigh⟩ := encodedBytes_bounds format
    refine ⟨rfl, rfl, Nat.add_pos_right _ (by decide), ?_, ble rfl, ⟨hi, hi'⟩, ⟨hs, hs'⟩,
      ble rfl, hduration, Nat.le_trans hhigh (by decide), ble rfl, .inl (ble rfl), ?_,
      fun _ => rfl⟩
    · refine Nat.add_le_add_right (Nat.le_trans (Nat.add_le_add_right hhigh _) (by decide)) _
    · rintro (h | h) <;> cases h
  | strategy strategy =>
    refine ⟨rfl, rfl, ble rfl, ble rfl, ble rfl, ⟨ble rfl, ble rfl⟩,
      ⟨ble rfl, ble rfl⟩, ble rfl, hduration, ble rfl, ble rfl, .inl (ble rfl), ?_,
      fun _ => rfl⟩
    rintro (h | h) <;> cases h

theorem Made.identifier {task : CalibrationTask}
    (h : Made level modelFingerprint storageFingerprint limits task) :
    task.identifier = task.kind.stableIdentifier := by
  cases h <;> rfl

end tasks

/-! ## Identifiers -/

theorem stableIdentifier_injective :
    Function.Injective CalibrationTestKind.stableIdentifier := by
  intro a b h
  rcases a with _ | _ | _ | _ | (_ | _ | _) | (_ | _) <;>
    rcases b with _ | _ | _ | _ | (_ | _ | _) | (_ | _) <;>
    first
    | rfl
    | exact absurd h (by decide)

theorem contains_insert_of_ne {identifiers : ExtTreeSet String} {identifier other : String}
    (hne : identifier ≠ other) (h : identifiers.contains other = false) :
    (identifiers.insert identifier).contains other = false := by
  rw [ExtTreeSet.contains_insert, h, Bool.or_false]
  simpa using hne

/-- The loop over tasks of distinct identifiers. -/
theorem validateTasks_run {tasks : List CalibrationTask} {identifiers : ExtTreeSet String}
    (hvalid : ∀ task ∈ tasks, task.validate = .ok ())
    (hnodup : (tasks.map (·.identifier)).Nodup)
    (hfresh : ∀ task ∈ tasks, identifiers.contains task.identifier = false) :
    CalibrationPlan.validateTasks tasks identifiers = .ok () := by
  induction tasks generalizing identifiers with
  | nil => rfl
  | cons task rest ih =>
    rw [List.map_cons, List.nodup_cons] at hnodup
    rw [CalibrationPlan.validateTasks, hvalid task List.mem_cons_self, ok_bind,
      hfresh task List.mem_cons_self, failIf_of_not (by decide), ok_bind]
    refine ih (fun other hother => hvalid other (List.mem_cons_of_mem _ hother)) hnodup.2 ?_
    intro other hother
    exact contains_insert_of_ne (fun heq => hnodup.1 (heq ▸ List.mem_map_of_mem hother))
      (hfresh other (List.mem_cons_of_mem _ hother))

/-! ## Plans -/

namespace CalibrationPlan

/-- What holds of a plan from when it is built. -/
structure Sound (plan : CalibrationPlan) : Prop where
  schema : plan.schemaVersion = profileSchemaVersion
  version : plan.planVersion = Planner.calibrationPlanVersion
  ruleset : plan.rulesetVersion = Planner.calibrationRulesetVersion
  machine : plan.machineFingerprint ≠ 0
  model : plan.modelFingerprint ≠ 0
  storage : plan.storageFingerprint ≠ 0
  limits : plan.limits.Bounded
  level : plan.tasks ≠ [] → plan.level ≠ .none
  identifier : plan.identifier = calibrationPlanIdentifier plan
  made : ∀ task ∈ plan.tasks,
    Made plan.level plan.modelFingerprint plan.storageFingerprint plan.limits task
  distinct : (plan.tasks.map (·.identifier)).Nodup

theorem calibrationPlanIdentifier_ne (plan : CalibrationPlan) : calibrationPlanIdentifier plan ≠ "" := by
  intro h
  have hlist := congrArg String.toList h
  unfold calibrationPlanIdentifier at hlist
  simp only [String.toList_append] at hlist
  have hfirst := congrArg List.head? hlist
  simp only [List.head?_append] at hfirst
  cases hfirst

theorem Sound.taskSound {plan : CalibrationPlan} (h : plan.Sound) {task : CalibrationTask}
    (hmem : task ∈ plan.tasks) : task.Sound :=
  (h.made task hmem).sound h.limits (h.level (List.ne_nil_of_mem hmem))

theorem Sound.validate {plan : CalibrationPlan} (h : plan.Sound) : plan.validate = .ok () := by
  have hne : plan.identifier ≠ "" := h.identifier ▸ calibrationPlanIdentifier_ne plan
  have htasks : validateTasks plan.tasks ∅ = .ok () :=
    validateTasks_run (fun task hmem => (h.taskSound hmem).validate) h.distinct
      fun _ _ => ExtTreeSet.contains_empty
  rw [CalibrationPlan.validate, failIf_of_not, ok_bind, failIf_of_not, ok_bind, htasks, ok_bind,
    failIf_of_not (not_not.mpr h.identifier)]
  · rintro ⟨hlevel, hne⟩
    exact h.level hne hlevel
  · rintro (hv | hv | hv | hv | hv | hv | hv)
    · exact hv h.schema
    · exact hv h.version
    · exact hv h.ruleset
    · exact hne hv
    · exact h.machine hv
    · exact h.model hv
    · exact h.storage hv

variable {level : CalibrationLevel} {model : ModelProfile} {modelFingerprint storageFingerprint : UInt64}
  {limits : CalibrationLimits}

theorem plannedTasks_none (h : level = .none) :
    plannedTasks level model modelFingerprint storageFingerprint limits = [] := by
  rw [h]
  rfl

theorem plannedTasks_made : ∀ task ∈ plannedTasks level model modelFingerprint storageFingerprint limits,
    Made level modelFingerprint storageFingerprint limits task := by
  intro task hmem
  simp only [plannedTasks, List.mem_append] at hmem
  rcases hmem with (hmem | hmem) | hmem
  · split at hmem
    next =>
      rcases List.mem_pair.mp hmem with rfl | rfl
      · exact .cpu
      · exact .storage
    next => cases hmem
  · split at hmem
    next =>
      rcases List.mem_cons.mp hmem with rfl | hmem
      · exact .memory
      · obtain ⟨format, -, rfl⟩ := Option.map_eq_some_iff.mp (Option.mem_toList.mp hmem)
        exact .quantized format
    next => cases hmem
  · split at hmem
    next =>
      obtain ⟨format, -, rfl⟩ := List.mem_map.mp hmem
      exact .quantized format
    next => cases hmem

/-- The first of a list and the two after it, in their order. -/
theorem first_then_two_sublist {α β : Type} (f : α → β) (xs : List α) :
    ((xs.head?.map f).toList ++ ((xs.drop 1).take 2).map f).Sublist (xs.map f) := by
  cases xs with
  | nil => exact .slnil
  | cons x rest =>
    rw [List.map_cons]
    exact ((List.take_sublist 2 rest).map f).cons_cons (f x)

theorem plannedTasks_kinds :
    ((plannedTasks level model modelFingerprint storageFingerprint limits).map (·.kind)).Sublist
      [.cpuFloatDot, .sequentialStorageRead, .memoryCopyBandwidth, .quantizedRowDecode .q4K,
        .quantizedRowDecode .q8_0, .quantizedRowDecode .q4_0] := by
  have hrelevant : ((relevantQuantizations model).map CalibrationTestKind.quantizedRowDecode).Sublist
      [.quantizedRowDecode .q4K, .quantizedRowDecode .q8_0, .quantizedRowDecode .q4_0] :=
    List.filter_sublist.map _
  have hall := first_then_two_sublist CalibrationTestKind.quantizedRowDecode (relevantQuantizations model)
  have hfirst := (List.sublist_append_left _ _).trans hall
  have hkinds : ∀ o : Option CalibrationQuantization,
      (o.map fun format => quantizedTask level format modelFingerprint limits).toList.map (·.kind) =
        (o.map CalibrationTestKind.quantizedRowDecode).toList := by
    intro o
    cases o <;> rfl
  cases level with
  | none => exact List.nil_sublist _
  | quick => exact ((List.nil_sublist _).cons_cons _).cons_cons _
  | standard =>
    have htasks : plannedTasks .standard model modelFingerprint storageFingerprint limits =
        cpuTask .standard limits :: storageTask .standard storageFingerprint limits ::
          memoryTask .standard limits :: ((relevantQuantizations model).head?.map fun format =>
            quantizedTask .standard format modelFingerprint limits).toList :=
      List.append_nil _
    rw [htasks, List.map_cons, List.map_cons, List.map_cons, hkinds]
    exact (((hfirst.trans hrelevant).cons_cons _).cons_cons _).cons_cons _
  | thorough =>
    have htasks : plannedTasks .thorough model modelFingerprint storageFingerprint limits =
        cpuTask .thorough limits :: storageTask .thorough storageFingerprint limits ::
          memoryTask .thorough limits :: (((relevantQuantizations model).head?.map fun format =>
            quantizedTask .thorough format modelFingerprint limits).toList ++
              (((relevantQuantizations model).drop 1).take 2).map fun format =>
                quantizedTask .thorough format modelFingerprint limits) := rfl
    rw [htasks, List.map_cons, List.map_cons, List.map_cons, List.map_append, hkinds, List.map_map]
    exact (((hall.trans hrelevant).cons_cons _).cons_cons _).cons_cons _

theorem plannedTasks_distinct :
    ((plannedTasks level model modelFingerprint storageFingerprint limits).map (·.identifier)).Nodup := by
  have hidentifier : (plannedTasks level model modelFingerprint storageFingerprint limits).map
      (·.identifier) = ((plannedTasks level model modelFingerprint storageFingerprint limits).map
        (·.kind)).map CalibrationTestKind.stableIdentifier := by
    rw [List.map_map]
    refine List.map_congr_left fun task hmem => ?_
    exact (plannedTasks_made task hmem).identifier
  rw [hidentifier]
  exact (plannedTasks_kinds.nodup (by decide)).map stableIdentifier_injective

/-- The checks that `build` makes of its input. -/
structure Buildable (user : UserProfile) (machine : MachineProfile) (model : ModelProfile)
    (storage : StorageProfile) (capabilities : CapabilitySet) (limits : CalibrationLimits) : Prop where
  userValid : user.validate = .ok ()
  machineValid : machine.validate = .ok ()
  modelValid : model.validate = .ok ()
  storageValid : storage.validate = .ok ()
  limitsValid : limits.validate user = .ok ()
  fileSize : ∀ bytes, storage.fileSizeBytes = some bytes → bytes = model.fileSizeBytes
  ram : ∃ available, machine.availableRamBytes = some available ∧ limits.maxMemoryBytes ≤ available
  schema : capabilities.schemaVersion = profileSchemaVersion
  machineFingerprint : capabilities.machineFingerprint = machine.fingerprint
  modelFingerprint : capabilities.modelFingerprint = model.identity.descriptorFingerprint
  storageFingerprint : capabilities.storageFingerprint = storage.fingerprint

theorem descriptorFingerprint_ne {model : ModelProfile} (h : model.validate = .ok ()) :
    model.identity.descriptorFingerprint ≠ 0 :=
  (of_failIf_bind_ok (of_failIf_bind_ok h).2).1

section build

variable {user : UserProfile} {machine : MachineProfile} {storage : StorageProfile}
  {capabilities : CapabilitySet}

/-- Input that passes the checks gives a plan that passes its own. -/
theorem build_sound (h : Buildable user machine model storage capabilities limits)
    (hmachine : machine.fingerprint ≠ 0) (hstorage : storage.fingerprint ≠ 0) :
    ∃ plan, build user machine model storage capabilities limits = .ok plan ∧ plan.Sound ∧
      plan.level = user.calibrationLevel ∧ plan.machineFingerprint = machine.fingerprint ∧
      plan.modelFingerprint = model.identity.descriptorFingerprint ∧
      plan.storageFingerprint = storage.fingerprint ∧ plan.limits = limits := by
  obtain ⟨available, havailable, hfits⟩ := h.ram
  have hfile : ¬storage.fileSizeBytes.any (· ≠ model.fileSizeBytes) = true := by
    rw [Option.any_eq_true]
    rintro ⟨bytes, hbytes, hne⟩
    exact of_decide_eq_true hne (h.fileSize bytes hbytes)
  have hplan : ∀ plan : CalibrationPlan, plan = {
      schemaVersion := profileSchemaVersion
      planVersion := Planner.calibrationPlanVersion
      rulesetVersion := Planner.calibrationRulesetVersion
      identifier := plan.identifier
      level := user.calibrationLevel
      machineFingerprint := machine.fingerprint
      modelFingerprint := model.identity.descriptorFingerprint
      storageFingerprint := storage.fingerprint
      limits := limits
      tasks := plannedTasks user.calibrationLevel model model.identity.descriptorFingerprint
        storage.fingerprint limits } → plan.identifier = calibrationPlanIdentifier plan → plan.Sound := by
    intro plan hplan hidentifier
    rw [hplan] at hidentifier ⊢
    refine ⟨rfl, rfl, rfl, hmachine, descriptorFingerprint_ne h.modelValid, hstorage,
      (bounded_of_validate h.limitsValid).1, fun hne hlevel => hne ?_, hidentifier, plannedTasks_made,
      plannedTasks_distinct⟩
    exact plannedTasks_none hlevel
  unfold build
  rw [h.userValid, h.machineValid, h.modelValid, h.storageValid, h.limitsValid]
  simp only [Outcome.mapErr_ok, ok_bind]
  rw [failIf_of_not hfile, ok_bind, havailable, okOr_some, ok_bind,
    failIf_of_not (Nat.not_lt.mpr hfits), ok_bind, failIf_of_not, ok_bind,
    (hplan _ rfl rfl).validate, ok_bind]
  · exact ⟨_, rfl, hplan _ rfl rfl, rfl, rfl, rfl, rfl, rfl⟩
  · rintro (hv | hv | hv | hv)
    · exact hv h.schema
    · exact hv h.machineFingerprint
    · exact hv h.modelFingerprint
    · exact hv h.storageFingerprint

end build

/-- A request that succeeds leaves a plan that passes its checks, for the same inputs. -/
theorem requestStrategyMeasurement_sound {plan plan' : CalibrationPlan} {strategy : StrategyId}
    (h : plan.Sound) (hrun : requestStrategyMeasurement strategy plan = (.ok (), plan')) :
    plan'.Sound ∧ plan'.level = plan.level ∧ plan'.machineFingerprint = plan.machineFingerprint ∧
      plan'.modelFingerprint = plan.modelFingerprint ∧
      plan'.storageFingerprint = plan.storageFingerprint ∧ plan'.limits = plan.limits := by
  unfold requestStrategyMeasurement at hrun
  rw [Exec.self_bind_run] at hrun
  obtain ⟨hlevel, hrun⟩ := Exec.of_failIf_bind_ok hrun
  obtain ⟨hfresh, hrun⟩ := Exec.of_failIf_bind_ok hrun
  rw [Exec.modify_bind_run, Exec.modify_bind_run, Exec.self_bind_run, Exec.resume_run] at hrun
  obtain ⟨-, rfl⟩ := Prod.mk.inj hrun
  have hthorough := Decidable.not_not.mp hlevel
  refine ⟨⟨h.schema, h.version, h.ruleset, h.machine, h.model, h.storage, h.limits, fun _ hnone => ?_,
    rfl, fun task hmem => ?_, ?_⟩, rfl, rfl, rfl, rfl, rfl⟩
  · rw [hthorough] at hnone
    cases hnone
  · rcases List.mem_append.mp hmem with hmem | hmem
    · exact h.made task hmem
    · rw [List.mem_singleton.mp hmem]
      exact .strategy strategy
  · simp only [List.map_append, List.map_cons, List.map_nil]
    rw [List.nodup_append]
    refine ⟨h.distinct, List.nodup_singleton _, ?_⟩
    intro identifier hmem other hother heq
    obtain ⟨task, htask, rfl⟩ := List.mem_map.mp hmem
    rw [List.mem_singleton.mp hother] at heq
    exact hfresh (List.any_eq_true.mpr ⟨task, htask, decide_eq_true heq⟩)

end CalibrationPlan
end Calibration
end Ramforge
