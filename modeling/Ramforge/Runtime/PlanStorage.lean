/-
A returned plan survives being stored: it is well formed, its encoding is short, and
what is read back is compiled to the same configuration.
-/
import Ramforge.Runtime.PlanPipeline

namespace Ramforge
namespace Planner

open Std Rust Rust.Outcome Rust.Codec

/-! ## Sizes of encodings -/

theorem putU8_within (value : UInt8) : AppendsWithin (putU8 value) 1 := within_extend (Nat.le_refl _)

theorem putU32_within (value : Nat) : AppendsWithin (putU32 value) 4 :=
  within_extend (Nat.le_of_eq (LittleEndian.length_toBytes 4 value))

theorem putU64_within (value : Nat) : AppendsWithin (putU64 value) 8 :=
  within_extend (Nat.le_of_eq (LittleEndian.length_toBytes 8 value))

theorem putBool_within (value : Bool) : AppendsWithin (putBool value) 1 := putU8_within _

theorem putString_within {field value : String} (h : value.utf8ByteSize ≤ maxStringBytes) :
    AppendsWithin (putString field value) (4 + maxStringBytes) := by
  refine within_check (Nat.not_lt.mpr h) (within_bind (putU32_within _) (within_extend ?_))
  rw [PlanReader.length_utf8]
  exact h

theorem putOptionalU32_within (value : Option Nat) : AppendsWithin (putOptionalU32 value) (1 + 4) :=
  within_option putBool_within fun n _ => putU32_within n

theorem putOptionalU64_within (value : Option Nat) : AppendsWithin (putOptionalU64 value) (1 + 8) :=
  within_option putBool_within fun n _ => putU64_within n

theorem putOptionalString_within {field : String} {value : Option String}
    (h : ∀ s, value = some s → s.utf8ByteSize ≤ maxStringBytes) :
    AppendsWithin (putOptionalString field value) (1 + (4 + maxStringBytes)) :=
  within_option putBool_within fun s hs => putString_within (h s hs)

theorem putListCount_within {field : String} {count : Nat} (h : count ≤ maxListItems) :
    AppendsWithin (putListCount field count) 4 :=
  within_check (Nat.not_lt.mpr h) (putU32_within count)

/-! ## Short plans -/

def CalibrationProvenance.identifiers (calibration : CalibrationProvenance) : List String :=
  calibration.calibrationIdentifier.toList ++ calibration.calibrationPlanIdentifier.toList ++
    calibration.observationIdentifiers

/-- Every identifier can be stored. -/
def CalibrationProvenance.Short (calibration : CalibrationProvenance) : Prop :=
  ∀ identifier ∈ calibration.identifiers, identifier.utf8ByteSize ≤ maxStringBytes

instance (calibration : CalibrationProvenance) : Decidable calibration.Short :=
  inferInstanceAs (Decidable (∀ identifier ∈ calibration.identifiers, _))

/-- The bytes of a stored string at most, its length in front. -/
abbrev stringBytes : Nat := 4 + maxStringBytes

theorem putCalibration_within {calibration : CalibrationProvenance} (hshort : calibration.Short)
    (hcount : calibration.observationIdentifiers.length ≤ 2) :
    AppendsWithin (putCalibration calibration) (4 * stringBytes + 16) := by
  have hfirst : ∀ s, calibration.calibrationIdentifier = some s → s.utf8ByteSize ≤ maxStringBytes :=
    fun s hs => hshort s (by simp [CalibrationProvenance.identifiers, hs])
  have hplan : ∀ s, calibration.calibrationPlanIdentifier = some s →
      s.utf8ByteSize ≤ maxStringBytes :=
    fun s hs => hshort s (by simp [CalibrationProvenance.identifiers, hs])
  have hnames : AppendsWithin (putStringList "calibration observation identifiers"
      calibration.observationIdentifiers) (4 + 2 * stringBytes) := by
    refine within_bind (putListCount_within (hcount.trans (by decide))) ?_
    refine (within_all fun s hs => putString_within (hshort s (List.mem_append_right _ hs))).mono ?_
    exact Nat.mul_le_mul_right _ hcount
  refine AppendsWithin.mono (within_bind (putOptionalString_within hfirst)
    (within_bind (putOptionalString_within hplan) (within_bind (putOptionalU32_within _)
      (within_bind (putOptionalU32_within _) hnames)))) ?_
  show _ ≤ 4 * (4 + maxStringBytes) + 16
  unfold stringBytes
  omega

theorem putReasons_within {reasons : List PlanReason} (hcount : reasons.length ≤ 16) :
    AppendsWithin (putReasons reasons) 164 := by
  refine AppendsWithin.mono (within_bind (putListCount_within (hcount.trans (by decide)))
    (within_all fun reason _ => within_bind (putU8_within _) (putOptionalU64_within _))) ?_
  omega

/-- What keeps the encoding of a plan within the limit. -/
structure PersistedExecutionPlan.Small (plan : PersistedExecutionPlan) : Prop where
  device : plan.gpu.selectedDeviceId = none
  identifiers : plan.calibration.Short
  observations : plan.calibration.observationIdentifiers.length ≤ 2
  reasons : plan.reasons.length ≤ 16

theorem putPlan_within {plan : PersistedExecutionPlan} (h : plan.Small) :
    AppendsWithin (putPlan plan) maxPersistedPlanBytes := by
  have hdevice : AppendsWithin (putOptionalString "GPU device identifier" plan.gpu.selectedDeviceId)
      (1 + stringBytes) :=
    putOptionalString_within fun s hs => by
      rw [h.device] at hs
      cases hs
  have hreservations : AppendsWithin (putReservations plan.reservations) (8 + (8 + (8 + (8 + (8 + 8))))) :=
    within_bind (putU64_within _) (within_bind (putU64_within _) (within_bind (putU64_within _)
      (within_bind (putU64_within _) (within_bind (putU64_within _) (putU64_within _)))))
  have hcost : AppendsWithin (putCost plan.cost) (8 + (1 + 8 + (1 + 8))) :=
    within_bind (putU64_within _) (within_bind (putOptionalU64_within _) (putOptionalU64_within _))
  refine AppendsWithin.mono
    (within_bind (within_extend (Nat.le_refl _)) <| within_bind (putU32_within _) <|
      within_bind (putU32_within _) <| within_bind (putU32_within _) <|
      within_bind (putU64_within _) <| within_bind (putU64_within _) <|
      within_bind (putU64_within _) <| within_bind (putU8_within _) <|
      within_bind (putU8_within _) <| within_bind (putU64_within _) <|
      within_bind (putU64_within _) <|
      within_bind (within_bind (putBool_within _) (putU64_within _)) <|
      within_bind (within_bind (putBool_within _) (putBool_within _)) <|
      within_bind (within_bind (putU8_within _) (within_bind (putBool_within _) hdevice)) <|
      within_bind hreservations <| within_bind hcost <|
      within_bind (putCalibration_within h.identifiers h.observations)
        (putReasons_within h.reasons)) ?_
  decide

/-! ## The checks of a stored plan -/

/-- The decision that a reason is about. -/
def PlanReasonCode.decision : PlanReasonCode → Nat
  | .userRamBudgetPreserved => 0
  | .threadCountSelectedByPreset | .threadCountSelectedByAdvancedOverride => 1
  | .cpuStrategySelected | .gpuStrategySelected => 2
  | .gpuDisabledByUser | .gpuUnavailable => 3
  | .layerCacheEnabledWithinStaticCapacity | .layerCacheDisabledByPreset
  | .layerCacheDisabledBecauseNoCompleteLayerFits => 4
  | .readCoalescingEnabled | .readCoalescingDisabled => 5
  | .groupedReadBufferReuseEnabled | .groupedReadBufferReuseDisabled => 6
  | .calibrationObservationsApplied | .calibrationNotRequested | .calibrationNotApplicable => 7

theorem Accounted.decision {calibration : Option CalibrationResult}
    {provenance : CalibrationProvenance} {reason : PlanReasonCode}
    (h : Accounted calibration provenance reason) : reason.decision = 7 := by
  cases h <;> rfl

theorem Accounted.provenance {calibration : Option CalibrationResult}
    {provenance : CalibrationProvenance} {reason : PlanReasonCode}
    (h : Accounted calibration provenance reason) :
    provenance = .unused ∨
      ∃ c identifiers, c.Valid ∧ Named c identifiers ∧ provenance = .of c identifiers := by
  cases h with
  | notRequested => exact .inl rfl
  | notApplicable => exact .inl rfl
  | nothingMeasured c _ hvalid =>
    exact .inr ⟨c, [], hvalid, ⟨Nat.zero_le _, List.nodup_nil, fun _ hmem => (by cases hmem)⟩, rfl⟩
  | applied c _ hvalid identifiers hnamed _ => exact .inr ⟨c, identifiers, hvalid, hnamed, rfl⟩

/-- One reason for each decision, in their order. -/
theorem map_decision_decisionReasons {user : UserProfile} {threads : Nat × PlanReasonCode}
    {gpu : GpuDecision} {layerCache : LayerCacheDecision} {io : IoDecision}
    (hthreads : threads.2 = .threadCountSelectedByPreset ∨
      threads.2 = .threadCountSelectedByAdvancedOverride)
    (hgpu : gpu.enabled = false) :
    (decisionReasons user threads gpu layerCache io).map (·.code.decision) = List.range 7 := by
  have hthread : threads.2.decision = 1 := by rcases hthreads with h | h <;> rw [h] <;> rfl
  have hdevice : (if user.gpuPreference = .disabled then PlanReasonCode.gpuDisabledByUser
      else .gpuUnavailable).decision = 3 := by split <;> rfl
  have hcache : (if layerCache.enabled then PlanReasonCode.layerCacheEnabledWithinStaticCapacity
      else if !wantsCache user then .layerCacheDisabledByPreset
      else .layerCacheDisabledBecauseNoCompleteLayerFits).decision = 4 := by
    split
    · rfl
    · split <;> rfl
  have hread : (if io.readCoalescingEnabled then PlanReasonCode.readCoalescingEnabled
      else .readCoalescingDisabled).decision = 5 := by split <;> rfl
  have hgrouped : (if io.groupedReadBufferReuseEnabled then
      PlanReasonCode.groupedReadBufferReuseEnabled
      else .groupedReadBufferReuseDisabled).decision = 6 := by split <;> rfl
  simp only [decisionReasons, hgpu, Bool.false_eq_true, if_false, List.cons_append, List.nil_append,
    List.map_cons, List.map_nil, hthread, hdevice, hcache, hread, hgrouped]
  rfl

namespace PersistedExecutionPlan

/-- The reasons before the one about the calibration have other codes. -/
theorem validateReasonCodes_eq {pre : List PlanReason} {last : PlanReason}
    (codes : List PlanReasonCode) (hpre : ∀ reason ∈ pre, reason.code.decision ≠ 7)
    (hlast : last.code.decision = 7)
    (hnodup : (codes ++ (pre ++ [last]).map (·.code)).Nodup) :
    validateReasonCodes (pre ++ [last]) codes none = .ok (some last.code) := by
  induction pre generalizing codes with
  | nil =>
    have hfresh : last.code ∉ codes := fun hmem =>
      (List.nodup_append.mp hnodup).2.2 _ hmem _ (List.mem_singleton.mpr rfl) rfl
    rw [List.nil_append, validateReasonCodes, failIf_of_not hfresh, ok_bind]
    cases hcode : last.code <;> rw [hcode] at hlast <;> first | rfl | cases hlast
  | cons reason rest ih =>
    have hfresh : reason.code ∉ codes := fun hmem =>
      (List.nodup_append.mp hnodup).2.2 _ hmem _ List.mem_cons_self rfl
    have hrest := ih (codes ++ [reason.code])
      (fun r hr => hpre r (List.mem_cons_of_mem _ hr)) (by
        rw [List.append_assoc]
        exact hnodup)
    have hother := hpre reason List.mem_cons_self
    rw [List.cons_append, validateReasonCodes, failIf_of_not hfresh, ok_bind, ← hrest]
    cases hcode : reason.code <;> rw [hcode] at hother <;> first | rfl | exact absurd rfl hother

theorem validateIdentifiers_eq {identifiers seen : List String}
    (hvalid : ∀ identifier ∈ identifiers, identifier ≠ "" ∧ identifier.utf8ByteSize ≤ maxStringBytes)
    (hnodup : (seen ++ identifiers).Nodup) : validateIdentifiers identifiers seen = .ok () := by
  induction identifiers generalizing seen with
  | nil => rfl
  | cons identifier rest ih =>
    obtain ⟨hne, hshort⟩ := hvalid identifier List.mem_cons_self
    have hfresh : identifier ∉ seen := fun hmem =>
      (List.nodup_append.mp hnodup).2.2 _ hmem _ List.mem_cons_self rfl
    have hok : ¬(identifier = "" ∨ maxStringBytes < identifier.utf8ByteSize) :=
      not_or.mpr ⟨hne, Nat.not_lt.mpr hshort⟩
    rw [validateIdentifiers, failIf_of_not hok, ok_bind, failIf_of_not hfresh, ok_bind]
    refine ih (fun other hother => hvalid other (List.mem_cons_of_mem _ hother)) ?_
    rw [List.append_assoc]
    exact hnodup

theorem validateCalibrationProvenance_of {plan : PersistedExecutionPlan} {c : CalibrationResult}
    {identifiers : List String} (hvalid : c.Valid) (hnamed : Named c identifiers)
    (h : plan.calibration = .of c identifiers) (hshort : plan.calibration.Short) :
    plan.validateCalibrationProvenance = .ok () := by
  rw [h] at hshort
  have hidentifier := hshort c.identifier (by
    simp [CalibrationProvenance.identifiers, CalibrationProvenance.of])
  have hplan := hshort c.calibrationPlanIdentifier (by
    simp [CalibrationProvenance.identifiers, CalibrationProvenance.of])
  have hversions : c.calibrationPlanVersion ≠ 0 ∧ c.calibrationRulesetVersion ≠ 0 := by
    rw [hvalid.planVersion, hvalid.rulesetVersion]
    decide
  have hnone : ¬(identifierInvalid (CalibrationProvenance.of c identifiers).calibrationIdentifier ∨
      identifierInvalid (CalibrationProvenance.of c identifiers).calibrationPlanIdentifier ∨
      (CalibrationProvenance.of c identifiers).calibrationPlanVersion = some 0 ∨
      (CalibrationProvenance.of c identifiers).calibrationRulesetVersion = some 0) := by
    simp [CalibrationProvenance.of, identifierInvalid, hvalid.identifier, hvalid.planIdentifier,
      hversions, Nat.not_lt.mpr hidentifier, Nat.not_lt.mpr hplan]
  have hcount : ¬maxListItems < (CalibrationProvenance.of c identifiers).observationIdentifiers.length :=
    Nat.not_lt.mpr (hnamed.length.trans (by decide))
  rw [validateCalibrationProvenance, h, failIf_of_not (fun hpartial => hpartial.2 rfl), ok_bind, failIf_of_not hnone, ok_bind,
    failIf_of_not (fun habsent => habsent.1 rfl), ok_bind, failIf_of_not hcount, ok_bind]
  refine validateIdentifiers_eq (fun identifier hmem => ?_) hnamed.nodup
  exact ⟨hnamed.nonempty identifier hmem, hshort identifier (List.mem_append_right _ hmem)⟩

/-- Provenance that names an accepted calibration, or none. -/
theorem validateCalibrationProvenance_eq {plan : PersistedExecutionPlan}
    {calibration : Option CalibrationResult} {reason : PlanReasonCode}
    (h : Accounted calibration plan.calibration reason) (hshort : plan.calibration.Short) :
    plan.validateCalibrationProvenance = .ok () := by
  obtain hnone | ⟨c, identifiers, hvalid, hnamed, hof⟩ := h.provenance
  · rw [validateCalibrationProvenance, hnone]
    rfl
  · exact validateCalibrationProvenance_of hvalid hnamed hof hshort

theorem validateReasons_eq {plan : PersistedExecutionPlan} {calibration : Option CalibrationResult}
    {pre : List PlanReason} {last : PlanReason}
    (h : Accounted calibration plan.calibration last.code) (hreasons : plan.reasons = pre ++ [last])
    (hpre : pre.map (·.code.decision) = List.range 7) : plan.validateReasons = .ok () := by
  have hlast := h.decision
  have hother : ∀ reason ∈ pre, reason.code.decision ≠ 7 := by
    intro reason hmem heq
    have hrange := List.mem_map_of_mem (f := (·.code.decision)) hmem
    rw [hpre, List.mem_range, heq] at hrange
    omega
  have hnodup : ((pre ++ [last]).map (·.code)).Nodup := by
    refine List.Nodup.of_map PlanReasonCode.decision ?_
    rw [List.map_map, List.map_append, List.map_singleton]
    show (pre.map (·.code.decision) ++ [last.code.decision]).Nodup
    rw [hpre, hlast]
    decide
  have hlength : pre.length = 7 := by rw [← List.length_map (·.code.decision), hpre]; rfl
  have hcount : ¬(plan.reasons = [] ∨ maxListItems < plan.reasons.length) := by
    rw [hreasons, List.length_append, hlength, List.length_singleton]
    exact not_or.mpr ⟨List.concat_ne_nil _ _, Nat.not_lt.mpr (by decide)⟩
  rw [validateReasons, failIf_of_not hcount, ok_bind, hreasons,
    validateReasonCodes_eq [] hother hlast hnodup, ok_bind, okOr_some, ok_bind]
  refine failIf_of_not (not_not.mpr ?_)
  generalize plan.calibration = provenance, last.code = code at h ⊢
  cases h with
  | notRequested | notApplicable | nothingMeasured => rfl
  | applied c _ _ identifiers _ hne =>
    cases identifiers with
    | nil => exact absurd rfl hne
    | cons => rfl

end PersistedExecutionPlan

/-! ## Storing a returned plan -/

/-- The record that is stored for a plan. -/
def ExecutionPlan.persisted (p : ExecutionPlan) : PersistedExecutionPlan where
  persistenceSchemaVersion := persistedExecutionPlanSchemaVersion
  executionSchemaVersion := p.schemaVersion
  plannerRulesetVersion := p.rulesetVersion
  modelDescriptorFingerprint := p.binding.modelDescriptorFingerprint
  sourceMachineFingerprint := p.binding.machineFingerprint
  sourceStorageFingerprint := p.binding.storageFingerprint
  mode := p.mode
  strategy := p.strategy
  ramBudgetBytes := p.ramBudgetBytes
  cpuThreadCount := p.cpuThreadCount
  layerCache := p.layerCache
  io := p.io
  gpu := p.gpu
  reservations := p.reservations
  cost := p.cost
  calibration := p.calibration
  reasons := p.reasons

/-- The numbers of a profile are of their types. -/
structure MachineProfile.Fits (machine : MachineProfile) : Prop where
  available : ∀ n, machine.availableRamBytes = some n → n < u64Bound
  cores : machine.logicalCpuCores < u64Bound

/-- What is stored with the decisions: a cost, a calibration, and the reasons. -/
structure Explained (p : ExecutionPlan) (execution : ExecutionMemoryPlan)
    (calibration : Option CalibrationResult) (pre : List PlanReason) (last : PlanReason) : Prop where
  consistent : execution.Consistent p.ramBudgetBytes
  costed : Costed execution p.cost
  accounted : Accounted calibration p.calibration last.code
  reasons : p.reasons = pre ++ [last]
  decisions : pre.map (·.code.decision) = List.range 7
  observations : last.value = some p.calibration.observationIdentifiers.length
  values : ∀ reason ∈ pre, ∀ n, reason.value = some n →
    n = p.ramBudgetBytes ∨ n = p.cpuThreadCount ∨ n = p.layerCache.capacityBytes

section stored

variable {p : ExecutionPlan} {context : PlanCompilationContext} {execution : ExecutionMemoryPlan}
  {calibration : Option CalibrationResult} {pre : List PlanReason} {last : PlanReason}

theorem Explained.observations_le (h : Explained p execution calibration pre last) :
    p.calibration.observationIdentifiers.length ≤ 2 := by
  obtain hnone | ⟨c, identifiers, -, hnamed, hof⟩ := h.accounted.provenance
  · rw [hnone]
    exact Nat.zero_le _
  · rw [hof]
    exact hnamed.length

theorem validateStructure_persisted (h : Compilable p context execution)
    (hexplained : Explained p execution calibration pre last)
    (hmachine : context.machine.fingerprint ≠ 0) (hstorage : context.storage.fingerprint ≠ 0)
    (hshort : p.calibration.Short) : p.persisted.validateStructure = .ok () := by
  have hmodel : context.model.identity.descriptorFingerprint ≠ 0 :=
    (of_failIf_bind_ok (of_failIf_bind_ok h.modelValid).2).1
  have hfingerprints : ¬(p.persisted.modelDescriptorFingerprint = 0 ∨
      p.persisted.sourceMachineFingerprint = 0 ∨ p.persisted.sourceStorageFingerprint = 0) := by
    simp [ExecutionPlan.persisted, h.binding, hmodel, hmachine, hstorage]
  have hschema : p.persisted.executionSchemaVersion ≠ 0 := by
    show p.schemaVersion ≠ 0
    rw [h.header.1]
    decide
  have hruleset : p.persisted.plannerRulesetVersion ≠ 0 := by
    show p.rulesetVersion ≠ 0
    rw [h.header.2]
    decide
  have hremaining : checkedSub p.persisted.ramBudgetBytes
      p.persisted.reservations.managedLowerBoundBytes =
        some (p.ramBudgetBytes - execution.managedLowerBoundBytes) := by
    show checkedSub p.ramBudgetBytes p.reservations.managedLowerBoundBytes = _
    rw [h.lowerBound, checkedSub_of_le h.lowerBound_le]
  have hdevice : p.persisted.gpu.selectedDeviceId ≠ some "" := by
    show p.gpu.selectedDeviceId ≠ some ""
    rw [h.gpu.2.1]
    exact (Option.some_ne_none _).symm
  have hversion : p.persisted.persistenceSchemaVersion = persistedExecutionPlanSchemaVersion := rfl
  have hbudget : ¬p.persisted.reservations.availableRamBytesAtPlanning < p.persisted.ramBudgetBytes :=
    Nat.not_lt.mpr h.budget_le
  have hrest : p.persisted.reservations.remainingBudgetAfterLowerBoundBytes =
      p.ramBudgetBytes - execution.managedLowerBoundBytes := h.remaining
  have hcapacity : ¬p.ramBudgetBytes - execution.managedLowerBoundBytes <
      p.persisted.layerCache.capacityBytes := Nat.not_lt.mpr h.capacity_le
  rw [PersistedExecutionPlan.validateStructure, failIf_of_not (not_not.mpr hversion), ok_bind,
    failIf_of_not hschema, ok_bind, failIf_of_not hruleset, ok_bind, failIf_of_not hfingerprints,
    ok_bind, failIf_of_not hbudget, ok_bind, hremaining, okOr_some, ok_bind,
    failIf_of_not (not_not.mpr hrest), ok_bind, failIf_of_not hcapacity, ok_bind,
    failIf_of_not hdevice, ok_bind,
    PersistedExecutionPlan.validateCalibrationProvenance_eq hexplained.accounted hshort, ok_bind,
    PersistedExecutionPlan.validateReasons_eq hexplained.accounted hexplained.reasons
      hexplained.decisions, ok_bind]
  show PersistedExecutionPlan.acceptDecisions (PlanCompiler.validateConcreteDecisions p) = _
  rw [h.validateConcreteDecisions_eq]
  rfl

theorem fits_persisted (h : Compilable p context execution)
    (hexplained : Explained p execution calibration pre last) (hfits : context.machine.Fits) :
    p.persisted.Fits := by
  have havailable := hfits.available _ h.available
  have hbudget : p.ramBudgetBytes < u64Bound := Nat.lt_of_le_of_lt h.budget_le havailable
  have hthreads : p.cpuThreadCount < u64Bound := Nat.lt_of_le_of_lt h.threads_le hfits.cores
  have hremaining : p.ramBudgetBytes - execution.managedLowerBoundBytes < u64Bound :=
    Nat.lt_of_le_of_lt (Nat.sub_le _ _) hbudget
  have hcapacity : p.layerCache.capacityBytes < u64Bound :=
    Nat.lt_of_le_of_lt h.capacity_le hremaining
  have hconsistent := hexplained.consistent
  refine
    { persistenceSchema := by
        show persistedExecutionPlanSchemaVersion < 2 ^ 32
        decide
      executionSchema := by
        show p.schemaVersion < 2 ^ 32
        rw [h.header.1]
        decide
      ruleset := by
        show p.rulesetVersion < 2 ^ 32
        rw [h.header.2]
        decide
      ramBudget := hbudget
      threads := hthreads
      layerCache := hcapacity
      reservations :=
        { available := havailable
          resident := h.resident ▸ hconsistent.resident_lt
          startupPeak := h.startupPeak ▸ hconsistent.startupPeak_lt
          layerPeak := h.layerPeak ▸ hconsistent.layerPeak_lt
          lowerBound := h.lowerBound ▸ hconsistent.lowerBound_lt
          remaining := h.remaining ▸ hremaining }
      cost :=
        { bytes := hexplained.costed.bytes ▸ hconsistent.physicalBytes_lt
          readTime := hexplained.costed.readTime
          latency := hexplained.costed.latency }
      calibration := ?_
      reasons := ?_ }
  · show p.calibration.Fits
    obtain hnone | ⟨c, identifiers, hvalid, -, hof⟩ := hexplained.accounted.provenance
    · rw [hnone]
      exact ⟨fun _ hn => (by cases hn), fun _ hn => (by cases hn)⟩
    · rw [hof]
      refine ⟨fun n hn => ?_, fun n hn => ?_⟩
      · rw [← Option.some.inj hn, hvalid.planVersion]
        decide
      · rw [← Option.some.inj hn, hvalid.rulesetVersion]
        decide
  · show ∀ reason ∈ p.reasons, reason.Fits
    rw [hexplained.reasons]
    refine List.forall_mem_append.mpr ⟨fun reason hmem n hn => ?_, List.forall_mem_singleton.mpr ?_⟩
    · obtain rfl | rfl | rfl := hexplained.values reason hmem n hn <;> assumption
    · intro n hn
      rw [hexplained.observations] at hn
      rw [← Option.some.inj hn]
      exact Nat.lt_of_le_of_lt hexplained.observations_le (by decide)

theorem small_persisted (h : Compilable p context execution)
    (hexplained : Explained p execution calibration pre last) (hshort : p.calibration.Short) :
    p.persisted.Small where
  device := h.gpu.2.1
  identifiers := hshort
  observations := hexplained.observations_le
  reasons := by
    show p.reasons.length ≤ 16
    rw [hexplained.reasons, List.length_append, ← List.length_map (·.code.decision),
      hexplained.decisions, List.length_singleton]
    decide

/-- Reading the encoding back gives the same record. -/
theorem store_and_read (h : Compilable p context execution)
    (hexplained : Explained p execution calibration pre last) (hfits : context.machine.Fits)
    (hmachine : context.machine.fingerprint ≠ 0) (hstorage : context.storage.fingerprint ≠ 0)
    (hshort : p.calibration.Short) :
    ∃ bytes, PersistedExecutionPlan.fromExecutionPlan p = .ok p.persisted ∧
      p.persisted.toBytes = .ok bytes ∧ PersistedExecutionPlan.fromBytes bytes = .ok p.persisted := by
  have hvalid := validateStructure_persisted h hexplained hmachine hstorage hshort
  obtain ⟨bytes, hput, hlength⟩ := putPlan_within (small_persisted h hexplained hshort)
  have hput : putPlan p.persisted [] = (.ok (), bytes) := hput []
  refine ⟨bytes, ?_, ?_, ?_⟩
  · show p.persisted.validateStructure >>= _ = _
    rw [hvalid]
    rfl
  · exact PersistedExecutionPlan.toBytes_of_put hvalid hput (Nat.not_lt.mpr hlength)
  · have hread := PersistedExecutionPlan.fromBytes_of_put [] hvalid
      (fits_persisted h hexplained hfits) hput (by rwa [List.append_nil, Nat.not_lt])
    rwa [List.append_nil, if_pos rfl] at hread

/-- In the context of the plan, what is stored stands for the plan itself. -/
theorem compileRuntimeConfig_persisted (h : Compilable p context execution)
    (hvalid : p.persisted.validateStructure = .ok ()) :
    p.persisted.compileRuntimeConfig context = .ok p.runtimeConfig := by
  have hmaterialized : p.persisted.materializeForContext context = p := by
    show p.persisted.materialize _ _ _ context.machine.availableRamBytes = p
    rw [h.available]
    obtain ⟨schemaVersion, rulesetVersion, binding, mode, strategy, ramBudgetBytes, cpuThreadCount,
      layerCache, io, gpu, reservations, cost, provenance, reasons⟩ := p
    obtain rfl := h.binding
    rfl
  have hmodel : p.persisted.modelDescriptorFingerprint =
      context.model.identity.descriptorFingerprint := by
    show p.binding.modelDescriptorFingerprint = _
    rw [h.binding]
  rw [PersistedExecutionPlan.compileRuntimeConfig, hvalid]
  show Outcome.failIf _ _ >>= _ = _
  rw [failIf_of_not (not_not.mpr hmodel), ok_bind, hmaterialized]
  show (PlanCompiler.compile p context).mapErr _ = _
  rw [h.compile_eq]
  rfl

end stored

section returned

variable {R : Type} [F32 R] [F32Narrow R] [FloatText]

theorem plan_explained {gguf : GgufModel} {ramBudgetBytes : Nat} {user : UserProfile}
    {machine : MachineProfile} {model : ModelProfile} {storage : StorageProfile}
    {capabilities : CapabilitySet} {staticPlan : PlanResult}
    {calibration : Option CalibrationResult} {p : ExecutionPlan}
    (hstatic : planModel R gguf ramBudgetBytes = .ok staticPlan)
    (h : plan user machine model storage capabilities staticPlan calibration = .ok p) :
    ∃ execution pre last,
      Compilable p { machine, model, storage, capabilities, staticPlan } execution ∧
        Explained p execution calibration pre last := by
  obtain ⟨execution, hcompilable, hconsistent, hcosted, threads, reason, hreasons, hthreads, hcode,
    hbudget, haccounted⟩ := plan_compilable hstatic h
  refine ⟨execution, _, _, hcompilable, hconsistent, hcosted, haccounted, hreasons,
    map_decision_decisionReasons hcode hcompilable.gpu.1, rfl, ?_⟩
  intro other hmem n hn
  simp only [decisionReasons, hcompilable.gpu.1, Bool.false_eq_true, if_false, List.mem_append,
    List.mem_cons, List.not_mem_nil, or_false] at hmem
  obtain ((rfl | rfl | rfl) | rfl) | rfl | rfl | rfl := hmem
  · exact .inl ((Option.some.inj hn).symm.trans hbudget.symm)
  · exact .inr (.inl ((Option.some.inj hn).symm.trans hthreads))
  · cases hn
  · cases hn
  · exact .inr (.inr (Option.some.inj hn).symm)
  · cases hn
  · cases hn

/-- A returned plan is compiled to exactly its decisions, before and after it was stored. -/
theorem plan_pipeline (gguf : GgufModel) (ramBudgetBytes : Nat) (user : UserProfile)
    (machine : MachineProfile) (model : ModelProfile) (storage : StorageProfile)
    (capabilities : CapabilitySet) (staticPlan : PlanResult)
    (calibration : Option CalibrationResult) (p : ExecutionPlan)
    (hstatic : planModel R gguf ramBudgetBytes = .ok staticPlan)
    (h : plan user machine model storage capabilities staticPlan calibration = .ok p) :
    (∃ config,
      PlanCompiler.compile p { machine, model, storage, capabilities, staticPlan } = .ok config ∧
      config.cpuThreadCount = p.cpuThreadCount ∧ config.ramBudgetBytes = p.ramBudgetBytes ∧
      config.layerCacheEnabled = p.layerCache.enabled ∧
      config.layerCacheCapacityBytes = p.layerCache.capacityBytes ∧
      config.readCoalescingEnabled = p.io.readCoalescingEnabled ∧
      config.groupedReadBufferReuseEnabled = p.io.groupedReadBufferReuseEnabled) ∧
    (machine.Fits → machine.fingerprint ≠ 0 → storage.fingerprint ≠ 0 → p.calibration.Short →
      ∃ persisted bytes,
        PersistedExecutionPlan.fromExecutionPlan p = .ok persisted ∧
        persisted.toBytes = .ok bytes ∧
        PersistedExecutionPlan.fromBytes bytes = .ok persisted ∧
        persisted.compileRuntimeConfig { machine, model, storage, capabilities, staticPlan } =
          (PlanCompiler.compile p { machine, model, storage, capabilities, staticPlan }).mapErr
            .compilation) := by
  obtain ⟨execution, pre, last, hcompilable, hexplained⟩ := plan_explained hstatic h
  refine ⟨⟨p.runtimeConfig, hcompilable.compile_eq, rfl, rfl, rfl, rfl, rfl, rfl⟩, ?_⟩
  intro hfits hmachine hstorage hshort
  obtain ⟨bytes, hpersist, hencode, hdecode⟩ :=
    store_and_read hcompilable hexplained hfits hmachine hstorage hshort
  refine ⟨p.persisted, bytes, hpersist, hencode, hdecode, ?_⟩
  rw [hcompilable.compile_eq]
  exact compileRuntimeConfig_persisted hcompilable
    (validateStructure_persisted hcompilable hexplained hmachine hstorage hshort)

end returned

/-! ### A small model -/

def sampleDescriptor (name : String) (dimensions : List Nat) (offset : Nat) : TensorDescriptor where
  name := name
  dimensions := dimensions
  ggmlType := .f32
  offset := offset
  fileOffset := offset
  byteLength := some (4 * dimensions.prod)
  numElements := dimensions.prod

def sampleMetadata : List (String × MetadataValue) :=
  [("general.architecture", .string "llama"), ("llama.vocab_size", .uInt32 16),
    ("llama.context_length", .uInt32 64), ("llama.embedding_length", .uInt32 8),
    ("llama.block_count", .uInt32 1), ("llama.feed_forward_length", .uInt32 16),
    ("llama.attention.head_count", .uInt32 2)]

def sampleGguf : GgufModel where
  path := "/models/tiny.gguf"
  fileSize := 3168
  version := 3
  metadata := sampleMetadata.foldl (fun metadata (key, value) => metadata.insert key value) ∅
  tensors :=
    [sampleDescriptor "token_embd.weight" [8, 16] 0,
      sampleDescriptor "output_norm.weight" [8] 512,
      sampleDescriptor "blk.0.attn_norm.weight" [8] 544,
      sampleDescriptor "blk.0.attn_q.weight" [8, 8] 576,
      sampleDescriptor "blk.0.attn_k.weight" [8, 8] 832,
      sampleDescriptor "blk.0.attn_v.weight" [8, 8] 1088,
      sampleDescriptor "blk.0.attn_output.weight" [8, 8] 1344,
      sampleDescriptor "blk.0.ffn_norm.weight" [8] 1600,
      sampleDescriptor "blk.0.ffn_gate.weight" [8, 16] 1632,
      sampleDescriptor "blk.0.ffn_up.weight" [8, 16] 2144,
      sampleDescriptor "blk.0.ffn_down.weight" [16, 8] 2656]
  alignment := 32
  dataStartOffset := 0

@[reducible] def sampleText : FloatText := ⟨fun bits => toString bits, fun bits => toString bits⟩

theorem plan_pipeline_sample :
    ∃ staticPlan p persisted bytes, ∃ config : RuntimeConfig,
      @planModel ℚ _ _ sampleText sampleGguf 10000 = .ok staticPlan ∧
      plan sampleUser sampleMachine sampleModel sampleStorage
        (CapabilitySet.derive sampleMachine sampleModel sampleStorage staticPlan) staticPlan
        (some sampleCalibration) = .ok p ∧
      config.layerCacheCapacityBytes = p.layerCache.capacityBytes ∧
      PersistedExecutionPlan.fromExecutionPlan p = .ok persisted ∧
      persisted.toBytes = .ok bytes ∧
      (PersistedExecutionPlan.fromBytes bytes).map (·.cpuThreadCount) = .ok config.cpuThreadCount := by
  have hrun : (@planModel ℚ _ _ sampleText sampleGguf 10000 >>= fun staticPlan =>
      (plan sampleUser sampleMachine sampleModel sampleStorage
        (CapabilitySet.derive sampleMachine sampleModel sampleStorage staticPlan) staticPlan
        (some sampleCalibration)).mapErr fun _ => "plan").map
          (fun p => decide p.calibration.Short) = .ok true := by
    decide +kernel
  obtain ⟨p, hrun, hshort⟩ := of_map_ok hrun
  obtain ⟨staticPlan, hstatic, hrun⟩ := of_bind_ok hrun
  have hplan := of_mapErr_ok hrun
  let _ := sampleText
  obtain ⟨⟨config, -, hthreads, -, -, hcapacity, -⟩, hstored⟩ := plan_pipeline (R := ℚ) sampleGguf
    10000 sampleUser sampleMachine sampleModel sampleStorage _ staticPlan (some sampleCalibration) p
    hstatic hplan
  have hfits : sampleMachine.Fits :=
    ⟨fun n hn => (by rw [← Option.some.inj hn]; decide), by decide⟩
  obtain ⟨persisted, bytes, hpersist, hencode, hdecode, -⟩ :=
    hstored hfits (by decide +kernel) (by decide +kernel) (of_decide_eq_true hshort)
  refine ⟨staticPlan, p, persisted, bytes, config, hstatic, hplan, hcapacity, hpersist, hencode, ?_⟩
  rw [hdecode, hthreads]
  obtain ⟨_, -, hsame⟩ := of_bind_ok hpersist
  cases hsame
  rfl

end Planner
end Ramforge
