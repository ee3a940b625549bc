/-
What a plan of predictive staging takes.

A round of the pass settles its prediction: it passes it over, or it takes its resource and
the pages that no key before it has.
-/
import Ramforge.Runtime.PredictionPlanner
import Ramforge.Runtime.StagingPlan

namespace Ramforge

open Std Rust Rust.Interval

namespace PredictionPlan

/-- The keys that a plan takes. -/
def keys (plan : PredictionPlan) : List ResourceKey := plan.stageKeys ++ plan.prefetchKeys

end PredictionPlan

namespace PredictionPlanner

variable {config : PredictionConfig} {inventory : ResourceInventory} {b : Budgets}
  {pass pass' : Pass} {prediction : PredictedAccess} {predictions done : List PredictedAccess}
  {resource : TensorResource}

/-! ## A round -/

/-- A decision about a prediction. -/
def Decides (prediction : PredictedAccess) (d : PredictiveDecision) : Prop :=
  ∃ action reason detail, d = decision prediction action reason detail

/-- A round that takes nothing. -/
structure PassedOver (prediction : PredictedAccess) (pass pass' : Pass) : Prop where
  decided : ∃ d, Decides prediction d ∧ pass'.plan.decisions = pass.plan.decisions ++ [d]
  counted : pass'.plan.deferred + pass'.plan.rejected =
    pass.plan.deferred + pass.plan.rejected + 1
  stageKeys : pass'.plan.stageKeys = pass.plan.stageKeys
  prefetchKeys : pass'.plan.prefetchKeys = pass.plan.prefetchKeys
  ranges : pass'.ranges = pass.ranges
  stageBytes : pass'.stageBytes = pass.stageBytes
  prefetchBytes : pass'.prefetchBytes = pass.prefetchBytes
  seen : ∀ key ∈ pass.seen, key ∈ pass'.seen

/-- A round that takes a resource. -/
structure Taken (prediction : PredictedAccess) (resource : TensorResource) (pass pass' : Pass) :
    Prop where
  decided : ∃ d, Decides prediction d ∧ pass'.plan.decisions = pass.plan.decisions ++ [d]
  counted : pass'.plan.deferred + pass'.plan.rejected = pass.plan.deferred + pass.plan.rejected
  keys : pass'.plan.keys.Perm (pass.plan.keys ++ [prediction.key])
  unique : uniquePageBytes pass.ranges resource ≠ 0
  ranges : pass'.ranges = insertResourceRange pass.ranges resource
  bytes :
    pass'.stageBytes = saturatingAdd pass.stageBytes (uniquePageBytes pass.ranges resource) ∧
      pass'.prefetchBytes = pass.prefetchBytes ∨
    pass'.stageBytes = pass.stageBytes ∧
      pass'.prefetchBytes = saturatingAdd pass.prefetchBytes (uniquePageBytes pass.ranges resource)
  new : prediction.key ∉ pass.seen
  seen : ∀ key, key ∈ pass.seen ∨ key = prediction.key → key ∈ pass'.seen

theorem PassedOver.reject (action : PredictiveAction) (reason : PredictiveReason) (detail : String) :
    PassedOver prediction pass (pass.reject (decision prediction action reason detail)) where
  decided := ⟨_, ⟨action, reason, detail, rfl⟩, rfl⟩
  counted := (Nat.add_assoc ..).symm
  stageKeys := rfl
  prefetchKeys := rfl
  ranges := rfl
  stageBytes := rfl
  prefetchBytes := rfl
  seen _ h := h

theorem PassedOver.defer (action : PredictiveAction) (reason : PredictiveReason) (detail : String) :
    PassedOver prediction pass (pass.defer (decision prediction action reason detail)) where
  decided := ⟨_, ⟨action, reason, detail, rfl⟩, rfl⟩
  counted := Nat.add_right_comm ..
  stageKeys := rfl
  prefetchKeys := rfl
  ranges := rfl
  stageBytes := rfl
  prefetchBytes := rfl
  seen _ h := h

/-- The key of the prediction is marked before the rest of the round. -/
theorem PassedOver.of_seen
    (h : PassedOver prediction { pass with seen := pass.seen.insert prediction.key } pass') :
    PassedOver prediction pass pass' :=
  ⟨h.decided, h.counted, h.stageKeys, h.prefetchKeys, h.ranges, h.stageBytes, h.prefetchBytes,
    fun key hkey => h.seen key (ExtTreeSet.mem_insert.mpr (.inr hkey))⟩

theorem place_cases (pass : Pass) (prediction : PredictedAccess) (resource : TensorResource)
    (hnew : prediction.key ∉ pass.seen) :
    PassedOver prediction pass
        (place b { pass with seen := pass.seen.insert prediction.key } prediction resource) ∨
      Taken prediction resource pass
        (place b { pass with seen := pass.seen.insert prediction.key } prediction resource) := by
  have hseen : ∀ key, key ∈ pass.seen ∨ key = prediction.key →
      key ∈ pass.seen.insert prediction.key := by
    intro key hkey
    rw [ExtTreeSet.mem_insert]
    rcases hkey with hkey | rfl
    · exact .inr hkey
    · exact .inl compare_self
  rw [place]
  simp only
  split
  next => exact .inl (PassedOver.defer ..).of_seen
  next hunique =>
    split
    next =>
      refine .inr ⟨⟨_, ⟨_, _, _, rfl⟩, rfl⟩, rfl, ?_, hunique, rfl, .inl ⟨rfl, rfl⟩, hnew, hseen⟩
      show ((pass.plan.stageKeys ++ [prediction.key]) ++ pass.plan.prefetchKeys).Perm _
      rw [PredictionPlan.keys, List.append_assoc, List.append_assoc]
      exact (List.perm_append_comm).append_left _
    next =>
      split
      next =>
        refine .inr ⟨⟨_, ⟨_, _, _, rfl⟩, rfl⟩, rfl, ?_, hunique, rfl, .inr ⟨rfl, rfl⟩, hnew, hseen⟩
        show (pass.plan.stageKeys ++ (pass.plan.prefetchKeys ++ [prediction.key])).Perm _
        rw [PredictionPlan.keys, List.append_assoc]
      next =>
        split
        next => exact .inl (PassedOver.defer ..).of_seen
        next =>
          split
          next => exact .inl (PassedOver.reject ..).of_seen
          next => exact .inl (PassedOver.defer ..).of_seen

/-- A round settles its prediction. -/
theorem planRound_cases (config : PredictionConfig) (inventory : ResourceInventory) (b : Budgets)
    (pass : Pass) (prediction : PredictedAccess) :
    PassedOver prediction pass (planRound config inventory b pass prediction) ∨
      ∃ resource, inventory.get prediction.key = some resource ∧ resource.fileBacked = true ∧
        Taken prediction resource pass (planRound config inventory b pass prediction) := by
  rw [planRound]
  cases hget : inventory.get prediction.key with
  | none => exact .inl (PassedOver.reject ..)
  | some resource =>
    simp only
    split
    next => exact .inl (PassedOver.reject ..)
    next hfile =>
      split
      next => exact .inl (PassedOver.reject ..)
      next =>
        split
        next => exact .inl (PassedOver.defer ..)
        next hseen =>
          split
          next => exact .inl (PassedOver.reject ..).of_seen
          next =>
            rw [ExtTreeSet.contains_iff_mem] at hseen
            rcases place_cases pass prediction resource hseen with hover | htaken
            · exact .inl hover
            · exact .inr ⟨resource, rfl, by simpa using hfile, htaken⟩

/-! ## What the pass has taken -/

section bytes

variable {resources : List TensorResource} {ranges : Ranges} {mapping : Nat}
  {A : Finset (Option Nat × Nat)}

theorem uniquePageBytes_eq (h : Stageable resources resource)
    (hmapping : resource.mappingIndex = some mapping) (hranges : Holds some ranges A) :
    uniquePageBytes ranges resource = (resource.filePages \ A).card := by
  have hoverlap : (ranges[mapping]?.map fun ranges =>
      coveredBytes ranges resource.pageStart resource.pageEnd).getD 0 =
        covered (ranges[mapping]?.getD []) resource.pageStart resource.pageEnd := by
    cases ranges[mapping]? with
    | none =>
      rw [Option.map_none, Option.getD_none, Option.getD_none, covered]
      split <;> rfl
    | some list => rfl
  rw [uniquePageBytes, hmapping]
  simp only
  rw [hoverlap, h.newBytes_eq hmapping hranges]

theorem insertResourceRange_holds (h : Stageable resources resource)
    (hmapping : resource.mappingIndex = some mapping) (hranges : Holds some ranges A) :
    Holds some (insertResourceRange ranges resource) (A ∪ resource.filePages) := by
  rw [insertResourceRange, hmapping]
  exact h.insert hmapping hranges

end bytes

/-- The bytes of a plan: what was staged and what was prefetched are the size of `A`, each
as far as a `u64` goes. -/
def Splits (stageBytes prefetchBytes : Nat) (A : Finset (Option Nat × Nat)) : Prop :=
  ∃ staged prefetched, staged + prefetched = A.card ∧
    stageBytes = min staged (u64Bound - 1) ∧ prefetchBytes = min prefetched (u64Bound - 1)

theorem saturatingAdd_min (n k : Nat) :
    saturatingAdd (min n (u64Bound - 1)) k = min (n + k) (u64Bound - 1) := by
  unfold saturatingAdd
  omega

/-- The state of the pass after the predictions `done`. -/
structure Planned (inventory : ResourceInventory) (done : List PredictedAccess) (pass : Pass) :
    Prop where
  decisions : List.Forall₂ Decides done pass.plan.decisions
  counts : pass.plan.deferred + pass.plan.rejected + pass.plan.keys.length = done.length
  nodup : pass.plan.keys.Nodup
  seen : ∀ key ∈ pass.plan.keys, key ∈ pass.seen
  fileBacked : ∀ key ∈ pass.plan.keys, ∃ r ∈ inventory.resources, r.key = key ∧ r.fileBacked = true
  ranges : Holds some pass.ranges (keyPages inventory.resources pass.plan.keys)
  bytes : Splits pass.stageBytes pass.prefetchBytes (keyPages inventory.resources pass.plan.keys)

theorem planned_start (inventory : ResourceInventory) (plan : PredictionPlan)
    (hdecisions : plan.decisions = []) (hkeys : plan.keys = [])
    (hcounts : plan.deferred + plan.rejected = 0) :
    Planned inventory [] (Pass.start plan) where
  decisions := by rw [Pass.start, hdecisions]; exact .nil
  counts := by rw [Pass.start, hkeys, hcounts]; rfl
  nodup := by rw [Pass.start, hkeys]; exact List.nodup_nil
  seen key h := by rw [Pass.start, hkeys] at h; cases h
  fileBacked key h := by rw [Pass.start, hkeys] at h; cases h
  ranges := by rw [Pass.start, hkeys, keyPages_nil]; exact Holds.empty some
  bytes := by
    rw [Pass.start, hkeys, keyPages_nil]
    exact ⟨0, 0, rfl, rfl, rfl⟩

theorem forall₂_concat {d : PredictiveDecision} {decisions : List PredictiveDecision}
    (h : List.Forall₂ Decides done decisions) (hd : Decides prediction d) :
    List.Forall₂ Decides (done ++ [prediction]) (decisions ++ [d]) :=
  List.rel_append h (.cons hd .nil)

theorem Planned.passedOver (h : Planned inventory done pass)
    (hround : PassedOver prediction pass pass') :
    Planned inventory (done ++ [prediction]) pass' := by
  obtain ⟨d, hd, hdecisions⟩ := hround.decided
  have hkeys : pass'.plan.keys = pass.plan.keys := by
    rw [PredictionPlan.keys, hround.stageKeys, hround.prefetchKeys, PredictionPlan.keys]
  refine ⟨?_, ?_, hkeys ▸ h.nodup, fun key hkey => ?_, hkeys ▸ h.fileBacked, ?_, ?_⟩
  · rw [hdecisions]
    exact forall₂_concat h.decisions hd
  · rw [hround.counted, hkeys, List.length_append, List.length_singleton, ← h.counts,
      Nat.add_right_comm]
  · exact hround.seen key (h.seen key (hkeys ▸ hkey))
  · rw [hround.ranges, hkeys]
    exact h.ranges
  · rw [hround.stageBytes, hround.prefetchBytes, hkeys]
    exact h.bytes

theorem keyPages_perm {resources : List TensorResource} {keys keys' : List ResourceKey}
    (h : keys.Perm keys') : keyPages resources keys = keyPages resources keys' := by
  ext byte
  simp only [mem_keyPages, h.mem_iff]

theorem Planned.taken (h : Planned inventory done pass)
    (hr : Stageable inventory.resources resource) (hkey : resource.key = prediction.key)
    (hround : Taken prediction resource pass pass') :
    Planned inventory (done ++ [prediction]) pass' := by
  obtain ⟨d, hd, hdecisions⟩ := hround.decided
  have hpages : keyPages inventory.resources pass'.plan.keys =
      keyPages inventory.resources pass.plan.keys ∪ resource.filePages := by
    rw [keyPages_perm hround.keys, ← hkey, hr.keyPages_concat]
  obtain ⟨mapping, hmapping⟩ : ∃ mapping, resource.mappingIndex = some mapping := by
    cases hmapping : resource.mappingIndex with
    | none => exact absurd (by rw [uniquePageBytes, hmapping]) hround.unique
    | some mapping => exact ⟨mapping, rfl⟩
  have hunique := uniquePageBytes_eq hr hmapping h.ranges
  refine ⟨?_, ?_, ?_, fun key hmem => ?_, fun key hmem => ?_, ?_, ?_⟩
  · rw [hdecisions]
    exact forall₂_concat h.decisions hd
  · rw [hround.counted, hround.keys.length_eq, List.length_append, List.length_append,
      ← Nat.add_assoc, h.counts]
    rfl
  · rw [hround.keys.nodup_iff, List.nodup_append]
    refine ⟨h.nodup, List.nodup_singleton _, fun key hmem key' hmem' heq => ?_⟩
    rw [List.mem_singleton.mp hmem'] at heq
    exact hround.new (heq ▸ h.seen key hmem)
  · rcases List.mem_append.mp (hround.keys.mem_iff.mp hmem) with hold | hnew
    · exact hround.seen key (.inl (h.seen key hold))
    · exact hround.seen key (.inr (List.mem_singleton.mp hnew))
  · rcases List.mem_append.mp (hround.keys.mem_iff.mp hmem) with hold | hnew
    · exact h.fileBacked key hold
    · exact ⟨resource, hr.mem, hkey.trans (List.mem_singleton.mp hnew).symm, hr.fileBacked⟩
  · rw [hround.ranges, hpages]
    exact insertResourceRange_holds hr hmapping h.ranges
  · obtain ⟨staged, prefetched, hsum, hstage, hprefetch⟩ := h.bytes
    rw [hpages, Splits, Stageable.card_union, ← hsum, ← hunique]
    rcases hround.bytes with ⟨hs, hp⟩ | ⟨hs, hp⟩
    · refine ⟨staged + uniquePageBytes pass.ranges resource, prefetched, Nat.add_right_comm .., ?_, ?_⟩
      · rw [hs, hstage, saturatingAdd_min]
      · rw [hp, hprefetch]
    · refine ⟨staged, prefetched + uniquePageBytes pass.ranges resource, (Nat.add_assoc ..).symm, ?_, ?_⟩
      · rw [hs, hstage]
      · rw [hp, hprefetch, saturatingAdd_min]

/-! ## The whole plan -/

theorem planRound_planned (inventory : NativeInventory) (h : Planned inventory.val done pass) :
    Planned inventory.val (done ++ [prediction])
      (planRound config inventory.val b pass prediction) := by
  rcases planRound_cases config inventory.val b pass prediction with
    hover | ⟨resource, hget, hfile, htaken⟩
  · exact h.passedOver hover
  · obtain ⟨hmem, hkey⟩ := inventory.of_get hget
    exact h.taken (inventory.stageable hmem hfile) hkey htaken

theorem foldl_planned (inventory : NativeInventory) (h : Planned inventory.val done pass) :
    Planned inventory.val (done ++ predictions)
      (predictions.foldl (planRound config inventory.val b) pass) := by
  induction predictions generalizing done pass with
  | nil =>
    rw [List.append_nil]
    exact h
  | cons prediction rest ih =>
    have hround : Planned inventory.val (done ++ [prediction])
        (planRound config inventory.val b pass prediction) := planRound_planned inventory h
    have hrest := ih hround
    rwa [List.append_assoc] at hrest

/-- What a plan says of its predictions and of the inventory. -/
structure PlansExactly (inventory : ResourceInventory) (predictions : List PredictedAccess)
    (plan : PredictionPlan) : Prop where
  decisions : List.Forall₂ Decides predictions plan.decisions
  /-- The stage keys and the prefetch keys in one list: no key twice, and no key in both. -/
  nodup : (plan.stageKeys ++ plan.prefetchKeys).Nodup
  fileBacked : ∀ key ∈ plan.stageKeys ++ plan.prefetchKeys,
    ∃ r ∈ inventory.resources, r.key = key ∧ r.fileBacked = true
  bytes : Splits plan.plannedStageBytes plan.plannedPrefetchBytes
    (keyPages inventory.resources (plan.stageKeys ++ plan.prefetchKeys))
  exact_of_lt : (keyPages inventory.resources (plan.stageKeys ++ plan.prefetchKeys)).card < u64Bound →
    plan.plannedStageBytes + plan.plannedPrefetchBytes =
      (keyPages inventory.resources (plan.stageKeys ++ plan.prefetchKeys)).card
  counts : plan.deferred + plan.rejected + (plan.stageKeys.length + plan.prefetchKeys.length) =
    predictions.length

theorem Splits.eq_of_lt {stageBytes prefetchBytes : Nat} {A : Finset (Option Nat × Nat)}
    (h : Splits stageBytes prefetchBytes A) (hlt : A.card < u64Bound) :
    stageBytes + prefetchBytes = A.card := by
  obtain ⟨staged, prefetched, hsum, rfl, rfl⟩ := h
  omega

/-- The pass when it comes to a prediction. -/
def passReached (config : PredictionConfig) (inventory : ResourceInventory)
    (currentBytes hardLimitBytes : Option Nat) (safetyReserveBytes : Nat)
    (before : List PredictedAccess) : Pass :=
  before.foldl
    (planRound config inventory (budgets config currentBytes hardLimitBytes safetyReserveBytes))
    (Pass.start openingPlan)

theorem plan_exact (config : PredictionConfig) (predictions : PredictionSet)
    (inventory : NativeInventory) (currentBytes hardLimitBytes : Option Nat)
    (safetyReserveBytes : Nat) (admissionRejected : Bool) (henabled : config.enabled = true) :
    PlansExactly inventory.val predictions.predictions
        (planPredictions config predictions inventory.val currentBytes hardLimitBytes
          safetyReserveBytes admissionRejected) ∧
      ∀ before after, predictions.predictions = before ++ after → ∀ mapping : Nat,
        Separated ((passReached config inventory.val currentBytes hardLimitBytes safetyReserveBytes
          before).ranges[mapping]?.getD []) := by
  have hreached : ∀ before, Planned inventory.val before
      (passReached config inventory.val currentBytes hardLimitBytes safetyReserveBytes before) :=
    fun before => foldl_planned inventory (planned_start inventory.val openingPlan rfl rfl rfl)
  refine ⟨?_, fun before after _ mapping => (hreached before).ranges.separated mapping⟩
  rw [planPredictions, henabled]
  cases admissionRejected with
  | true =>
    have hcard : (keyPages inventory.val.resources []).card = 0 := by
      rw [keyPages_nil, Finset.card_empty]
    refine ⟨?_, List.nodup_nil, fun key hkey => absurd hkey List.not_mem_nil, ?_, fun _ => ?_, ?_⟩
    · show List.Forall₂ Decides predictions.predictions (predictions.predictions.map _)
      exact List.forall₂_map_right_iff.mpr (List.forall₂_same.mpr fun _ _ => ⟨_, _, _, rfl⟩)
    · exact ⟨0, 0, hcard.symm, rfl, rfl⟩
    · exact hcard.symm
    · exact Nat.zero_add _
  | false =>
    have h := hreached predictions.predictions
    have hcounts := h.counts
    rw [PredictionPlan.keys, List.length_append] at hcounts
    exact ⟨h.decisions, h.nodup, h.fileBacked, h.bytes, fun hlt => h.bytes.eq_of_lt hlt, hcounts⟩

/-! ## Samples -/

def sampleNative : NativeInventory :=
  ⟨sampleInventory, .debug, ⟨"m"⟩, ⟨1⟩, sampleMappings, by decide, rfl⟩

/-- The first tensor is staged, and the second one, of medium confidence, prefetched. -/
theorem plan_exact_mixed :
    PlansExactly sampleNative.val mixedSet.predictions
        (planPredictions sampleConfig mixedSet sampleNative.val none none 0 false) ∧
      (planPredictions sampleConfig mixedSet sampleNative.val none none 0 false).keys =
        [⟨1, 0⟩, ⟨1, 1⟩] :=
  ⟨(plan_exact sampleConfig mixedSet sampleNative none none 0 false rfl).1, by decide +kernel⟩

/-- A tensor whose page range is almost the whole address space of its file. -/
def hugeMapping (index : Nat) : TensorMappingInfo where
  name := "blk.0.a"
  fileBacked := true
  mappingIndex := some index
  mappingId := none
  mappingGeneration := none
  filePath := none
  fileSize := none
  mappingSize := 2 ^ 64 - 4096
  offset := 0
  size := 4096
  pageSize := 4096
  pageStart := 0
  pageEnd := 2 ^ 64 - 4096

def hugeResource (index : Nat) : TensorResource :=
  ResourceInventory.resourceOf ⟨1, index⟩ (hugeMapping index) 0 (2 ^ 64 - 4096) (.ok ()) .native

/-- Two such tensors, as a release build counts them. -/
def hugeInventory : ResourceInventory where
  modelId := ⟨"m"⟩
  generation := ⟨1⟩
  nativeModelInstance := none
  nativeContractVersion := none
  resources := [hugeResource 0, hugeResource 1]
  byIndex := ((∅ : ExtTreeMap Int Nat compare).insert 0 0).insert 1 1
  summary :=
    { tensors := 2, fileBackedTensors := 2, anonymousTensors := 0, unknownTensors := 0, mappings := 2,
      logicalFileBackedBytes := 8192, logicalAnonymousBytes := 0, pageBytes := 2 ^ 64 - 8192,
      sharedPageBytes := 0 }

def hugeNative : NativeInventory :=
  ⟨hugeInventory, .release, ⟨"m"⟩, ⟨1⟩, [hugeMapping 0, hugeMapping 1], by decide, rfl⟩

def hugeConfig : PredictionConfig :=
  { PredictionConfig.default with
    enabled := true
    stagingWindowBytes := 2 ^ 64 - 1 }

def hugeSet : PredictionSet :=
  { PredictionSet.empty ⟨"m"⟩ ⟨1⟩ "" with
    predictions := [sampleAccess 0 "blk.0.a" .high, sampleAccess 1 "blk.0.a" .high] }

theorem card_hugePages : (keyPages hugeInventory.resources [⟨1, 0⟩, ⟨1, 1⟩]).card = 2 ^ 65 - 8192 := by
  have hfirst : Stageable hugeInventory.resources (hugeResource 0) :=
    hugeNative.stageable List.mem_cons_self rfl
  have hsecond : Stageable hugeInventory.resources (hugeResource 1) :=
    hugeNative.stageable (List.mem_cons_of_mem _ List.mem_cons_self) rfl
  have hpages : keyPages hugeInventory.resources [⟨1, 0⟩, ⟨1, 1⟩] =
      (hugeResource 0).filePages ∪ (hugeResource 1).filePages := by
    rw [← keyPages_singleton hfirst.key_inj hfirst.mem, ← hsecond.keyPages_concat]
    rfl
  have hdisjoint : Disjoint (hugeResource 0).filePages (hugeResource 1).filePages := by
    refine Finset.disjoint_left.mpr fun byte h h' => ?_
    have hmapping := (TensorResource.mem_filePages.mp h).2.1
    rw [(TensorResource.mem_filePages.mp h').2.1] at hmapping
    cases hmapping
  rw [hpages, Finset.card_union_of_disjoint hdisjoint, hfirst.cut.card_filePages,
    hsecond.cut.card_filePages]
  rfl

/-- Both are staged, and the bytes planned stop at the end of a `u64`. -/
theorem huge_saturates : hugeConfig.validate = .ok () ∧
    (planPredictions hugeConfig hugeSet hugeNative.val none none 0 false).keys =
      [⟨1, 0⟩, ⟨1, 1⟩] ∧
    (planPredictions hugeConfig hugeSet hugeNative.val none none 0 false).plannedStageBytes +
        (planPredictions hugeConfig hugeSet hugeNative.val none none 0 false).plannedPrefetchBytes ≠
      (keyPages hugeInventory.resources
        (planPredictions hugeConfig hugeSet hugeNative.val none none 0 false).keys).card := by
  have hkeys : (planPredictions hugeConfig hugeSet hugeNative.val none none 0 false).keys =
      [⟨1, 0⟩, ⟨1, 1⟩] := by decide +kernel
  refine ⟨rfl, hkeys, ?_⟩
  rw [hkeys, card_hugePages]
  decide +kernel

end PredictionPlanner
end Ramforge
