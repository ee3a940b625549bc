/-
What a set of predictions promises, and what its evaluation does.

A prediction names one resource, and no two predictions name the same one.  So a set is no
larger than the inventory, and no tensor is counted twice when it is evaluated.
-/
import Ramforge.Runtime.PredictionEvaluation

namespace Ramforge

open Std Rust Rust.Outcome

theorem BuiltInventory.length_le (inventory : BuiltInventory) :
    inventory.val.resources.length ≤ 2 ^ 31 := by
  obtain ⟨build, modelId, generation, mappings, h⟩ := inventory.property
  exact ResourceInventory.fromTensorMappings_length (Prod.ext h rfl)

namespace PredictionSet

variable {build : Build} {config : PredictionConfig} {profile : ExecutionProfile}
  {inventory : ResourceInventory} {history : Option PredictionHistory} {set : PredictionSet}

/-! ## What a set promises -/

/-- The entries of a profile that no single resource answers to. -/
def nameless (profile : ExecutionProfile) (inventory : ResourceInventory) :
    List (String × AccessPattern) :=
  profile.access.toList.filter fun entry =>
    (inventory.resources.filter fun r => r.name = entry.1).length ≠ 1

structure Predicted (config : PredictionConfig) (profile : ExecutionProfile)
    (inventory : ResourceInventory) (set : PredictionSet) : Prop where
  lookahead : set.predictions.length ≤ config.lookahead
  names : (set.predictions.map PredictedAccess.name).Nodup
  keys : (set.predictions.map PredictedAccess.key).Nodup
  resource : ∀ p ∈ set.predictions, p.name ∈ profile.access ∧ ∃ r ∈ inventory.resources,
    r.key = p.key ∧ inventory.resources.filter (fun r => r.name = p.name) = [r]
  sorted : set.predictions.Pairwise fun a b => b.confidenceBps ≤ a.confidenceBps
  /-- A disabled call says so once, and looks at no entry. -/
  disabled : config.enabled = false →
    set.predictions = [] ∧ rejectedTotal set.rejected = 1
  rejected : config.enabled = true →
    rejectedTotal set.rejected = (nameless profile inventory).length
  unlisted : config.enabled = true → ∀ entry ∈ profile.access.toList,
    entry.1 ∉ set.predictions.map PredictedAccess.name →
      entry ∈ nameless profile inventory ∨ set.predictions.length = config.lookahead

theorem unresolved_eq (profile : ExecutionProfile) (inventory : ResourceInventory) :
    unresolved inventory profile.access.toList = nameless profile inventory := by
  refine List.filter_congr fun entry _ => ?_
  cases hone : resolve inventory entry.1 with
  | some resource =>
    rw [resolve_eq_some.mp hone]
    rfl
  | none =>
    rw [Option.isNone_none, eq_comm, decide_eq_true_eq]
    intro hlength
    obtain ⟨resource, hresource⟩ := List.length_eq_one_iff.mp hlength
    rw [resolve_eq_some.mpr hresource] at hone
    cases hone

/-! ## A refused call -/

theorem refused_predicted {reason : String} (h : config.enabled = false) :
    Predicted config profile inventory (refused inventory reason) where
  lookahead := Nat.zero_le _
  names := List.nodup_nil
  keys := List.nodup_nil
  resource _ hp := absurd hp List.not_mem_nil
  sorted := .nil
  disabled _ := by
    refine ⟨rfl, ?_⟩
    show MapSum.sumOver (fun _ count => count) ((∅ : ExtTreeMap String Nat compare).insert reason 1) = 1
    rw [MapSum.sumOver_insert_of_none _ (by simp), MapSum.sumOver_empty]
  rejected henabled := by rw [h] at henabled; cases henabled
  unlisted henabled := by rw [h] at henabled; cases henabled

/-! ## A call that looks at the profile -/

section sorted

instance : TransCmp predictionOrder :=
  inferInstanceAs (TransCmp (compareLex (fun a b => compareOn PredictedAccess.confidenceBps b a)
    (compareLex (compareOn PredictedAccess.predictedOrder)
      (compareLex (fun a b => compareOn PredictedAccess.sizeBytes b a)
        (compareOn fun p : PredictedAccess => p.key.tensorIndex)))))

instance : Std.Total predictionLe := ⟨isLE_total predictionOrder⟩

instance : IsTrans PredictedAccess predictionLe := ⟨fun _ _ _ hab hbc => TransCmp.isLE_trans hab hbc⟩

theorem confidence_of_le {a b : PredictedAccess} (h : predictionLe a b) :
    b.confidenceBps ≤ a.confidenceBps := by
  by_contra hlt
  have hgt : compare b.confidenceBps a.confidenceBps = .gt := Nat.compare_eq_gt.mpr (Nat.not_le.mp hlt)
  rw [predictionLe, predictionOrder, hgt] at h
  cases h

end sorted

theorem map_name_drawn {used : Option PredictionHistory} {entries : List (String × AccessPattern)}
    {drawn : List PredictedAccess}
    (h : List.Forall₂ (Drawn build profile inventory used) entries drawn) :
    drawn.map PredictedAccess.name = entries.map Prod.fst := by
  induction h with
  | nil => rfl
  | cons hnew _ ih =>
    obtain ⟨resource, accuracy, -, -, rfl⟩ := hnew
    rw [List.map_cons, List.map_cons, ih]
    rfl

theorem name_of_filter {resources : List TensorResource} {name : String} {r : TensorResource}
    (h : resources.filter (fun r => r.name = name) = [r]) : r.name = name := by
  have hmem : r ∈ resources.filter fun r => r.name = name := h ▸ List.mem_singleton_self r
  exact of_decide_eq_true (List.mem_filter.mp hmem).2

/-- The draft behind a set. -/
structure DraftOf (build : Build) (config : PredictionConfig) (profile : ExecutionProfile)
    (inventory : ResourceInventory) (history : Option PredictionHistory) (set : PredictionSet)
    (drawn : List PredictedAccess) : Prop where
  predictions : set.predictions = (drawn.insertionSort predictionLe).take config.lookahead
  entries : List.Forall₂ (Drawn build profile inventory (usedHistory inventory history))
    (resolved inventory profile.access.toList) drawn
  rejected : rejectedTotal set.rejected = (nameless profile inventory).length

theorem draftOf (henabled : config.enabled = true)
    (hvalid : profile.isValidFor inventory.modelId inventory.generation = true)
    (h : predictFromProfile build config (some profile) inventory history = .ok set) :
    ∃ drawn, DraftOf build config profile inventory history set drawn := by
  rw [predictFromProfile_of_valid henabled hvalid] at h
  obtain ⟨draft, hdraft, h⟩ := of_bind_ok h
  obtain ⟨drawn, hpredictions, hdrawn, hrejected⟩ := foldlM_predictAccess_ok hdraft
  cases h
  refine ⟨drawn, ?_, hdrawn, ?_⟩
  · show (draft.predictions.insertionSort predictionLe).take config.lookahead = _
    rw [hpredictions, List.nil_append]
  · show rejectedTotal draft.rejected = _
    rw [hrejected, unresolved_eq, rejectedTotal, MapSum.sumOver_empty, Nat.zero_add]

theorem predicted_of_draft {drawn : List PredictedAccess} (hkeyed : inventory.Keyed)
    (henabled : config.enabled = true)
    (h : DraftOf build config profile inventory history set drawn) :
    Predicted config profile inventory set := by
  have hsub : set.predictions.Sublist (drawn.insertionSort predictionLe) :=
    h.predictions ▸ List.take_sublist _ _
  have hmem : ∀ p ∈ set.predictions, p ∈ drawn :=
    fun p hp => (List.mem_insertionSort _).mp (hsub.subset hp)
  have hentries : (profile.access.toList.map Prod.fst).Nodup := by
    rw [ExtTreeMap.map_fst_toList_eq_keys]
    exact ExtTreeMap.nodup_keys
  have hdrawnNames : (drawn.map PredictedAccess.name).Nodup := by
    rw [map_name_drawn h.entries]
    exact hentries.sublist (List.filter_sublist.map _)
  have hnames : (set.predictions.map PredictedAccess.name).Nodup := by
    have hsorted := ((List.perm_insertionSort predictionLe drawn).map
      PredictedAccess.name).nodup_iff.mpr hdrawnNames
    exact hsorted.sublist (hsub.map _)
  have hdrawn : ∀ p ∈ drawn, p.name ∈ profile.access ∧ ∃ r ∈ inventory.resources,
      r.key = p.key ∧ inventory.resources.filter (fun r => r.name = p.name) = [r] := by
    intro p hp
    obtain ⟨entry, hentry, resource, accuracy, hresolve, -, rfl⟩ := exists_entry h.entries hp
    have hone := resolve_eq_some.mp hresolve
    have hin : resource ∈ inventory.resources :=
      List.mem_of_mem_filter (hone ▸ List.mem_singleton_self resource)
    have haccess : profile.access[entry.1]? = some entry.2 :=
      ExtTreeMap.mem_toList_iff_getElem?_eq_some.mp (List.mem_of_mem_filter hentry)
    have hkey : entry.1 ∈ profile.access :=
      ExtTreeMap.mem_iff_isSome_getElem?.mpr (haccess ▸ rfl)
    exact ⟨hkey, resource, hin, rfl, hone⟩
  refine
    { lookahead := ?_
      names := hnames
      keys := ?_
      resource := fun p hp => hdrawn p (hmem p hp)
      sorted := ?_
      disabled := fun hdisabled => (by rw [hdisabled] at henabled; cases henabled)
      rejected := fun _ => h.rejected
      unlisted := fun _ entry hentry hunlisted => ?_ }
  · rw [h.predictions, List.length_take]
    exact Nat.min_le_left _ _
  · refine List.Nodup.map_on (fun p hp q hq hkey => ?_) (List.Nodup.of_map _ hnames)
    obtain ⟨-, r, hr, hrkey, hrname⟩ := hdrawn p (hmem p hp)
    obtain ⟨-, r', hr', hrkey', hrname'⟩ := hdrawn q (hmem q hq)
    have hsame : r = r' := hkeyed.key_inj hr hr' (by rw [hrkey, hrkey', hkey])
    refine List.inj_on_of_nodup_map hnames hp hq ?_
    rw [← name_of_filter hrname, ← name_of_filter hrname', hsame]
  · exact ((List.pairwise_insertionSort predictionLe drawn).sublist hsub).imp confidence_of_le
  · by_contra hneither
    rw [not_or] at hneither
    have hresolved : entry ∈ resolved inventory profile.access.toList := by
      have hnot := hneither.1
      rw [← unresolved_eq, unresolved, List.mem_filter, not_and] at hnot
      refine List.mem_filter.mpr ⟨hentry, ?_⟩
      rw [← Option.not_isNone, Bool.not_eq_true', ← Bool.not_eq_true]
      exact hnot hentry
    have hlength : (drawn.insertionSort predictionLe).length ≤ config.lookahead := by
      have hne := hneither.2
      rw [h.predictions, List.length_take] at hne
      omega
    have hall : set.predictions = drawn.insertionSort predictionLe := by
      rw [h.predictions, List.take_of_length_le hlength]
    have hname : entry.1 ∈ drawn.map PredictedAccess.name := by
      rw [map_name_drawn h.entries]
      exact List.mem_map_of_mem hresolved
    refine hunlisted ?_
    rw [hall]
    exact ((List.perm_insertionSort predictionLe drawn).map _).mem_iff.mpr hname

theorem predictFromProfile_predicted (hkeyed : inventory.Keyed)
    (hvalid : profile.isValidFor inventory.modelId inventory.generation = true)
    (h : predictFromProfile build config (some profile) inventory history = .ok set) :
    Predicted config profile inventory set := by
  cases henabled : config.enabled with
  | false =>
    rw [predictFromProfile, henabled] at h
    cases h
    exact refused_predicted henabled
  | true =>
    obtain ⟨drawn, hdraft⟩ := draftOf henabled hvalid h
    exact predicted_of_draft hkeyed henabled hdraft

theorem Predicted.length_le (h : Predicted config profile inventory set) :
    set.predictions.length ≤ inventory.resources.length := by
  have hsub : set.predictions.map PredictedAccess.key ⊆
      inventory.resources.map TensorResource.key := by
    intro key hkey
    obtain ⟨p, hp, rfl⟩ := List.mem_map.mp hkey
    obtain ⟨-, r, hr, hrkey, -⟩ := h.resource p hp
    exact hrkey ▸ List.mem_map_of_mem hr
  have hle := h.keys.length_le_of_subset hsub
  rwa [List.length_map, List.length_map] at hle

end PredictionSet

namespace PredictionEvaluation

open PredictionSet (Predicted)

/-! ## What an evaluation promises -/

structure Evaluated (predictions : PredictionSet) (horizon : Nat) (metrics : PredictionMetrics) :
    Prop where
  generated : metrics.predictionsGenerated = predictions.predictions.length
  matched : metrics.matchedObserved ≤
    min metrics.predictionsGenerated metrics.observedDistinct
  within : metrics.matchedWithinHorizon ≤ min metrics.matchedObserved horizon
  missed : metrics.matchedObserved + metrics.missedObserved = metrics.predictionsGenerated
  rates : 0 < metrics.predictionsGenerated → ∃ precision falsePositive,
    metrics.precisionBps = some precision ∧ metrics.falsePositiveRateBps = some falsePositive ∧
      (precision + falsePositive = 9999 ∨ precision + falsePositive = 10000)
  recalled : ∀ bps, metrics.recallBps = some bps → bps ≤ 10000
  bucketPredictions : metrics.bucketHigh.predictions + metrics.bucketMedium.predictions +
    metrics.bucketLow.predictions = metrics.predictionsGenerated
  bucketHits : metrics.bucketHigh.hits + metrics.bucketMedium.hits + metrics.bucketLow.hits =
    metrics.matchedObserved
  bucketWithin : metrics.bucketHigh.withinHorizon + metrics.bucketMedium.withinHorizon +
    metrics.bucketLow.withinHorizon = metrics.matchedWithinHorizon

variable {predictions : PredictionSet} {horizon : Nat}

/-- Predictions with distinct names are matched with distinct names. -/
theorem countP_le_of_names (p : PredictedAccess → Bool) (names : List String)
    {ps : List PredictedAccess} (hnodup : (ps.map PredictedAccess.name).Nodup)
    (h : ∀ a ∈ ps, p a = true → a.name ∈ names) : ps.countP p ≤ names.length := by
  have hsub : (ps.filter p).map PredictedAccess.name ⊆ names := by
    intro name hname
    obtain ⟨a, ha, rfl⟩ := List.mem_map.mp hname
    exact h a (List.mem_of_mem_filter ha) (List.of_mem_filter ha)
  have hle := (hnodup.sublist (List.filter_sublist.map _)).length_le_of_subset hsub
  rwa [List.length_map, ← List.countP_eq_length_filter] at hle

/-- Ranks under the horizon are places among the first observed names. -/
theorem countP_within_le (observed : ExecutionProfile) (inventory : ResourceInventory)
    (horizon : Nat) {ps : List PredictedAccess} (hnames : (ps.map PredictedAccess.name).Nodup) :
    ps.countP (within (observedRank observed inventory) horizon) ≤ horizon := by
  have hle := countP_le_of_names (within (observedRank observed inventory) horizon)
    ((observedNames observed inventory).take horizon) hnames fun a _ ha => ?_
  · exact Nat.le_trans hle (List.length_take_le _ _)
  · rw [within, Option.any_eq_true] at ha
    obtain ⟨rank, hrank, hlt⟩ := ha
    exact List.mem_of_getElem? ((List.getElem?_take_of_lt (of_decide_eq_true hlt)).trans
      (observedRank_get hrank))

theorem countP_within_le_hit (observed : ExecutionProfile) (inventory : ResourceInventory)
    (horizon : Nat) (ps : List PredictedAccess) :
    ps.countP (within (observedRank observed inventory) horizon) ≤
      ps.countP (hit (observedNames observed inventory)) := by
  refine List.countP_mono_left fun a _ ha => ?_
  rw [within, Option.any_eq_true] at ha
  obtain ⟨rank, hrank, -⟩ := ha
  exact List.contains_iff_mem.mpr (List.mem_of_getElem? (observedRank_get hrank))

theorem counted_evaluated (observed : ExecutionProfile) (inventory : ResourceInventory)
    (plan : PredictionPlan) (horizon : Nat)
    (hnames : (predictions.predictions.map PredictedAccess.name).Nodup)
    (hlength : predictions.predictions.length ≤ 2 ^ 31) :
    Evaluated predictions horizon (counted predictions observed inventory plan horizon) := by
  have hdedup : (observedNames observed inventory).dedup = observedNames observed inventory :=
    nodup_observedNames.dedup
  have htally := foldl_countPrediction (observedNames observed inventory)
    (observedRank observed inventory) horizon predictions.predictions
  have hgenerated : predictions.predictions.countP (hit (observedNames observed inventory)) ≤
      predictions.predictions.length := List.countP_le_length
  have hobserved := countP_le_of_names (hit (observedNames observed inventory)) _ hnames
    fun a _ ha => List.contains_iff_mem.mp ha
  have hhit := countP_within_le_hit observed inventory horizon predictions.predictions
  have hwithin := countP_within_le observed inventory horizon hnames
  have hbuckets := countP_buckets (fun _ => true) predictions.predictions
  simp only [Bool.and_true, List.countP_true] at hbuckets
  have hfits : ∀ n, n ≤ predictions.predictions.length → n * 10000 < u64Bound := fun n hn =>
    Nat.lt_of_le_of_lt (Nat.mul_le_mul_right _ (Nat.le_trans hn hlength)) (by decide)
  rw [counted, htally, hdedup]
  refine
    { generated := rfl
      matched := Nat.le_min.mpr ⟨hgenerated, hobserved⟩
      within := Nat.le_min.mpr ⟨hhit, hwithin⟩
      missed := Nat.add_sub_of_le hgenerated
      rates := fun hpos => ?_
      recalled := fun bps hbps => ?_
      bucketPredictions := hbuckets
      bucketHits := countP_buckets _ _
      bucketWithin := countP_buckets _ _ }
  · have hmissed := Nat.sub_le predictions.predictions.length
      (predictions.predictions.countP (hit (observedNames observed inventory)))
    refine ⟨_, _, rate_eq hpos hgenerated (hfits _ hgenerated), rate_eq hpos hmissed (hfits _ hmissed),
      ?_⟩
    have hparts := parts_add (a := predictions.predictions.countP
      (hit (observedNames observed inventory))) (b := predictions.predictions.length -
        predictions.predictions.countP (hit (observedNames observed inventory)))
    rw [Nat.add_sub_of_le hgenerated] at hparts
    exact hparts hpos
  · have hvalue : rate (predictions.predictions.countP (hit (observedNames observed inventory)))
        (observedNames observed inventory).length = some bps := hbps
    by_cases hpos : 0 < (observedNames observed inventory).length
    · rw [rate_eq hpos hobserved (hfits _ hgenerated)] at hvalue
      cases hvalue
      exact share_le hobserved
    · rw [rate, if_neg hpos] at hvalue
      cases hvalue

theorem evaluatePredictions_evaluated (observed : ExecutionProfile) (inventory : ResourceInventory)
    (plan : PredictionPlan) (staging : Option StagingExecution) (horizon : Nat)
    (hnames : (predictions.predictions.map PredictedAccess.name).Nodup)
    (hlength : predictions.predictions.length ≤ 2 ^ 31) :
    Evaluated predictions horizon
      (evaluatePredictions predictions observed inventory plan staging horizon) := by
  have h := counted_evaluated observed inventory plan horizon hnames hlength
  cases staging with
  | none => exact h
  | some staging =>
    show Evaluated predictions horizon (withStaging _ plan staging _)
    rw [withStaging]
    split
    · exact ⟨h.1, h.2, h.3, h.4, h.5, h.6, h.7, h.8, h.9⟩
    · split
      · exact ⟨h.1, h.2, h.3, h.4, h.5, h.6, h.7, h.8, h.9⟩
      · exact ⟨h.1, h.2, h.3, h.4, h.5, h.6, h.7, h.8, h.9⟩

end PredictionEvaluation

namespace PredictionSet

open PredictionEvaluation (Evaluated evaluatePredictions evaluatePredictions_evaluated)

variable {build : Build} {config : PredictionConfig} {profile : ExecutionProfile}
  {inventory : ResourceInventory} {history : Option PredictionHistory}

/-! ## Predicting and evaluating -/

/-- The samples of a history can be added up. -/
def Addable (history : Option PredictionHistory) : Prop :=
  ∀ h, history = some h → h.hits + h.misses < u64Bound ∧
    ∀ (tensor : String) record, h.records[tensor]? = some record →
      record.hits + record.misses < u64Bound

theorem exists_accuracyOf {hits misses : Nat} (least : Nat)
    (h : build = .release ∨ hits + misses < u64Bound) :
    ∃ accuracy, PredictionHistory.accuracyOf build hits misses least = .ok accuracy := by
  have hadd : ∃ samples, build.add hits misses = some samples := by
    rcases h with rfl | hlt
    · rw [Build.add]
      split <;> exact ⟨_, rfl⟩
    · exact ⟨_, Build.add_of_lt hlt⟩
  obtain ⟨samples, hsamples⟩ := hadd
  rw [PredictionHistory.accuracyOf, hsamples, expect_some, ok_bind]
  exact ⟨_, rfl⟩

theorem exists_historyConfidence (h : build = .release ∨ Addable history) (name : String) :
    ∃ accuracy, historyConfidence build history name = .ok accuracy := by
  cases history with
  | none => exact ⟨none, rfl⟩
  | some history =>
    obtain ⟨global, hglobal⟩ : ∃ a, history.globalAccuracyBps build = .ok a :=
      exists_accuracyOf 10 (h.imp_right fun h => (h history rfl).1)
    obtain ⟨tensor, htensor⟩ : ∃ a, history.tensorAccuracyBps build name 3 = .ok a := by
      cases hrecord : history.records[name]? with
      | none => exact ⟨none, by rw [PredictionHistory.tensorAccuracyBps, hrecord]; rfl⟩
      | some record =>
        rw [PredictionHistory.tensorAccuracyBps_of_some hrecord]
        exact exists_accuracyOf _ (h.imp_right fun h => (h history rfl).2 name record hrecord)
    rw [historyConfidence, htensor, ok_bind]
    cases tensor with
    | none => exact ⟨global, hglobal⟩
    | some accuracy => exact ⟨some accuracy, rfl⟩

theorem exists_predictFromProfile (config : PredictionConfig) (profile : Option ExecutionProfile)
    (inventory : ResourceInventory) (h : build = .release ∨ Addable history) :
    ∃ set, predictFromProfile build config profile inventory history = .ok set := by
  rcases predictFromProfile_cases build config profile inventory history with
    ⟨reason, hrefused⟩ | ⟨profile, rfl, henabled, hvalid⟩
  · exact ⟨_, hrefused⟩
  have hused : build = .release ∨ Addable (usedHistory inventory history) :=
    h.imp_right fun h kept hkept => h kept (Option.filter_eq_some_iff.mp hkept).1
  obtain ⟨draft, hdraft⟩ := exists_foldlM_predictAccess profile inventory
    { predictions := [], rejected := ∅ } fun entry (_ : entry ∈ profile.access.toList) =>
      exists_historyConfidence hused entry.1
  rw [predictFromProfile_of_valid henabled hvalid, hdraft, ok_bind]
  exact ⟨_, rfl⟩

/-- A call comes back where the samples can be added up, and always in a release build; and
what it returns, and every evaluation of it, is consistent. -/
theorem predictions_consistent (build : Build) (config : PredictionConfig)
    (profile : ExecutionProfile) (inventory : BuiltInventory) (history : Option PredictionHistory)
    (hvalid : profile.isValidFor inventory.val.modelId inventory.val.generation = true) :
    (build = .release ∨ Addable history →
      ∃ set, predictFromProfile build config (some profile) inventory.val history = .ok set) ∧
    ∀ set, predictFromProfile build config (some profile) inventory.val history = .ok set →
      Predicted config profile inventory.val set ∧
        ∀ observed others plan staging horizon,
          Evaluated set horizon (evaluatePredictions set observed others plan staging horizon) := by
  refine ⟨exists_predictFromProfile config (some profile) inventory.val, fun set hset => ?_⟩
  have hpredicted := predictFromProfile_predicted inventory.keyed hvalid hset
  have hlength := Nat.le_trans hpredicted.length_le inventory.length_le
  exact ⟨hpredicted, fun observed others plan staging horizon =>
    evaluatePredictions_evaluated observed others plan staging horizon hpredicted.names hlength⟩

/-! ## A profile of two tensors -/

open PredictionPlanner (sampleConfig sampleInventory sampleMappings)

def sampleProfile : ExecutionProfile :=
  { ExecutionProfile.new ⟨"m"⟩ ⟨1⟩ with
    completeObservations := 2
    access := ((∅ : ExtTreeMap String AccessPattern compare).insert "blk.0.a"
      { firstOrder := 0, lastOrder := 2, observedConsumers := 2 }).insert "blk.0.b"
        { firstOrder := 1, lastOrder := 1, observedConsumers := 1 } }

def sampleBuilt : BuiltInventory := ⟨sampleInventory, .debug, ⟨"m"⟩, ⟨1⟩, sampleMappings, rfl⟩

theorem predictions_consistent_sample : ∃ set,
    predictFromProfile .debug sampleConfig (some sampleProfile) sampleBuilt.val none = .ok set ∧
      Predicted sampleConfig sampleProfile sampleBuilt.val set ∧
      Evaluated set 1 (evaluatePredictions set sampleProfile sampleBuilt.val {} none 1) := by
  have h := predictions_consistent .debug sampleConfig sampleProfile sampleBuilt none (by decide)
  obtain ⟨set, hset⟩ := h.1 (.inr fun _ hnone => by cases hnone)
  exact ⟨set, hset, (h.2 set hset).1, (h.2 set hset).2 _ _ _ _ _⟩

/-- A call that is switched off lists neither tensor, rejects once and cuts nothing. -/
theorem disabled_uncounted : ∃ set,
    sampleProfile.isValidFor sampleBuilt.val.modelId sampleBuilt.val.generation = true ∧
      predictFromProfile .debug PredictionConfig.default (some sampleProfile) sampleBuilt.val none =
        .ok set ∧
      set.predictions.length < PredictionConfig.default.lookahead ∧
      set.predictions.length + rejectedTotal set.rejected < sampleProfile.access.size :=
  ⟨refused sampleBuilt.val "prediction disabled", by decide, rfl, by decide, by decide +kernel⟩

end PredictionSet
end Ramforge
