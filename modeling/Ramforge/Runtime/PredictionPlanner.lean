/-
The planner of predictive staging.

Each prediction is staged, prefetched, put off or refused in one pass.  The bytes staged
and the bytes prefetched are each held against a budget of their own.
-/
import Ramforge.Runtime.Prediction

namespace Ramforge

open Std Rust

inductive PredictiveAction where
  | keepResident
  | stageNow
  | prefetch
  | defer
  | avoidSpeculative
  | reject
  | releaseAtBoundary
deriving DecidableEq, Repr

inductive PredictiveReason where
  | highConfidenceImminent
  | mediumConfidenceSpeculative
  | insufficientConfidence
  | insufficientBudget
  | unknownSize
  | notFileBacked
  | predictionDisabled
  | admissionRejected
  | duplicateRequest
  | sharedPageDeduplicated
  | stagingDisabled
  | nativeLifetimeUnsafe
  | releaseNotAuthorized
deriving DecidableEq, Repr

structure PredictiveDecision where
  key : Option ResourceKey
  name : String
  action : PredictiveAction
  reason : PredictiveReason
  confidenceBps : Nat
  predictedOrder : Nat
  requestedBytes : Nat
  detail : String
deriving DecidableEq, Repr

structure PredictionPlan where
  decisions : List PredictiveDecision := []
  stageKeys : List ResourceKey := []
  prefetchKeys : List ResourceKey := []
  deferred : Nat := 0
  rejected : Nat := 0
  plannedStageBytes : Nat := 0
  plannedPrefetchBytes : Nat := 0
  stagedBytesByName : ExtTreeMap String Nat compare := ∅
  releaseAuthorized : Bool := false
  notes : List String := []

def PredictionPlan.requestedBytes (plan : PredictionPlan) : Nat :=
  saturatingAdd plan.plannedStageBytes plan.plannedPrefetchBytes

namespace PredictionPlanner

/-! ## Page ranges -/

def coveredBytes (ranges : List (Nat × Nat)) (start stop : Nat) : Nat :=
  if stop ≤ start then 0
  else
    ranges.foldl (fun covered range =>
      let first := max start range.1
      let last := min stop range.2
      if first < last then saturatingAdd covered (last - first) else covered) 0

/-- The loop of `insert_interval`, with the intervals merged so far. -/
def mergeInto (state : List (Nat × Nat) × (Nat × Nat)) (range : Nat × Nat) :
    List (Nat × Nat) × (Nat × Nat) :=
  let (merged, pending) := state
  if range.2 < pending.1 then (merged ++ [range], pending)
  else if pending.2 < range.1 then (merged ++ [pending], range)
  else (merged, (min pending.1 range.1, max pending.2 range.2))

def insertInterval (ranges : List (Nat × Nat)) (start stop : Nat) : List (Nat × Nat) :=
  if stop ≤ start then ranges
  else
    let (merged, pending) := ranges.foldl mergeInto ([], (start, stop))
    merged ++ [pending]

abbrev Ranges := ExtTreeMap Nat (List (Nat × Nat)) compare

def uniquePageBytes (ranges : Ranges) (resource : TensorResource) : Nat :=
  match resource.mappingIndex with
  | none => 0
  | some mapping =>
    let overlap := (ranges[mapping]?.map fun ranges =>
      coveredBytes ranges resource.pageStart resource.pageEnd).getD 0
    saturatingSub resource.pageBytes overlap

def insertResourceRange (ranges : Ranges) (resource : TensorResource) : Ranges :=
  match resource.mappingIndex with
  | none => ranges
  | some mapping =>
    ranges.insert mapping
      (insertInterval (ranges[mapping]?.getD []) resource.pageStart resource.pageEnd)

/-! ## The pass -/

def decision (prediction : PredictedAccess) (action : PredictiveAction) (reason : PredictiveReason)
    (detail : String) : PredictiveDecision where
  key := some prediction.key
  name := prediction.name
  action := action
  reason := reason
  confidenceBps := prediction.confidenceBps
  predictedOrder := prediction.predictedOrder
  requestedBytes := prediction.sizeBytes
  detail := detail

/-- The locals of the loop. -/
structure Pass where
  plan : PredictionPlan
  stageBytes : Nat
  prefetchBytes : Nat
  seen : ExtTreeSet ResourceKey compare
  ranges : Ranges

namespace Pass

def start (plan : PredictionPlan) : Pass where
  plan := plan
  stageBytes := 0
  prefetchBytes := 0
  seen := ∅
  ranges := ∅

/-- Push a decision and count it as rejected. -/
def reject (pass : Pass) (d : PredictiveDecision) : Pass :=
  { pass with
    plan :=
      { pass.plan with
        decisions := pass.plan.decisions ++ [d]
        rejected := pass.plan.rejected + 1 } }

/-- Push a decision and count it as deferred. -/
def defer (pass : Pass) (d : PredictiveDecision) : Pass :=
  { pass with
    plan :=
      { pass.plan with
        decisions := pass.plan.decisions ++ [d]
        deferred := pass.plan.deferred + 1 } }

def stage (pass : Pass) (prediction : PredictedAccess) (resource : TensorResource) (unique : Nat) :
    Pass :=
  { pass with
    ranges := insertResourceRange pass.ranges resource
    stageBytes := saturatingAdd pass.stageBytes unique
    plan :=
      { pass.plan with
        stageKeys := pass.plan.stageKeys ++ [prediction.key]
        stagedBytesByName := pass.plan.stagedBytesByName.insert prediction.name unique
        decisions := pass.plan.decisions ++
          [decision prediction .stageNow .highConfidenceImminent
            s!"high-confidence prediction; unique page bytes {unique}"] } }

def prefetch (pass : Pass) (prediction : PredictedAccess) (resource : TensorResource)
    (unique : Nat) : Pass :=
  { pass with
    ranges := insertResourceRange pass.ranges resource
    prefetchBytes := saturatingAdd pass.prefetchBytes unique
    plan :=
      { pass.plan with
        prefetchKeys := pass.plan.prefetchKeys ++ [prediction.key]
        stagedBytesByName := pass.plan.stagedBytesByName.insert prediction.name unique
        decisions := pass.plan.decisions ++
          [decision prediction .prefetch .mediumConfidenceSpeculative
            s!"medium-confidence opportunistic prefetch; unique page bytes {unique}"] } }

end Pass

/-- The two budgets of a call. -/
structure Budgets where
  stage : Nat
  speculative : Nat

def budgets (config : PredictionConfig) (currentBytes hardLimitBytes : Option Nat)
    (safetyReserveBytes : Nat) : Budgets :=
  let hardAvailable :=
    match hardLimitBytes, currentBytes with
    | some hard, some current => saturatingSub (saturatingSub hard current) safetyReserveBytes
    | _, _ => config.stagingWindowBytes
  let stageBudget := min config.stagingWindowBytes hardAvailable
  { stage := stageBudget
    speculative := min config.speculativeBudgetBytes stageBudget }

def stageCandidate (budgets : Budgets) (pass : Pass) (prediction : PredictedAccess) (unique : Nat) :
    Bool :=
  prediction.confidence = .high ∧ saturatingAdd pass.stageBytes unique ≤ budgets.stage

def prefetchCandidate (budgets : Budgets) (pass : Pass) (prediction : PredictedAccess)
    (unique : Nat) : Bool :=
  prediction.confidence = .medium ∧ saturatingAdd pass.prefetchBytes unique ≤ budgets.speculative

/-- The second half of a round: the prediction is new and confident enough. -/
def place (budgets : Budgets) (pass : Pass) (prediction : PredictedAccess)
    (resource : TensorResource) : Pass :=
  let unique := uniquePageBytes pass.ranges resource
  if unique = 0 then
    pass.defer (decision prediction .defer .sharedPageDeduplicated
      "page range is already covered by an earlier prediction")
  else if stageCandidate budgets pass prediction unique then pass.stage prediction resource unique
  else if prefetchCandidate budgets pass prediction unique then
    pass.prefetch prediction resource unique
  else if prediction.confidence = .high then
    pass.defer (decision prediction .defer .insufficientBudget
      "high-confidence request does not fit the bounded stage window")
  else if prediction.confidence = .low then
    pass.reject (decision prediction .avoidSpeculative .insufficientConfidence
      "low-confidence prediction was not staged")
  else
    pass.defer (decision prediction .defer .insufficientBudget "speculative window is exhausted")

def planRound (config : PredictionConfig) (inventory : ResourceInventory) (budgets : Budgets)
    (pass : Pass) (prediction : PredictedAccess) : Pass :=
  match inventory.get prediction.key with
  | none =>
    pass.reject (decision prediction .reject .notFileBacked
      "prediction is not in the current inventory")
  | some resource =>
    if !resource.fileBacked then
      pass.reject (decision prediction .reject .notFileBacked
        "resource is anonymous or has no file-backed mapping")
    else if !prediction.knownSize ∨ resource.pageBytes = 0 then
      pass.reject (decision prediction .reject .unknownSize "resource size is unknown")
    else if pass.seen.contains prediction.key then
      pass.defer (decision prediction .defer .duplicateRequest "duplicate resource prediction")
    else
      let pass := { pass with seen := pass.seen.insert prediction.key }
      if prediction.confidenceBps < config.minConfidenceBps then
        pass.reject (decision prediction .avoidSpeculative .insufficientConfidence
          s!"confidence {prediction.confidenceBps} below threshold {config.minConfidenceBps}")
      else place budgets pass prediction resource

/-- The plan before the first prediction. -/
def openingPlan : PredictionPlan where
  notes := ["predictions are advisory; release remains gated by the native lifetime contract"]

def planPredictions (config : PredictionConfig) (predictions : PredictionSet)
    (inventory : ResourceInventory) (currentBytes hardLimitBytes : Option Nat)
    (safetyReserveBytes : Nat) (admissionRejected : Bool) : PredictionPlan :=
  if !config.enabled then
    { openingPlan with
      decisions := predictions.predictions.map fun prediction =>
        decision prediction .avoidSpeculative .predictionDisabled "prediction disabled" }
  else if admissionRejected then
    { openingPlan with
      decisions := predictions.predictions.map fun prediction =>
        decision prediction .reject .admissionRejected "admission rejected the operation"
      rejected := predictions.predictions.length }
  else
    let pass := predictions.predictions.foldl
      (planRound config inventory (budgets config currentBytes hardLimitBytes safetyReserveBytes))
      (Pass.start openingPlan)
    { pass.plan with
      plannedStageBytes := pass.stageBytes
      plannedPrefetchBytes := pass.prefetchBytes
      releaseAuthorized := false
      notes := pass.plan.notes ++
        ["release decisions are intentionally not derived from prediction confidence"] }

/-! ## The bytes of a round -/

/-- The resource that a round gets to place, with what the pass has seen before it. -/
def placed (config : PredictionConfig) (inventory : ResourceInventory) (pass : Pass)
    (prediction : PredictedAccess) : Option TensorResource :=
  (inventory.get prediction.key).filter fun resource =>
    resource.fileBacked ∧ prediction.knownSize ∧ resource.pageBytes ≠ 0 ∧
      prediction.key ∉ pass.seen ∧ config.minConfidenceBps ≤ prediction.confidenceBps

/-- What is taken still fits the one cap, with what both kinds have taken before. -/
def Fits (config : PredictionConfig) (inventory : ResourceInventory) (budgets : Budgets)
    (pass : Pass) (prediction : PredictedAccess) : Prop :=
  ∀ resource, placed config inventory pass prediction = some resource →
    uniquePageBytes pass.ranges resource ≠ 0 →
    (stageCandidate budgets pass prediction (uniquePageBytes pass.ranges resource) = true →
      saturatingAdd pass.stageBytes (uniquePageBytes pass.ranges resource) + pass.prefetchBytes ≤
        budgets.stage) ∧
    (prefetchCandidate budgets pass prediction (uniquePageBytes pass.ranges resource) = true →
      pass.stageBytes + saturatingAdd pass.prefetchBytes (uniquePageBytes pass.ranges resource) ≤
        budgets.stage)

def Pass.total (pass : Pass) : Nat := pass.stageBytes + pass.prefetchBytes

variable {config : PredictionConfig} {inventory : ResourceInventory} {b : Budgets}
  {pass pass' : Pass} {prediction : PredictedAccess} {resource : TensorResource}

/-- How a round changes the bytes: not at all, or by what one kind takes. -/
inductive Took (b : Budgets) (pass : Pass) (prediction : PredictedAccess)
    (resource : Option TensorResource) (pass' : Pass) : Prop where
  | nothing (stage : pass'.stageBytes = pass.stageBytes)
      (prefetch : pass'.prefetchBytes = pass.prefetchBytes)
      (refused : ∀ r, resource = some r → uniquePageBytes pass.ranges r ≠ 0 →
        stageCandidate b pass prediction (uniquePageBytes pass.ranges r) = false ∧
          prefetchCandidate b pass prediction (uniquePageBytes pass.ranges r) = false)
  | staged (r : TensorResource) (placed : resource = some r)
      (unique : uniquePageBytes pass.ranges r ≠ 0)
      (candidate : stageCandidate b pass prediction (uniquePageBytes pass.ranges r) = true)
      (stage : pass'.stageBytes = saturatingAdd pass.stageBytes (uniquePageBytes pass.ranges r))
      (prefetch : pass'.prefetchBytes = pass.prefetchBytes)
  | prefetched (r : TensorResource) (placed : resource = some r)
      (unique : uniquePageBytes pass.ranges r ≠ 0)
      (candidate : prefetchCandidate b pass prediction (uniquePageBytes pass.ranges r) = true)
      (stage : pass'.stageBytes = pass.stageBytes)
      (prefetch :
        pass'.prefetchBytes = saturatingAdd pass.prefetchBytes (uniquePageBytes pass.ranges r))

theorem place_took : Took b pass prediction (some resource) (place b pass prediction resource) := by
  rw [place]
  by_cases hunique : uniquePageBytes pass.ranges resource = 0
  · simp only [hunique, if_true]
    exact .nothing rfl rfl fun r hr hne => absurd hunique (by cases hr; exact hne)
  · simp only [if_neg hunique]
    cases hstage : stageCandidate b pass prediction (uniquePageBytes pass.ranges resource) with
    | true => exact .staged resource rfl hunique hstage rfl rfl
    | false =>
      cases hprefetch :
          prefetchCandidate b pass prediction (uniquePageBytes pass.ranges resource) with
      | true => exact .prefetched resource rfl hunique hprefetch rfl rfl
      | false =>
        have hrefused : ∀ r, some resource = some r → uniquePageBytes pass.ranges r ≠ 0 →
            stageCandidate b pass prediction (uniquePageBytes pass.ranges r) = false ∧
              prefetchCandidate b pass prediction (uniquePageBytes pass.ranges r) = false := by
          intro r hr _
          cases hr
          exact ⟨hstage, hprefetch⟩
        simp only [Bool.false_eq_true, if_false]
        split
        · exact .nothing rfl rfl hrefused
        · split
          · exact .nothing rfl rfl hrefused
          · exact .nothing rfl rfl hrefused

/-- The bytes of a round do not depend on the keys seen. -/
theorem Took.of_seen {seen : ExtTreeSet ResourceKey compare} {found : Option TensorResource}
    (h : Took b { pass with seen := seen } prediction found pass') :
    Took b pass prediction found pass' := by
  cases h with
  | nothing stage prefetch refused => exact .nothing stage prefetch refused
  | staged r hfound hunique candidate stage prefetch =>
    exact .staged r hfound hunique candidate stage prefetch
  | prefetched r hfound hunique candidate stage prefetch =>
    exact .prefetched r hfound hunique candidate stage prefetch

theorem planRound_took : Took b pass prediction (placed config inventory pass prediction)
    (planRound config inventory b pass prediction) := by
  have hnothing : ∀ {pass' : Pass}, placed config inventory pass prediction = none →
      pass'.stageBytes = pass.stageBytes → pass'.prefetchBytes = pass.prefetchBytes →
      Took b pass prediction (placed config inventory pass prediction) pass' := by
    intro pass' hnone hstage hprefetch
    refine .nothing hstage hprefetch fun r hr => ?_
    rw [hnone] at hr
    cases hr
  rw [planRound]
  cases hget : inventory.get prediction.key with
  | none => exact hnothing (by rw [placed, hget, Option.filter_none]) rfl rfl
  | some resource =>
    have hplaced : placed config inventory pass prediction =
        if resource.fileBacked ∧ prediction.knownSize ∧ resource.pageBytes ≠ 0 ∧
          prediction.key ∉ pass.seen ∧ config.minConfidenceBps ≤ prediction.confidenceBps
        then some resource else none := by
      rw [placed, hget, Option.filter_some]
      simp only [decide_eq_true_eq]
    simp only
    split
    next h => exact hnothing (by rw [hplaced, if_neg (by simp_all)]) rfl rfl
    next hfile =>
      split
      next h => exact hnothing (by rw [hplaced, if_neg (by rcases h with h | h <;> simp_all)]) rfl rfl
      next hknown =>
        split
        next h =>
          rw [ExtTreeSet.contains_iff_mem] at h
          exact hnothing (by rw [hplaced, if_neg fun hall => hall.2.2.2.1 h]) rfl rfl
        next hseen =>
          rw [ExtTreeSet.contains_iff_mem] at hseen
          split
          next h =>
            exact hnothing (by rw [hplaced, if_neg fun hall => absurd h (Nat.not_lt.mpr hall.2.2.2.2)])
              rfl rfl
          next hconfident =>
            simp only [not_or, Bool.not_eq_true', Bool.not_eq_false] at hfile hknown
            rw [hplaced, if_pos ⟨hfile, hknown.1, hknown.2, hseen, Nat.not_lt.mp hconfident⟩]
            exact place_took.of_seen

/-- The counters of a pass are machine integers. -/
structure Pass.Bounded (pass : Pass) : Prop where
  stage : pass.stageBytes < u64Bound
  prefetch : pass.prefetchBytes < u64Bound

theorem le_saturatingAdd {n k : Nat} (h : n < u64Bound) : n ≤ saturatingAdd n k := by
  simp only [saturatingAdd]
  omega

theorem Took.bounded {found : Option TensorResource} (h : Took b pass prediction found pass')
    (hbound : pass.Bounded) : pass'.Bounded := by
  cases h with
  | nothing stage prefetch _ => exact ⟨stage ▸ hbound.stage, prefetch ▸ hbound.prefetch⟩
  | staged r _ _ _ stage prefetch =>
    exact ⟨stage ▸ saturatingAdd_lt _ _, prefetch ▸ hbound.prefetch⟩
  | prefetched r _ _ _ stage prefetch =>
    exact ⟨stage ▸ hbound.stage, prefetch ▸ saturatingAdd_lt _ _⟩

theorem Took.total_le {found : Option TensorResource} (h : Took b pass prediction found pass')
    (hbound : pass.Bounded) : pass.total ≤ pass'.total := by
  rw [Pass.total, Pass.total]
  cases h with
  | nothing stage prefetch _ => rw [stage, prefetch]
  | staged r _ _ _ stage prefetch =>
    rw [stage, prefetch]
    exact Nat.add_le_add_right (le_saturatingAdd hbound.stage) _
  | prefetched r _ _ _ stage prefetch =>
    rw [stage, prefetch]
    exact Nat.add_le_add_left (le_saturatingAdd hbound.prefetch) _

/-- A round stays under the cap exactly where it fits, if the rounds before it did. -/
theorem Took.fits_iff (h : Took b pass prediction (placed config inventory pass prediction) pass')
    (hbefore : pass.total ≤ b.stage) :
    pass'.total ≤ b.stage ↔ Fits config inventory b pass prediction := by
  rw [Pass.total] at hbefore
  rw [Pass.total]
  cases h with
  | nothing stage prefetch refused =>
    rw [stage, prefetch]
    refine ⟨fun _ r hr hunique => ?_, fun _ => hbefore⟩
    obtain ⟨hstage, hprefetch⟩ := refused r hr hunique
    exact ⟨fun h => Bool.noConfusion (hstage.symm.trans h),
      fun h => Bool.noConfusion (hprefetch.symm.trans h)⟩
  | staged r hplaced hunique candidate stage prefetch =>
    rw [stage, prefetch]
    refine ⟨fun hle r' hr' _ => ?_, fun hfits => (hfits r hplaced hunique).1 candidate⟩
    rw [hplaced] at hr'
    cases hr'
    refine ⟨fun _ => hle, fun hmedium => ?_⟩
    simp only [stageCandidate, prefetchCandidate, decide_eq_true_eq] at candidate hmedium
    exact absurd (candidate.1.symm.trans hmedium.1) (by decide)
  | prefetched r hplaced hunique candidate stage prefetch =>
    rw [stage, prefetch]
    refine ⟨fun hle r' hr' _ => ?_, fun hfits => (hfits r hplaced hunique).2 candidate⟩
    rw [hplaced] at hr'
    cases hr'
    refine ⟨fun hhigh => ?_, fun _ => hle⟩
    simp only [stageCandidate, prefetchCandidate, decide_eq_true_eq] at candidate hhigh
    exact absurd (hhigh.1.symm.trans candidate.1) (by decide)

/-! ## The whole pass -/

variable {predictions : List PredictedAccess}

theorem foldl_bounded (hbound : pass.Bounded) :
    (predictions.foldl (planRound config inventory b) pass).Bounded := by
  induction predictions generalizing pass with
  | nil => exact hbound
  | cons prediction rest ih => exact ih (planRound_took.bounded hbound)

/-- Every prediction fits, at the state the loop has reached when it comes to it. -/
def AllFit (config : PredictionConfig) (inventory : ResourceInventory) (b : Budgets) (pass : Pass)
    (predictions : List PredictedAccess) : Prop :=
  ∀ before prediction after, predictions = before ++ prediction :: after →
    Fits config inventory b (before.foldl (planRound config inventory b) pass) prediction

/-- The induction is on the predictions before: while they fit, the total is under the
cap. -/
theorem foldl_le_iff (hbound : pass.Bounded) (hstart : pass.total ≤ b.stage) :
    (predictions.foldl (planRound config inventory b) pass).total ≤ b.stage ↔
      AllFit config inventory b pass predictions := by
  induction predictions using List.reverseRecOn with
  | nil =>
    refine ⟨fun _ before prediction after h => ?_, fun _ => hstart⟩
    cases before <;> cases h
  | append_singleton predictions last ih =>
    have hlast : Took b (predictions.foldl (planRound config inventory b) pass) last
        (placed config inventory (predictions.foldl (planRound config inventory b) pass) last)
        (planRound config inventory b (predictions.foldl (planRound config inventory b) pass) last) :=
      planRound_took
    have hreached : (predictions.foldl (planRound config inventory b) pass).Bounded :=
      foldl_bounded hbound
    rw [List.foldl_concat]
    constructor
    · intro hle before prediction after hsplit
      have hbefore := Nat.le_trans (hlast.total_le hreached) hle
      rcases List.eq_nil_or_concat after with rfl | ⟨after, x, rfl⟩
      · obtain ⟨rfl, hsame⟩ := List.append_inj' hsplit rfl
        cases hsame
        exact (hlast.fits_iff hbefore).mp hle
      · rw [List.concat_eq_append, ← List.cons_append, ← List.append_assoc] at hsplit
        exact ih.mp hbefore before prediction after (List.append_inj' hsplit rfl).1
    · intro hfit
      have hbefore : (predictions.foldl (planRound config inventory b) pass).total ≤ b.stage := by
        refine ih.mpr fun before prediction after hsplit => ?_
        refine hfit before prediction (after ++ [last]) ?_
        rw [hsplit, List.append_assoc, List.cons_append]
      exact (hlast.fits_iff hbefore).mpr (hfit predictions last [] rfl)

/-! ## The cap -/

variable {currentBytes hardLimitBytes : Option Nat} {safetyReserveBytes : Nat}

/-- What a plan takes stays within the hard limit, where there is one, and the window. -/
def WithinLimits (config : PredictionConfig) (currentBytes hardLimitBytes : Option Nat)
    (safetyReserveBytes : Nat) (plan : PredictionPlan) : Prop :=
  (∀ current hard, currentBytes = some current → hardLimitBytes = some hard →
    current + safetyReserveBytes + plan.plannedStageBytes + plan.plannedPrefetchBytes ≤ hard) ∧
  plan.plannedStageBytes + plan.plannedPrefetchBytes ≤ config.stagingWindowBytes

theorem withinLimits_iff {plan : PredictionPlan}
    (hroom : ∀ current hard, currentBytes = some current → hardLimitBytes = some hard →
      current + safetyReserveBytes ≤ hard) :
    WithinLimits config currentBytes hardLimitBytes safetyReserveBytes plan ↔
      plan.plannedStageBytes + plan.plannedPrefetchBytes ≤
        (budgets config currentBytes hardLimitBytes safetyReserveBytes).stage := by
  cases currentBytes with
  | none =>
    simp only [WithinLimits, budgets, Nat.min_self, reduceCtorEq, false_implies, implies_true,
      true_and]
  | some current =>
    cases hardLimitBytes with
    | none =>
      simp only [WithinLimits, budgets, Nat.min_self, reduceCtorEq, false_implies, implies_true,
        true_and]
    | some hard =>
      have hle := hroom current hard rfl rfl
      have hlimit : (∀ c h, some current = some c → some hard = some h →
          c + safetyReserveBytes + plan.plannedStageBytes + plan.plannedPrefetchBytes ≤ h) ↔
          current + safetyReserveBytes + plan.plannedStageBytes + plan.plannedPrefetchBytes ≤
            hard := by
        refine ⟨fun h => h current hard rfl rfl, fun h c h' hc hh => ?_⟩
        cases hc
        cases hh
        exact h
      rw [WithinLimits, hlimit]
      simp only [budgets, saturatingSub]
      omega

/-- Where staging is on and admitted, every prediction taken fits the one cap together with
what both kinds have taken before it. -/
def NeverOverdraws (config : PredictionConfig) (predictions : PredictionSet)
    (inventory : ResourceInventory) (currentBytes hardLimitBytes : Option Nat)
    (safetyReserveBytes : Nat) (admissionRejected : Bool) : Prop :=
  config.enabled = true → admissionRejected = false →
    AllFit config inventory (budgets config currentBytes hardLimitBytes safetyReserveBytes)
      (Pass.start openingPlan) predictions.predictions

/-- Two tensors on a page each. -/
def sampleMapping (name : String) (page : Nat) : TensorMappingInfo where
  name := name
  fileBacked := true
  mappingIndex := some 0
  mappingId := none
  mappingGeneration := none
  filePath := none
  fileSize := none
  mappingSize := 2 ^ 20
  offset := 4096 * page
  size := 4096
  pageSize := 4096
  pageStart := 4096 * page
  pageEnd := 4096 * page + 4096

def sampleMappings : List TensorMappingInfo :=
  [sampleMapping "blk.0.a" 0, sampleMapping "blk.0.b" 1]

def sampleResource (index : Nat) (name : String) : TensorResource :=
  { ResourceInventory.resourceOf ⟨1, index⟩ (sampleMapping name index) (4096 * index)
      (4096 * index + 4096) (.ok ()) .native with sharedPageBytes := 0 }

def sampleInventory : ResourceInventory where
  modelId := ⟨"m"⟩
  generation := ⟨1⟩
  nativeModelInstance := none
  nativeContractVersion := none
  resources := [sampleResource 0 "blk.0.a", sampleResource 1 "blk.0.b"]
  byIndex := ((∅ : ExtTreeMap Int Nat compare).insert 0 0).insert 1 1
  summary :=
    { tensors := 2, fileBackedTensors := 2, anonymousTensors := 0, unknownTensors := 0, mappings := 1,
      logicalFileBackedBytes := 8192, logicalAnonymousBytes := 0, pageBytes := 8192,
      sharedPageBytes := 0 }

def sampleConfig : PredictionConfig :=
  { PredictionConfig.default with
    enabled := true
    stagingWindowBytes := 4096
    speculativeBudgetBytes := 4096 }

def sampleAccess (index : Nat) (name : String) (confidence : PredictionConfidence) : PredictedAccess where
  key := ⟨1, index⟩
  name := name
  predictedOrder := index
  expectedDistance := index
  confidenceBps := 8000
  confidence := confidence
  sizeBytes := 4096
  knownSize := true
  reason := ""

/-- A high prediction and a medium one, each as large as the window. -/
def mixedSet : PredictionSet :=
  { PredictionSet.empty ⟨"m"⟩ ⟨1⟩ "" with
    predictions := [sampleAccess 0 "blk.0.a" .high, sampleAccess 1 "blk.0.b" .medium] }

def highSet : PredictionSet :=
  { PredictionSet.empty ⟨"m"⟩ ⟨1⟩ "" with predictions := [sampleAccess 0 "blk.0.a" .high] }

end PredictionPlanner
end Ramforge
