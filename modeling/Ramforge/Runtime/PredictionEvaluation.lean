/-
Predictions held against a later execution.

A hit is a prediction whose tensor was observed.  The rank of a tensor is its place among
the observed ones, by first use.
-/
import Ramforge.Rust.KeyMove
import Ramforge.Runtime.PredictionConfidence
import Ramforge.Runtime.PredictionPlanner

namespace Ramforge

open Std Rust Rust.Outcome

structure StagingExecution where
  attemptedKeys : List ResourceKey
  requestedBytes : Nat
  nativeAcceptedBytes : Nat
  elapsedNs : Nat
  operations : Nat
  configuredMaxInFlight : Nat
  error : Option String
  cancelled : Bool
  mappingBeforeBytes : Option Nat
  mappingAfterBytes : Option Nat
deriving DecidableEq, Repr

def StagingExecution.observedMappingDelta (staging : StagingExecution) : Option Int :=
  match staging.mappingBeforeBytes, staging.mappingAfterBytes with
  | some before, some after => some ((after : Int) - before)
  | _, _ => none

structure PredictionMetrics where
  horizon : Nat := 0
  predictionsGenerated : Nat := 0
  matchedObserved : Nat := 0
  matchedWithinHorizon : Nat := 0
  missedObserved : Nat := 0
  observedDistinct : Nat := 0
  precisionBps : Option Nat := none
  recallBps : Option Nat := none
  falsePositiveRateBps : Option Nat := none
  prefetchRequestedResources : Nat := 0
  prefetchRequestedBytes : Nat := 0
  prefetchAcceptedBytes : Nat := 0
  prefetchAcceptedResources : Option Nat := none
  prefetchFollowedByObservedAccess : Option Nat := none
  prefetchNotFollowedByObservedAccess : Option Nat := none
  prefetchBenefitUnknownResources : Option Nat := none
  duplicateOrOverlapAvoided : Nat := 0
  rejected : Nat := 0
  deferred : Nat := 0
  observedMappingDeltaBytes : Option Int := none
  bucketHigh : CalibrationCounters := {}
  bucketMedium : CalibrationCounters := {}
  bucketLow : CalibrationCounters := {}
deriving DecidableEq, Repr

namespace PredictionEvaluation

/-! ## What was observed -/

/-- By first use, then by name. -/
def useLe (a b : String × Nat) : Prop := a.2 < b.2 ∨ a.2 = b.2 ∧ (compare a.1 b.1).isLE = true

instance : DecidableRel useLe := fun a b =>
  inferInstanceAs (Decidable (a.2 < b.2 ∨ a.2 = b.2 ∧ (compare a.1 b.1).isLE = true))

def ordered (observed : ExecutionProfile) (inventory : ResourceInventory) : List (String × Nat) :=
  ((observed.access.toList.filter fun entry =>
      (inventory.resources.map TensorResource.name).contains entry.1).map fun entry =>
    (entry.1, entry.2.firstOrder)).insertionSort useLe

def observedNames (observed : ExecutionProfile) (inventory : ResourceInventory) : List String :=
  (ordered observed inventory).map Prod.fst

def observedRank (observed : ExecutionProfile) (inventory : ResourceInventory) :
    ExtTreeMap String Nat compare :=
  (Grouping.index (observedNames observed inventory)).1

/-! ## Counting -/

/-- The counters of the loop over the predictions. -/
structure Tally where
  matched : Nat := 0
  within : Nat := 0
  high : CalibrationCounters := {}
  medium : CalibrationCounters := {}
  low : CalibrationCounters := {}
deriving DecidableEq, Repr

def countIn (hit within : Bool) (bucket : CalibrationCounters) : CalibrationCounters where
  predictions := bucket.predictions + 1
  hits := bucket.hits + hit.toNat
  withinHorizon := bucket.withinHorizon + within.toNat

/-- One round of the loop. -/
def countPrediction (names : List String) (rank : ExtTreeMap String Nat compare) (horizon : Nat)
    (tally : Tally) (prediction : PredictedAccess) : Tally :=
  let hit := names.contains prediction.name
  let within := rank[prediction.name]?.any fun rank => rank < horizon
  let tally :=
    { tally with
      matched := tally.matched + hit.toNat
      within := tally.within + within.toNat }
  match prediction.confidence with
  | .high => { tally with high := countIn hit within tally.high }
  | .medium => { tally with medium := countIn hit within tally.medium }
  | .low => { tally with low := countIn hit within tally.low }

/-- A rate in basis points, where there is something to divide by. -/
def rate (part whole : Nat) : Option Nat :=
  if 0 < whole then some (basisPoints part whole) else none

def selectedNames (plan : PredictionPlan) : List String :=
  ((plan.decisions.filter fun decision =>
    decision.action = .stageNow ∨ decision.action = .prefetch).map PredictiveDecision.name).dedup

/-- What the staging adds to the metrics. -/
def withStaging (names : List String) (plan : PredictionPlan) (staging : StagingExecution)
    (metrics : PredictionMetrics) : PredictionMetrics :=
  let metrics :=
    { metrics with
      prefetchAcceptedBytes := staging.nativeAcceptedBytes
      observedMappingDeltaBytes := staging.observedMappingDelta }
  let requested := metrics.prefetchRequestedResources
  if staging.error.isSome ∨ requested = 0 then
    { metrics with
      prefetchAcceptedResources := some 0
      prefetchFollowedByObservedAccess := some 0
      prefetchNotFollowedByObservedAccess := some 0
      prefetchBenefitUnknownResources := some 0 }
  else if metrics.prefetchRequestedBytes ≤ staging.nativeAcceptedBytes then
    let followed := ((selectedNames plan).filter fun name => names.contains name).length
    { metrics with
      prefetchAcceptedResources := some requested
      prefetchFollowedByObservedAccess := some followed
      prefetchNotFollowedByObservedAccess := some (saturatingSub requested followed)
      prefetchBenefitUnknownResources := some requested }
  else
    { metrics with
      prefetchAcceptedResources := none
      prefetchFollowedByObservedAccess := none
      prefetchNotFollowedByObservedAccess := none
      prefetchBenefitUnknownResources := some requested }

/-- The metrics before the staging is looked at. -/
def counted (predictions : PredictionSet) (observed : ExecutionProfile)
    (inventory : ResourceInventory) (plan : PredictionPlan) (horizon : Nat) : PredictionMetrics :=
  let names := observedNames observed inventory
  let generated := predictions.predictions.length
  let tally := predictions.predictions.foldl
    (countPrediction names (observedRank observed inventory) horizon) {}
  let missed := saturatingSub generated tally.matched
  { horizon
    predictionsGenerated := generated
    matchedObserved := tally.matched
    matchedWithinHorizon := tally.within
    missedObserved := missed
    observedDistinct := names.dedup.length
    precisionBps := rate tally.matched generated
    recallBps := rate tally.matched names.dedup.length
    falsePositiveRateBps := rate missed generated
    prefetchRequestedResources := plan.stageKeys.length + plan.prefetchKeys.length
    prefetchRequestedBytes := plan.requestedBytes
    duplicateOrOverlapAvoided := (plan.decisions.filter fun decision =>
      decision.reason = .duplicateRequest ∨ decision.reason = .sharedPageDeduplicated).length
    rejected := plan.rejected
    deferred := plan.deferred
    bucketHigh := tally.high
    bucketMedium := tally.medium
    bucketLow := tally.low }

def evaluatePredictions (predictions : PredictionSet) (observed : ExecutionProfile)
    (inventory : ResourceInventory) (plan : PredictionPlan) (staging : Option StagingExecution)
    (horizon : Nat) : PredictionMetrics :=
  let metrics := counted predictions observed inventory plan horizon
  match staging with
  | none => metrics
  | some staging => withStaging (observedNames observed inventory) plan staging metrics

variable {predictions : PredictionSet} {observed : ExecutionProfile}
  {inventory : ResourceInventory} {plan : PredictionPlan} {staging : Option StagingExecution}
  {horizon : Nat}

/-! ## The observed names -/

theorem nodup_observedNames : (observedNames observed inventory).Nodup := by
  have hkeys : (observed.access.toList.map Prod.fst).Nodup := by
    rw [ExtTreeMap.map_fst_toList_eq_keys]
    exact ExtTreeMap.nodup_keys
  have hperm : (observedNames observed inventory).Perm
      ((observed.access.toList.filter fun entry =>
        (inventory.resources.map TensorResource.name).contains entry.1).map Prod.fst) := by
    rw [observedNames, ordered]
    refine ((List.perm_insertionSort _ _).map _).trans (List.Perm.of_eq ?_)
    rw [List.map_map]
    rfl
  exact hperm.nodup_iff.mpr (hkeys.sublist (List.filter_sublist.map _))

/-- The rank of a name is its place among the observed ones. -/
theorem observedRank_get {name : String} {rank : Nat}
    (h : (observedRank observed inventory)[name]? = some rank) :
    (observedNames observed inventory)[rank]? = some name := Grouping.index_get h

/-! ## One pass over the predictions -/

def hit (names : List String) (prediction : PredictedAccess) : Bool := names.contains prediction.name

def within (rank : ExtTreeMap String Nat compare) (horizon : Nat) (prediction : PredictedAccess) :
    Bool :=
  rank[prediction.name]?.any fun rank => rank < horizon

def ofConfidence (confidence : PredictionConfidence) (prediction : PredictedAccess) : Bool :=
  prediction.confidence = confidence

/-- The counters of one bucket. -/
def bucketOf (hit within : PredictedAccess → Bool) (confidence : PredictionConfidence)
    (predictions : List PredictedAccess) : CalibrationCounters where
  predictions := predictions.countP (ofConfidence confidence)
  hits := predictions.countP fun p => ofConfidence confidence p && hit p
  withinHorizon := predictions.countP fun p => ofConfidence confidence p && within p

def tallyOf (hit within : PredictedAccess → Bool) (predictions : List PredictedAccess) : Tally where
  matched := predictions.countP hit
  within := predictions.countP within
  high := bucketOf hit within .high predictions
  medium := bucketOf hit within .medium predictions
  low := bucketOf hit within .low predictions

theorem bucketOf_concat (hit within : PredictedAccess → Bool) (confidence : PredictionConfidence)
    (predictions : List PredictedAccess) (p : PredictedAccess) :
    bucketOf hit within confidence (predictions ++ [p]) =
      if p.confidence = confidence then
        countIn (hit p) (within p) (bucketOf hit within confidence predictions)
      else bucketOf hit within confidence predictions := by
  by_cases hp : p.confidence = confidence
  · rw [if_pos hp]
    cases hhit : hit p <;> cases hwithin : within p <;>
      simp [bucketOf, countIn, ofConfidence, hp, hhit, hwithin]
  · rw [if_neg hp]
    simp [bucketOf, ofConfidence, hp]

theorem foldl_countPrediction (names : List String) (rank : ExtTreeMap String Nat compare)
    (horizon : Nat) (predictions : List PredictedAccess) :
    predictions.foldl (countPrediction names rank horizon) {} =
      tallyOf (hit names) (within rank horizon) predictions := by
  induction predictions using List.reverseRecOn with
  | nil => rfl
  | append_singleton predictions p ih =>
    have hcount : ∀ q : PredictedAccess → Bool,
        (predictions ++ [p]).countP q = predictions.countP q + (q p).toNat := by
      intro q
      cases hq : q p <;> simp [hq]
    rw [List.foldl_concat, ih]
    simp only [tallyOf, bucketOf_concat, hcount, countPrediction, hit, within]
    cases p.confidence <;> rfl

/-- The buckets share out what they count. -/
theorem countP_buckets (q : PredictedAccess → Bool) (predictions : List PredictedAccess) :
    predictions.countP (fun p => ofConfidence .high p && q p) +
        predictions.countP (fun p => ofConfidence .medium p && q p) +
        predictions.countP (fun p => ofConfidence .low p && q p) = predictions.countP q := by
  induction predictions with
  | nil => rfl
  | cons p rest ih =>
    simp only [List.countP_cons, ofConfidence] at ih ⊢
    cases p.confidence <;> cases q p <;> simp <;> omega

/-! ## Rates -/

theorem rate_eq {part whole : Nat} (hpos : 0 < whole) (hle : part ≤ whole)
    (hfits : part * 10000 < u64Bound) : rate part whole = some (part * 10000 / whole) := by
  rw [rate, if_pos hpos, basisPoints_eq hle hfits]

/-- Two parts of a whole, rounded down, are one short of it at most. -/
theorem parts_add {a b : Nat} (hpos : 0 < a + b) :
    a * 10000 / (a + b) + b * 10000 / (a + b) = 9999 ∨
      a * 10000 / (a + b) + b * 10000 / (a + b) = 10000 := by
  have hle : a * 10000 / (a + b) + b * 10000 / (a + b) ≤ 10000 := by
    refine Nat.le_trans Nat.div_add_div_le_add_div ?_
    rw [← Nat.add_mul, Nat.mul_comm, Nat.mul_div_cancel _ hpos]
  have hlt : 10000 < a * 10000 / (a + b) + b * 10000 / (a + b) + 2 := by
    have ha := Nat.lt_div_mul_add (a := a * 10000) hpos
    have hb := Nat.lt_div_mul_add (a := b * 10000) hpos
    refine Nat.lt_of_mul_lt_mul_right (a := a + b) ?_
    rw [Nat.add_mul, Nat.add_mul]
    omega
  omega

end PredictionEvaluation
end Ramforge
