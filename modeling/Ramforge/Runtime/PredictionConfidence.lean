/-
Predictions from a profile, and the accuracies that weigh them.

An accuracy is a number of basis points in a `u16`: the quotient is cut to 16 bits.
-/
import Ramforge.Runtime.Prediction
import Ramforge.Rust.Serde
import Ramforge.Rust.Grouping

namespace Ramforge

open Std Rust Rust.Outcome

/-- `value as u16`. -/
def asU16 (value : Nat) : Nat := value % 2 ^ 16

theorem asU16_le (value : Nat) : asU16 value ≤ value := Nat.mod_le _ _

/-- `(hits.saturating_mul(10_000) / samples) as u16`. -/
def basisPoints (hits samples : Nat) : Nat := asU16 (saturatingMul hits 10000 / samples)

/-- A share of a whole is at most ten thousand basis points. -/
theorem share_le {hits samples : Nat} (h : hits ≤ samples) : hits * 10000 / samples ≤ 10000 := by
  refine Nat.div_le_of_le_mul ?_
  rw [Nat.mul_comm samples]
  omega

theorem basisPoints_eq {hits samples : Nat} (hle : hits ≤ samples)
    (hfits : hits * 10000 < u64Bound) : basisPoints hits samples = hits * 10000 / samples := by
  have hsmall := share_le hle
  have hexact : saturatingMul hits 10000 = hits * 10000 :=
    Nat.min_eq_left (Nat.le_sub_one_of_lt hfits)
  rw [basisPoints, asU16, hexact, Nat.mod_eq_of_lt (by omega)]

def CalibrationCounters.precisionBps (counters : CalibrationCounters) : Option Nat :=
  if 0 < counters.predictions then some (basisPoints counters.hits counters.predictions) else none

structure PredictionHistorySummary where
  records : Nat
  totalPredictions : Nat
  hits : Nat
  misses : Nat
  stagedRequests : Nat
  stagedBytes : Nat
  wastedBytes : Nat
  accuracyBps : Option Nat
  matchedWithinHorizon : Nat
  prefetchRequested : Nat
  prefetchAcceptedBytes : Nat
  prefetchAcceptedResources : Nat
  prefetchFollowedByAccess : Nat
  prefetchNotFollowedByAccess : Nat
  prefetchBenefitUnknown : Nat
  duplicateOrOverlapAvoided : Nat
  rejected : Nat
  deferred : Nat
  bucketHighPrecisionBps : Option Nat
  bucketMediumPrecisionBps : Option Nat
  bucketLowPrecisionBps : Option Nat
deriving DecidableEq, Repr

namespace PredictionHistory

/-! ## Accuracies -/

/-- `hits + misses`, and the accuracy where there are samples enough. -/
def accuracyOf (build : Build) (hits misses least : Nat) : Outcome Empty (Option Nat) := do
  let samples ← expect (build.add hits misses) Build.addOverflow
  pure (if samples < least then none else some (basisPoints hits samples))

def tensorAccuracyBps (build : Build) (history : PredictionHistory) (tensor : String)
    (minSamples : Nat) : Outcome Empty (Option Nat) :=
  match history.records[tensor]? with
  | none => pure none
  | some record => accuracyOf build record.hits record.misses (max minSamples 1)

theorem tensorAccuracyBps_of_some {build : Build} {history : PredictionHistory} {tensor : String}
    {record : PredictionFeedbackRecord} (h : history.records[tensor]? = some record)
    (minSamples : Nat) : history.tensorAccuracyBps build tensor minSamples =
      accuracyOf build record.hits record.misses (max minSamples 1) := by
  rw [tensorAccuracyBps, h]

def globalAccuracyBps (build : Build) (history : PredictionHistory) : Outcome Empty (Option Nat) :=
  accuracyOf build history.hits history.misses 10

def summary (history : PredictionHistory) : PredictionHistorySummary :=
  let samples := saturatingAdd history.hits history.misses
  { records := history.records.size
    totalPredictions := history.totalPredictions
    hits := history.hits
    misses := history.misses
    stagedRequests := history.stagedRequests
    stagedBytes := history.stagedBytes
    wastedBytes := history.wastedBytes
    accuracyBps := if 0 < samples then some (basisPoints history.hits samples) else none
    matchedWithinHorizon := history.matchedWithinHorizon
    prefetchRequested := history.prefetchRequested
    prefetchAcceptedBytes := history.prefetchAcceptedBytes
    prefetchAcceptedResources := history.prefetchAcceptedResources
    prefetchFollowedByAccess := history.prefetchFollowedByAccess
    prefetchNotFollowedByAccess := history.prefetchNotFollowedByAccess
    prefetchBenefitUnknown := history.prefetchBenefitUnknown
    duplicateOrOverlapAvoided := history.duplicateOrOverlapAvoided
    rejected := history.rejected
    deferred := history.deferred
    bucketHighPrecisionBps := history.bucketHigh.precisionBps
    bucketMediumPrecisionBps := history.bucketMedium.precisionBps
    bucketLowPrecisionBps := history.bucketLow.precisionBps }

/-! ## Files -/

def maxPredictionHistoryBytes : Nat := 16 * 1024 * 1024

def maxPredictionHistoryRecords : Nat := 100000

def validate (history : PredictionHistory) (expected : ProfileIdentity) :
    Outcome PredictionError Unit := do
  failIf (history.schemaVersion ≠ 1 ∧ history.schemaVersion ≠ predictionHistorySchemaVersion)
    (.schema history.schemaVersion)
  failIf (history.kind ≠ predictionHistoryKind) (.kind history.kind)
  failIf (history.identity ≠ expected) (.identity "model/runtime identity does not match")
  failIf (maxPredictionHistoryRecords < history.records.size) (.tooManyRecords history.records.size)

def historyLoader : Loader PredictionError where
  limit := maxPredictionHistoryBytes
  metadata error := .io s!"metadata: {error}"
  tooLarge := .tooLarge
  read error := .io s!"read: {error}"
  json := .json

/-- A history of the first schema is taken as one of the second. -/
def upgrade (history : PredictionHistory) : PredictionHistory :=
  if history.schemaVersion = 1 then
    { history with schemaVersion := predictionHistorySchemaVersion }
  else history

def loadPredictionHistory (json : Json PredictionHistory) (path : FileView)
    (expected : ProfileIdentity) : Outcome PredictionError PredictionHistory := do
  let history ← historyLoader.load json path
  validate (upgrade history) expected
  pure (upgrade history)

theorem loadPredictionHistory_validated {json : Json PredictionHistory} {path : FileView}
    {expected : ProfileIdentity} {history : PredictionHistory}
    (h : loadPredictionHistory json path expected = .ok history) :
    history.validate expected = .ok () := by
  obtain ⟨stored, -, h⟩ := of_bind_ok h
  obtain ⟨_, hvalid, h⟩ := of_bind_ok h
  cases h
  exact hvalid

end PredictionHistory

/-! ## Predictions -/

namespace PredictionSet

def classify (confidenceBps : Nat) : PredictionConfidence :=
  if 7500 ≤ confidenceBps then .high
  else if 5000 ≤ confidenceBps then .medium
  else .low

/-- `*set.rejected.entry(reason).or_default() += 1`. -/
def countRejected (rejected : ExtTreeMap String Nat compare) (reason : String) :
    ExtTreeMap String Nat compare :=
  rejected.insert reason (rejected[reason]?.getD 0 + 1)

/-- The resources with each name. -/
def byName (inventory : ResourceInventory) : ExtTreeMap String (List TensorResource) compare :=
  Grouping.group (inventory.resources.map fun resource => (resource.name, resource))

def observationConfidence (profile : ExecutionProfile) : Nat :=
  asU16 (min (5500 + min profile.completeObservations 4 * 1000) 10000)

/-- What the history says of a tensor; the profile alone decides where it says nothing. -/
def historyConfidence (build : Build) (history : Option PredictionHistory) (name : String) :
    Outcome Empty (Option Nat) :=
  match history with
  | none => pure none
  | some history => do
    let tensor ← history.tensorAccuracyBps build name 3
    match tensor with
    | some accuracy => pure (some accuracy)
    | none => history.globalAccuracyBps build

def confidenceBps (observation : Nat) : Option Nat → Nat
  | some accuracy => asU16 ((observation * 2 + accuracy) / 3)
  | none => observation

def predictedAccess (profile : ExecutionProfile) (name : String) (access : AccessPattern)
    (resource : TensorResource) (confidenceBps : Nat) : PredictedAccess where
  key := resource.key
  name := name
  predictedOrder := access.lastOrder
  expectedDistance := saturatingSub access.lastOrder access.firstOrder
  confidenceBps := confidenceBps
  confidence := classify confidenceBps
  sizeBytes := resource.logicalBytes
  knownSize := 0 < resource.logicalBytes
  reason := s!"profile first_order={access.firstOrder} last_order={access.lastOrder} consumers={access.observedConsumers} observations={profile.completeObservations}"

/-- The locals of the loop over the accesses. -/
structure Draft where
  predictions : List PredictedAccess
  rejected : ExtTreeMap String Nat compare

/-- One round of the loop. -/
def predictAccess (build : Build) (profile : ExecutionProfile) (inventory : ResourceInventory)
    (history : Option PredictionHistory) (draft : Draft) (entry : String × AccessPattern) :
    Outcome Empty Draft :=
  match (byName inventory)[entry.1]? with
  | none => pure { draft with rejected := countRejected draft.rejected "unknown resource name" }
  | some [resource] => do
    let accuracy ← historyConfidence build history entry.1
    let confidence := confidenceBps (observationConfidence profile) accuracy
    pure
      { draft with
        predictions := draft.predictions ++
          [predictedAccess profile entry.1 entry.2 resource confidence] }
  | some _ => pure { draft with rejected := countRejected draft.rejected "ambiguous resource name" }

/-- The comparison of `sort_by`. -/
def predictionOrder (a b : PredictedAccess) : Ordering :=
  (compare b.confidenceBps a.confidenceBps).then <|
  (compare a.predictedOrder b.predictedOrder).then <|
  (compare b.sizeBytes a.sizeBytes).then <|
  compare a.key.tensorIndex b.key.tensorIndex

def predictionLe (a b : PredictedAccess) : Prop := (predictionOrder a b).isLE = true

instance : DecidableRel predictionLe := fun a b =>
  inferInstanceAs (Decidable ((predictionOrder a b).isLE = true))

/-- The set before any access is looked at. -/
def opening (inventory : ResourceInventory) : PredictionSet where
  modelId := inventory.modelId
  generation := inventory.generation
  source := .none
  profileVersion := none
  completeObservations := 0
  predictions := []
  rejected := ∅
  highConfidence := 0
  mediumConfidence := 0
  lowConfidence := 0
  historyValid := false
  warnings := []

/-- `set.rejected.insert(reason, 1)`, where nothing else is said. -/
def refused (inventory : ResourceInventory) (reason : String) : PredictionSet :=
  { opening inventory with rejected := (opening inventory).rejected.insert reason 1 }

/-- A history of another inventory is not used. -/
def usedHistory (inventory : ResourceInventory) (history : Option PredictionHistory) :
    Option PredictionHistory :=
  history.filter fun history =>
    history.identity.inventoryGeneration = inventory.generation.generation

def countConfidence (predictions : List PredictedAccess) (confidence : PredictionConfidence) : Nat :=
  (predictions.filter fun prediction => prediction.confidence = confidence).length

/-- The set once the loop is done. -/
def drafted (config : PredictionConfig) (profile : ExecutionProfile) (inventory : ResourceInventory)
    (history : Option PredictionHistory) (draft : Draft) : PredictionSet :=
  let used := usedHistory inventory history
  let predictions := (draft.predictions.insertionSort predictionLe).take config.lookahead
  { opening inventory with
    source := .profile
    profileVersion := some profile.version
    completeObservations := profile.completeObservations
    predictions := predictions
    rejected := draft.rejected
    highConfidence := countConfidence predictions .high
    mediumConfidence := countConfidence predictions .medium
    lowConfidence := countConfidence predictions .low
    historyValid := used.isSome
    warnings :=
      if history.isSome ∧ used.isNone then
        ["prediction history inventory generation is incompatible; using profile-only confidence"]
      else [] }

def predictFromProfile (build : Build) (config : PredictionConfig)
    (profile : Option ExecutionProfile) (inventory : ResourceInventory)
    (history : Option PredictionHistory) : Outcome Empty PredictionSet :=
  if !config.enabled then pure (refused inventory "prediction disabled")
  else
    match profile with
    | none => pure (refused inventory "no compatible profile")
    | some profile =>
      if !profile.isValidFor inventory.modelId inventory.generation then
        pure (refused inventory "stale or incomplete profile")
      else do
        let draft ← profile.access.toList.foldlM
          (predictAccess build profile inventory (usedHistory inventory history))
          { predictions := [], rejected := ∅ }
        pure (drafted config profile inventory history draft)

/-! ## The loop over the accesses -/

variable {build : Build} {profile : ExecutionProfile} {inventory : ResourceInventory}
  {history : Option PredictionHistory} {draft draft' : Draft} {entry : String × AccessPattern}
  {entries : List (String × AccessPattern)} {name : String} {resource : TensorResource}

/-- The one resource with a name. -/
def resolve (inventory : ResourceInventory) (name : String) : Option TensorResource :=
  match (byName inventory)[name]? with
  | some [resource] => some resource
  | _ => none

theorem resolve_eq_some : resolve inventory name = some resource ↔
    inventory.resources.filter (fun r => r.name = name) = [resource] := by
  have hvalues : Grouping.valuesAt name (inventory.resources.map fun r => (r.name, r)) =
      inventory.resources.filter fun r => r.name = name := by
    rw [Grouping.valuesAt, List.filter_map, List.map_map]
    exact List.map_id _
  rw [resolve, byName, Grouping.getElem?_group, hvalues]
  split
  next r hr =>
    split at hr
    next => cases hr
    next => rw [Option.some.inj hr, List.cons.injEq, Option.some.injEq]; simp
  next hne =>
    refine ⟨fun h => (by cases h), fun h => (hne resource ?_).elim⟩
    rw [h, if_neg (List.cons_ne_nil _ _)]

/-- The entries that no single resource answers to. -/
def unresolved (inventory : ResourceInventory) (entries : List (String × AccessPattern)) :
    List (String × AccessPattern) :=
  entries.filter fun entry => (resolve inventory entry.1).isNone

def resolved (inventory : ResourceInventory) (entries : List (String × AccessPattern)) :
    List (String × AccessPattern) :=
  entries.filter fun entry => (resolve inventory entry.1).isSome

/-- What is counted as rejected, over all reasons. -/
def rejectedTotal (rejected : ExtTreeMap String Nat compare) : Nat :=
  MapSum.sumOver (fun _ count => count) rejected

theorem rejectedTotal_count (rejected : ExtTreeMap String Nat compare) (reason : String) :
    rejectedTotal (countRejected rejected reason) = rejectedTotal rejected + 1 := by
  rw [rejectedTotal, countRejected, rejectedTotal]
  cases hreason : rejected[reason]? with
  | none =>
    rw [MapSum.sumOver_insert_of_none (fun _ count => count) hreason, Option.getD_none]
    omega
  | some count =>
    have hle := MapSum.le_sumOver (fun _ count => count) hreason
    rw [MapSum.sumOver_insert_of_some (fun _ count => count) hreason, Option.getD_some]
    omega

/-- A prediction of an entry of the profile. -/
def Drawn (build : Build) (profile : ExecutionProfile) (inventory : ResourceInventory)
    (history : Option PredictionHistory) (entry : String × AccessPattern)
    (prediction : PredictedAccess) : Prop :=
  ∃ resource accuracy, resolve inventory entry.1 = some resource ∧
    historyConfidence build history entry.1 = .ok accuracy ∧
    prediction = predictedAccess profile entry.1 entry.2 resource
      (confidenceBps (observationConfidence profile) accuracy)

/-- What a round does: a prediction for an entry that is resolved, else one more rejected. -/
theorem predictAccess_ok (h : predictAccess build profile inventory history draft entry = .ok draft') :
    (∃ prediction, Drawn build profile inventory history entry prediction ∧
        draft' = { draft with predictions := draft.predictions ++ [prediction] }) ∨
      (resolve inventory entry.1 = none ∧ ∃ reason,
        draft' = { draft with rejected := countRejected draft.rejected reason }) := by
  rw [predictAccess.eq_def] at h
  split at h
  next hnone =>
    cases h
    exact .inr ⟨by rw [resolve, hnone], _, rfl⟩
  next resource hone =>
    obtain ⟨accuracy, haccuracy, h⟩ := of_bind_ok h
    cases h
    exact .inl ⟨_, ⟨resource, accuracy, by rw [resolve, hone], haccuracy, rfl⟩, rfl⟩
  next resources hmany hsome =>
    cases h
    refine .inr ⟨?_, _, rfl⟩
    rw [resolve, hsome]
    split
    next r hr => exact absurd (Option.some.inj hr) (hmany r)
    next => rfl

/-- What the loop adds to a draft. -/
structure Draws (build : Build) (profile : ExecutionProfile) (inventory : ResourceInventory)
    (history : Option PredictionHistory) (entries : List (String × AccessPattern))
    (draft draft' : Draft) (drawn : List PredictedAccess) : Prop where
  predictions : draft'.predictions = draft.predictions ++ drawn
  drawn : List.Forall₂ (Drawn build profile inventory history) (resolved inventory entries) drawn
  rejected : rejectedTotal draft'.rejected =
    rejectedTotal draft.rejected + (unresolved inventory entries).length

theorem foldlM_predictAccess_ok
    (h : entries.foldlM (predictAccess build profile inventory history) draft = .ok draft') :
    ∃ drawn, Draws build profile inventory history entries draft draft' drawn := by
  induction entries generalizing draft with
  | nil =>
    cases h
    exact ⟨[], (List.append_nil _).symm, .nil, rfl⟩
  | cons entry rest ih =>
    rw [List.foldlM_cons] at h
    obtain ⟨between, hround, h⟩ := of_bind_ok h
    obtain ⟨drawn, hpredictions, hdrawn, hrejected⟩ := ih h
    rcases predictAccess_ok hround with ⟨prediction, hnew, rfl⟩ | ⟨hnone, reason, rfl⟩
    · obtain ⟨resource, -, hresource, -⟩ := id hnew
      refine ⟨prediction :: drawn, ?_, ?_, ?_⟩
      · rw [hpredictions, List.append_assoc, List.singleton_append]
      · rw [resolved, List.filter_cons_of_pos (by rw [hresource]; rfl)]
        exact .cons hnew hdrawn
      · rw [hrejected, unresolved, unresolved,
          List.filter_cons_of_neg (by rw [hresource]; exact Bool.false_ne_true)]
    · refine ⟨drawn, hpredictions, ?_, ?_⟩
      · rw [resolved, List.filter_cons_of_neg (by rw [hnone]; exact Bool.false_ne_true)]
        exact hdrawn
      · rw [hrejected, unresolved, unresolved, List.filter_cons_of_pos (by rw [hnone]; rfl),
          List.length_cons, rejectedTotal_count]
        omega

/-- Every prediction is drawn from one of the entries. -/
theorem exists_entry {drawn : List PredictedAccess} {prediction : PredictedAccess}
    (h : List.Forall₂ (Drawn build profile inventory history) entries drawn)
    (hmem : prediction ∈ drawn) :
    ∃ entry ∈ entries, Drawn build profile inventory history entry prediction := by
  obtain ⟨i, hi, rfl⟩ := List.getElem_of_mem hmem
  have hlt : i < entries.length := h.length_eq ▸ hi
  exact ⟨_, List.getElem_mem hlt, h.get hlt hi⟩

/-- A loop in which every history lookup comes back comes to its end. -/
theorem exists_foldlM_predictAccess (profile : ExecutionProfile) (inventory : ResourceInventory)
    (draft : Draft)
    (h : ∀ entry ∈ entries, ∃ accuracy, historyConfidence build history entry.1 = .ok accuracy) :
    ∃ draft', entries.foldlM (predictAccess build profile inventory history) draft = .ok draft' := by
  induction entries generalizing draft with
  | nil => exact ⟨draft, rfl⟩
  | cons entry rest ih =>
    have hround : ∃ between, predictAccess build profile inventory history draft entry =
        .ok between := by
      obtain ⟨accuracy, haccuracy⟩ := h entry List.mem_cons_self
      rw [predictAccess.eq_def]
      split
      next => exact ⟨_, rfl⟩
      next resource _ => exact ⟨_, by rw [haccuracy, ok_bind]; rfl⟩
      next => exact ⟨_, rfl⟩
    obtain ⟨between, hround⟩ := hround
    rw [List.foldlM_cons, hround, ok_bind]
    exact ih between fun entry hentry => h entry (List.mem_cons_of_mem _ hentry)

/-! ## The whole call -/

variable {config : PredictionConfig}

theorem predictFromProfile_of_valid (henabled : config.enabled = true)
    (hvalid : profile.isValidFor inventory.modelId inventory.generation = true) :
    predictFromProfile build config (some profile) inventory history =
      (profile.access.toList.foldlM
          (predictAccess build profile inventory (usedHistory inventory history))
          { predictions := [], rejected := ∅ } >>= fun draft =>
        .ok (drafted config profile inventory history draft)) := by
  simp only [predictFromProfile, henabled, hvalid, Bool.not_true, Bool.false_eq_true, if_false,
    pure_eq]

/-- Every other call predicts nothing. -/
theorem predictFromProfile_cases (build : Build) (config : PredictionConfig)
    (profile : Option ExecutionProfile) (inventory : ResourceInventory)
    (history : Option PredictionHistory) :
    (∃ reason, predictFromProfile build config profile inventory history =
        .ok (refused inventory reason)) ∨
      ∃ valid, profile = some valid ∧ config.enabled = true ∧
        valid.isValidFor inventory.modelId inventory.generation = true := by
  cases henabled : config.enabled with
  | false =>
    refine .inl ⟨"prediction disabled", ?_⟩
    simp only [predictFromProfile, henabled, Bool.not_false, if_true, pure_eq]
  | true =>
    cases profile with
    | none =>
      refine .inl ⟨"no compatible profile", ?_⟩
      simp only [predictFromProfile, henabled, Bool.not_true, Bool.false_eq_true, if_false, pure_eq]
    | some profile =>
      cases hvalid : profile.isValidFor inventory.modelId inventory.generation with
      | false =>
        refine .inl ⟨"stale or incomplete profile", ?_⟩
        simp only [predictFromProfile, henabled, hvalid, Bool.not_true, Bool.not_false,
          Bool.false_eq_true, if_false, if_true, pure_eq]
      | true => exact .inr ⟨profile, rfl, rfl, hvalid⟩

end PredictionSet
end Ramforge
