/-
The accuracies of a history, over all counters that a file may hold.

A quotient is exact where ten thousand times the hits, rounded down to a multiple of the
samples, is still a `u64`.
-/
import Ramforge.Runtime.PredictionConfidence

namespace Ramforge
namespace PredictionHistory

open Std Rust Rust.Outcome

/-! ## One quotient -/

/-- Ten thousand times the hits fit, rounded down to a multiple of the samples. -/
def Rounds (hits samples : Nat) : Prop := hits * 10000 / samples * samples < u64Bound

/-- What an accuracy is to be. -/
def Right (bps hits samples : Nat) : Prop := bps = hits * 10000 / samples ∧ bps ≤ 10000

theorem saturatingMul_div_eq_iff {hits samples : Nat} (h : 0 < samples) :
    saturatingMul hits 10000 / samples = hits * 10000 / samples ↔ Rounds hits samples := by
  have hle : saturatingMul hits 10000 ≤ hits * 10000 := Nat.min_le_left _ _
  rw [Rounds]
  constructor
  · intro heq
    have hmul := Nat.div_mul_le_self (saturatingMul hits 10000) samples
    have hbound : saturatingMul hits 10000 ≤ u64Bound - 1 := Nat.min_le_right _ _
    have hpos : 0 < u64Bound := by decide
    rw [heq] at hmul
    omega
  · intro hrounds
    refine Nat.le_antisymm (Nat.div_le_div_right hle) ?_
    rw [Nat.le_div_iff_mul_le h, saturatingMul]
    exact Nat.le_min.mpr ⟨Nat.div_mul_le_self _ _, Nat.le_sub_one_of_lt hrounds⟩

theorem right_basisPoints_iff {hits samples : Nat} (h : 0 < samples) :
    Right (basisPoints hits samples) hits samples ↔
      hits * 10000 / samples ≤ 10000 ∧ Rounds hits samples := by
  have hle : saturatingMul hits 10000 / samples ≤ hits * 10000 / samples :=
    Nat.div_le_div_right (Nat.min_le_left _ _)
  rw [← saturatingMul_div_eq_iff h, Right, basisPoints, asU16]
  constructor
  · rintro ⟨heq, hsmall⟩
    have hexact := Nat.mod_eq_of_lt (a := saturatingMul hits 10000 / samples) (b := 2 ^ 16) (by omega)
    omega
  · rintro ⟨hsmall, heq⟩
    rw [heq, Nat.mod_eq_of_lt (by omega)]
    exact ⟨rfl, hsmall⟩

theorem quotient_le_iff {hits samples : Nat} (h : 0 < samples) :
    hits * 10000 / samples ≤ 10000 ↔ hits * 10000 < 10001 * samples := by
  rw [← Nat.lt_succ_iff, Nat.div_lt_iff_lt_mul h]

/-! ## What the accuracies are to be -/

def buckets (history : PredictionHistory) : List CalibrationCounters :=
  [history.bucketHigh, history.bucketMedium, history.bucketLow]

/-- In both kinds of build every accuracy comes back, and where there is one it is right. -/
structure Accurate (history : PredictionHistory) : Prop where
  tensor : ∀ build tensor minSamples, ∃ accuracy,
    history.tensorAccuracyBps build tensor minSamples = .ok accuracy ∧
      ∀ bps, accuracy = some bps → ∃ record, history.records[tensor]? = some record ∧
        Right bps record.hits (record.hits + record.misses)
  global : ∀ build, ∃ accuracy, history.globalAccuracyBps build = .ok accuracy ∧
    ∀ bps, accuracy = some bps → Right bps history.hits (history.hits + history.misses)
  summary : ∀ bps, history.summary.accuracyBps = some bps →
    Right bps history.hits (history.hits + history.misses)
  buckets : ∀ counters ∈ history.buckets, ∀ bps, counters.precisionBps = some bps →
    Right bps counters.hits counters.predictions
  confidence : ∀ build config profile inventory, ∃ set,
    PredictionSet.predictFromProfile build config profile inventory (some history) = .ok set ∧
      ∀ prediction ∈ set.predictions, prediction.confidenceBps ≤ 10000

/-- The counters that a history may hold. -/
structure InRange (history : PredictionHistory) : Prop where
  records : ∀ (tensor : String) record, history.records[tensor]? = some record →
    record.hits + record.misses < u64Bound ∧ Rounds record.hits (record.hits + record.misses)
  totals : history.hits + history.misses < u64Bound ∧
    Rounds history.hits (history.hits + history.misses)
  buckets : ∀ counters ∈ history.buckets, 0 < counters.predictions →
    counters.hits * 10000 < 10001 * counters.predictions ∧
      Rounds counters.hits counters.predictions

variable {build : Build} {history : PredictionHistory} {hits misses least : Nat}

/-! ## Counters in range -/

theorem accuracyOf_inRange (build : Build) (hsum : hits + misses < u64Bound) (hrounds : Rounds hits (hits + misses))
    (hleast : 0 < least) : ∃ accuracy, accuracyOf build hits misses least = .ok accuracy ∧
      ∀ bps, accuracy = some bps → Right bps hits (hits + misses) := by
  rw [accuracyOf, Build.add_of_lt hsum, expect_some, ok_bind]
  refine ⟨_, rfl, fun bps hbps => ?_⟩
  split at hbps
  next => cases hbps
  next hsamples =>
    cases hbps
    exact (right_basisPoints_iff (by omega)).mpr ⟨share_le (Nat.le_add_right _ _), hrounds⟩

theorem InRange.tensor (h : history.InRange) (build : Build) (tensor : String) (minSamples : Nat) :
    ∃ accuracy, history.tensorAccuracyBps build tensor minSamples = .ok accuracy ∧
      ∀ bps, accuracy = some bps → ∃ record, history.records[tensor]? = some record ∧
        Right bps record.hits (record.hits + record.misses) := by
  cases hrecord : history.records[tensor]? with
  | none => exact ⟨none, by rw [tensorAccuracyBps, hrecord]; rfl, fun bps hbps => (by cases hbps)⟩
  | some record =>
    obtain ⟨hsum, hrounds⟩ := h.records tensor record hrecord
    have hleast : 0 < max minSamples 1 := by omega
    obtain ⟨accuracy, haccuracy, hright⟩ := accuracyOf_inRange build hsum hrounds hleast
    refine ⟨accuracy, ?_, fun bps hbps => ⟨record, rfl, hright bps hbps⟩⟩
    rw [tensorAccuracyBps_of_some hrecord, haccuracy]

theorem InRange.global (h : history.InRange) (build : Build) :
    ∃ accuracy, history.globalAccuracyBps build = .ok accuracy ∧
      ∀ bps, accuracy = some bps → Right bps history.hits (history.hits + history.misses) :=
  accuracyOf_inRange build h.totals.1 h.totals.2 (by decide)

theorem InRange.summary (h : history.InRange) (bps : Nat)
    (hbps : history.summary.accuracyBps = some bps) :
    Right bps history.hits (history.hits + history.misses) := by
  have hsum : saturatingAdd history.hits history.misses = history.hits + history.misses :=
    saturatingAdd_of_lt h.totals.1
  have hvalue : (if 0 < saturatingAdd history.hits history.misses
      then some (basisPoints history.hits (saturatingAdd history.hits history.misses)) else none) =
        some bps := hbps
  rw [hsum] at hvalue
  split at hvalue
  next hpos =>
    cases hvalue
    exact (right_basisPoints_iff hpos).mpr ⟨share_le (Nat.le_add_right _ _), h.totals.2⟩
  next => cases hvalue

theorem InRange.bucket (h : history.InRange) {counters : CalibrationCounters}
    (hmem : counters ∈ history.buckets) {bps : Nat} (hbps : counters.precisionBps = some bps) :
    Right bps counters.hits counters.predictions := by
  rw [CalibrationCounters.precisionBps] at hbps
  split at hbps
  next hpos =>
    cases hbps
    obtain ⟨hsmall, hrounds⟩ := h.buckets counters hmem hpos
    exact (right_basisPoints_iff hpos).mpr ⟨(quotient_le_iff hpos).mpr hsmall, hrounds⟩
  next => cases hbps

/-! ## Confidences -/

open PredictionSet (historyConfidence confidenceBps observationConfidence usedHistory
  predictFromProfile)

/-- The accuracies that a loop may be given. -/
def Mild (build : Build) (history : Option PredictionHistory) : Prop :=
  ∀ name, ∃ accuracy, historyConfidence build history name = .ok accuracy ∧
    ∀ bps, accuracy = some bps → bps ≤ 10000

theorem InRange.mild (h : history.InRange) (build : Build) (inventory : ResourceInventory) :
    Mild build (usedHistory inventory (some history)) := by
  intro name
  rw [usedHistory, Option.filter_some]
  split
  next =>
    obtain ⟨tensor, htensor, hright⟩ := h.tensor build name 3
    rw [historyConfidence, htensor, ok_bind]
    cases tensor with
    | some bps =>
      obtain ⟨record, -, -, hsmall⟩ := hright bps rfl
      exact ⟨some bps, rfl, fun b hb => Option.some.inj hb ▸ hsmall⟩
    | none =>
      obtain ⟨global, hglobal, hright⟩ := h.global build
      exact ⟨global, hglobal, fun bps hbps => (hright bps hbps).2⟩
  next => exact ⟨none, rfl, fun bps hbps => (by cases hbps)⟩

theorem observationConfidence_le (profile : ExecutionProfile) : observationConfidence profile ≤ 10000 := by
  exact Nat.le_trans (asU16_le _) (Nat.min_le_right _ _)

theorem confidenceBps_le {observation : Nat} (hobservation : observation ≤ 10000)
    {accuracy : Option Nat} (h : ∀ bps, accuracy = some bps → bps ≤ 10000) :
    confidenceBps observation accuracy ≤ 10000 := by
  cases accuracy with
  | none => exact hobservation
  | some bps =>
    have hbps := h bps rfl
    refine Nat.le_trans (asU16_le _) ?_
    omega

theorem Mild.confidence {used : Option PredictionHistory} (h : Mild build used)
    {profile : ExecutionProfile} {inventory : ResourceInventory} {entry : String × AccessPattern}
    {prediction : PredictedAccess}
    (hdrawn : PredictionSet.Drawn build profile inventory used entry prediction) :
    prediction.confidenceBps ≤ 10000 := by
  obtain ⟨resource, accuracy, -, haccuracy, rfl⟩ := hdrawn
  obtain ⟨accuracy', haccuracy', hsmall⟩ := h entry.1
  cases haccuracy.symm.trans haccuracy'
  exact confidenceBps_le (observationConfidence_le profile) hsmall

theorem InRange.confidence (h : history.InRange) (build : Build) (config : PredictionConfig)
    (profile : Option ExecutionProfile) (inventory : ResourceInventory) :
    ∃ set, predictFromProfile build config profile inventory (some history) = .ok set ∧
      ∀ prediction ∈ set.predictions, prediction.confidenceBps ≤ 10000 := by
  rcases PredictionSet.predictFromProfile_cases build config profile inventory (some history) with
    ⟨reason, hrefused⟩ | ⟨profile, rfl, henabled, hvalid⟩
  · exact ⟨_, hrefused, fun prediction hmem => absurd hmem List.not_mem_nil⟩
  have hmild := h.mild build inventory
  obtain ⟨draft, hdraft⟩ := PredictionSet.exists_foldlM_predictAccess profile inventory
    { predictions := [], rejected := ∅ } fun entry (_ : entry ∈ profile.access.toList) =>
      (hmild entry.1).imp fun _ h => h.1
  obtain ⟨drawn, hdraws⟩ := PredictionSet.foldlM_predictAccess_ok hdraft
  rw [PredictionSet.predictFromProfile_of_valid henabled hvalid, hdraft, ok_bind]
  refine ⟨_, rfl, fun prediction hmem => ?_⟩
  have hdrawn : prediction ∈ drawn := by
    have hmem := (List.mem_insertionSort _).mp (List.mem_of_mem_take hmem)
    rwa [hdraws.predictions] at hmem
  obtain ⟨entry, -, hentry⟩ := PredictionSet.exists_entry hdraws.drawn hdrawn
  exact hmild.confidence hentry

theorem InRange.accurate (h : history.InRange) : history.Accurate where
  tensor := h.tensor
  global := h.global
  summary := h.summary
  buckets _ hmem _ := h.bucket hmem
  confidence := h.confidence

/-! ## Accurate histories -/

theorem lt_of_accuracyOf {accuracy : Option Nat}
    (h : accuracyOf .debug hits misses least = .ok accuracy) : hits + misses < u64Bound := by
  by_contra hge
  rw [accuracyOf, Build.add, if_neg hge] at h
  cases h

theorem accuracyOf_eq (hsum : hits + misses < u64Bound) (hleast : least ≤ hits + misses) :
    accuracyOf build hits misses least = .ok (some (basisPoints hits (hits + misses))) := by
  rw [accuracyOf, Build.add_of_lt hsum, expect_some, ok_bind, if_neg (Nat.not_lt.mpr hleast)]
  rfl

/-- Without samples there is nothing to round. -/
theorem rounds_zero (hits : Nat) : Rounds hits 0 := by
  rw [Rounds, Nat.mul_zero]
  decide

theorem Accurate.record (h : history.Accurate) {tensor : String} {record : PredictionFeedbackRecord}
    (hrecord : history.records[tensor]? = some record) :
    record.hits + record.misses < u64Bound ∧ Rounds record.hits (record.hits + record.misses) := by
  obtain ⟨accuracy, haccuracy, hright⟩ := h.tensor .debug tensor 1
  rw [tensorAccuracyBps_of_some hrecord] at haccuracy
  have hsum := lt_of_accuracyOf haccuracy
  refine ⟨hsum, ?_⟩
  by_cases hzero : record.hits + record.misses = 0
  · rw [hzero]
    exact rounds_zero _
  · rw [accuracyOf_eq hsum (Nat.max_le.mpr ⟨by omega, by omega⟩)] at haccuracy
    cases haccuracy
    obtain ⟨record', hrecord', hvalue⟩ := hright _ rfl
    cases hrecord.symm.trans hrecord'
    exact ((right_basisPoints_iff (by omega)).mp hvalue).2

theorem Accurate.totals (h : history.Accurate) : history.hits + history.misses < u64Bound ∧
    Rounds history.hits (history.hits + history.misses) := by
  obtain ⟨accuracy, haccuracy, -⟩ := h.global .debug
  have hsum := lt_of_accuracyOf haccuracy
  refine ⟨hsum, ?_⟩
  by_cases hzero : history.hits + history.misses = 0
  · rw [hzero]
    exact rounds_zero _
  · have hpos : 0 < history.hits + history.misses := Nat.pos_of_ne_zero hzero
    have hvalue : history.summary.accuracyBps =
        some (basisPoints history.hits (history.hits + history.misses)) := by
      rw [PredictionHistory.summary, saturatingAdd_of_lt hsum]
      exact if_pos hpos
    exact ((right_basisPoints_iff hpos).mp (h.summary _ hvalue)).2

theorem Accurate.inRange (h : history.Accurate) : history.InRange where
  records _ _ hrecord := h.record hrecord
  totals := h.totals
  buckets counters hmem hpos := by
    have hvalue : counters.precisionBps =
        some (basisPoints counters.hits counters.predictions) := if_pos hpos
    obtain ⟨hsmall, hrounds⟩ := (right_basisPoints_iff hpos).mp (h.buckets counters hmem _ hvalue)
    exact ⟨(quotient_le_iff hpos).mp hsmall, hrounds⟩

/-- The accuracies of a history are right exactly where its counters are in range. -/
theorem accurate_iff (history : PredictionHistory) : history.Accurate ↔ history.InRange :=
  ⟨Accurate.inRange, InRange.accurate⟩

/-! ## A history whose counters overflow -/

def sampleModel : ProfileIdentity where
  modelPath := "m"
  modelSizeBytes := 22
  modelModifiedUnixNs := none
  inventoryGeneration := 1
  nativeContractVersion := 1

/-- Ten samples, modulo `2 ^ 64`. -/
def overflowingRecord : PredictionFeedbackRecord :=
  { predictions := 10
    hits := 2 ^ 63
    misses := 2 ^ 63 + 10 }

def overflowingHistory : PredictionHistory :=
  { new sampleModel with
    records := (∅ : ExtTreeMap String PredictionFeedbackRecord compare).insert "blk.0.a"
      overflowingRecord }

/-- A debug build panics, and a release build takes it for almost four hundred percent. -/
theorem overflowingHistory_misread :
    overflowingHistory.validate sampleModel = .ok () ∧
      overflowingHistory.tensorAccuracyBps .debug "blk.0.a" 3 = .panic Build.addOverflow ∧
      overflowingHistory.tensorAccuracyBps .release "blk.0.a" 3 = .ok (some 39321) ∧
      ¬overflowingHistory.Accurate := by
  have hrecord : overflowingHistory.records["blk.0.a"]? = some overflowingRecord := by
    rw [overflowingHistory, MapSum.getElem?_insert', if_pos rfl]
  refine ⟨by decide +kernel, ?_, ?_, fun h => absurd (h.inRange.records _ _ hrecord).1 (by decide)⟩
  · rw [tensorAccuracyBps_of_some hrecord]
    decide +kernel
  · rw [tensorAccuracyBps_of_some hrecord]
    decide +kernel

end PredictionHistory
end Ramforge
