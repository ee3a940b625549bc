/-
The checks of a calibration run to their end: no sample list makes the wide
arithmetic in them overflow or divide by zero.
-/
import Ramforge.Runtime.PlanPipeline
import Ramforge.Runtime.PlannerCalibration
import Ramforge.Rust.Checked

namespace Ramforge
namespace Planner

open Std Rust Rust.Outcome

/-! ## Samples -/

theorem isZero_eq_false {sample : MeasurementSample} (h : sample.isZero = false) :
    0 < sample.elapsedNs.toNat ∧ 0 < sample.unitsProcessed.toNat := by
  simp only [MeasurementSample.isZero, Bool.or_eq_false_iff, decide_eq_false_iff_not] at h
  refine ⟨Nat.pos_iff_ne_zero.mpr fun hzero => h.1 ?_, Nat.pos_iff_ne_zero.mpr fun hzero => h.2 ?_⟩
  · exact UInt64.toNat_inj.mp hzero
  · exact UInt64.toNat_inj.mp hzero

/-- Above every rate of a sample. -/
def rateCap : Nat := u64Bound * 1000000000

theorem rateCap_mul_lt : rateCap * 10000 < u128Bound := by decide

theorem rate_ok {sample : MeasurementSample} (h : sample.isZero = false) :
    ∃ rate, sample.rate = .ok rate ∧ rate ≤ rateCap := by
  obtain ⟨helapsed, -⟩ := isZero_eq_false h
  have hcap : sample.unitsProcessed.toNat * 1000000000 ≤ rateCap :=
    Nat.mul_le_mul_right _ (Nat.le_of_lt sample.unitsProcessed.toNat_lt)
  have hscaled : sample.unitsProcessed.toNat * 1000000000 < u128Bound :=
    Nat.lt_of_le_of_lt hcap (by decide)
  refine ⟨sample.unitsProcessed.toNat * 1000000000 / sample.elapsedNs.toNat, ?_, ?_⟩
  · rw [MeasurementSample.rate, U128.mul, if_pos hscaled, expect_some, ok_bind, U128.div,
      if_neg (Nat.pos_iff_ne_zero.mp helapsed), expect_some]
  · exact (Nat.div_le_self _ _).trans hcap

theorem rateBounds_ok {samples : List MeasurementSample}
    (h : ∀ sample ∈ samples, sample.isZero = false) (bounds : Nat × Nat)
    (hcap : bounds.2 ≤ rateCap) :
    ∃ bounds', rateBounds samples bounds = .ok bounds' ∧ bounds'.1 ≤ bounds.1 ∧
      bounds.2 ≤ bounds'.2 ∧ bounds'.2 ≤ rateCap ∧ (samples ≠ [] → bounds'.1 ≤ bounds'.2) := by
  induction samples generalizing bounds with
  | nil => exact ⟨bounds, rfl, Nat.le_refl _, Nat.le_refl _, hcap, fun hne => absurd rfl hne⟩
  | cons sample rest ih =>
    obtain ⟨rate, hrate, hle⟩ := rate_ok (h sample List.mem_cons_self)
    obtain ⟨bounds', hrest, hmin, hmax, hcap', -⟩ :=
      ih (fun other hother => h other (List.mem_cons_of_mem _ hother))
        (min bounds.1 rate, max bounds.2 rate) (Nat.max_le.mpr ⟨hcap, hle⟩)
    have hmin := Nat.le_min.mp hmin
    have hmax := Nat.max_le.mp hmax
    refine ⟨bounds', ?_, hmin.1, hmax.1, hcap', fun _ => hmin.2.trans hmax.2⟩
    rw [rateBounds, List.foldlM_cons, hrate]
    exact hrest

theorem observationQualityBasisPoints_ok (samples : List MeasurementSample) :
    ∃ quality, observationQualityBasisPoints samples = .ok quality ∧ quality ≤ 10000 := by
  unfold observationQualityBasisPoints
  split
  next => exact ⟨0, rfl, Nat.zero_le _⟩
  next hsamples =>
    simp only [not_or, List.isEmpty_iff, Bool.not_eq_true, List.any_eq_false] at hsamples
    obtain ⟨hne, hzero⟩ := hsamples
    obtain ⟨bounds, hbounds, -, -, hcap, hle⟩ :=
      rateBounds_ok (fun sample hmem => hzero sample hmem) (u128Bound - 1, 0) (Nat.zero_le _)
    have hle := hle hne
    rw [hbounds]
    simp only [ok_bind]
    split
    next => exact ⟨0, rfl, Nat.zero_le _⟩
    next hmaximum =>
      have hscaled : (bounds.2 - bounds.1) * 10000 < u128Bound :=
        Nat.lt_of_le_of_lt (Nat.mul_le_mul_right _ ((Nat.sub_le _ _).trans hcap)) rateCap_mul_lt
      rw [checkedSub_of_le hle, expect_some, ok_bind, U128.mul, if_pos hscaled, expect_some, ok_bind,
        U128.div, if_neg hmaximum, expect_some, ok_bind]
      exact ⟨_, rfl, Nat.sub_le _ _⟩

/-! ## Sums -/

theorem sumU128_eq {values : List Nat} (h : ∀ value ∈ values, value < u64Bound)
    (hlength : values.length ≤ u64Bound) : sumU128 values = .ok values.sum := by
  have hfold : ∀ start, start + values.length * (u64Bound - 1) < u128Bound →
      values.foldlM (fun total value =>
        (expect (U128.add total value) Build.addOverflow : Outcome PlannerError Nat)) start =
          .ok (start + values.sum) := by
    clear hlength
    induction values with
    | nil => exact fun start _ => rfl
    | cons value rest ih =>
      intro start hstart
      have hvalue := h value List.mem_cons_self
      rw [List.length_cons, Nat.succ_mul] at hstart
      have hadd : start + value < u128Bound := by omega
      rw [List.foldlM_cons, U128.add, if_pos hadd, List.sum_cons, ← Nat.add_assoc]
      exact ih (fun other hother => h other (List.mem_cons_of_mem _ hother)) (start + value) (by omega)
  rw [sumU128, hfold 0, Nat.zero_add]
  rw [Nat.zero_add]
  exact Nat.lt_of_le_of_lt (Nat.mul_le_mul_right (u64Bound - 1) hlength) (by decide)

theorem sum_pos {samples : List MeasurementSample} {part : MeasurementSample → Nat}
    (hne : samples ≠ []) (h : ∀ sample ∈ samples, 0 < part sample) : 0 < (samples.map part).sum := by
  cases samples with
  | nil => exact absurd rfl hne
  | cons sample rest =>
    rw [List.map_cons, List.sum_cons]
    exact Nat.add_pos_left (h sample List.mem_cons_self) _

theorem aggregateObservationValue_ok (unit : ObservationUnit) {samples : List MeasurementSample}
    (hlength : samples.length ≤ u64Bound) :
    ∃ value, aggregateObservationValue unit samples = .ok value := by
  unfold aggregateObservationValue
  split
  next => exact ⟨none, rfl⟩
  next hsamples =>
    simp only [not_or, List.isEmpty_iff, Bool.not_eq_true, List.any_eq_false] at hsamples
    obtain ⟨hne, hzero⟩ := hsamples
    have helapsed := sum_pos hne fun sample hmem => (isZero_eq_false (hzero sample hmem)).1
    have hunits := sum_pos hne fun sample hmem => (isZero_eq_false (hzero sample hmem)).2
    rw [sumU128_eq (List.forall_mem_map.mpr fun sample _ => sample.elapsedNs.toNat_lt)
        (by rwa [List.length_map]), ok_bind,
      sumU128_eq (List.forall_mem_map.mpr fun sample _ => sample.unitsProcessed.toNat_lt)
        (by rwa [List.length_map]), ok_bind]
    cases unit with
    | nanoseconds =>
      simp only [U128.div, if_neg (Nat.pos_iff_ne_zero.mp hunits), expect_some]
      exact ⟨_, rfl⟩
    | bytesPerSecond | elementsPerSecond =>
      generalize U128.mul (samples.map fun sample => sample.unitsProcessed.toNat).sum 1000000000 =
        scaled
      cases scaled with
      | none => exact ⟨none, rfl⟩
      | some scaled =>
        simp only [U128.div, if_neg (Nat.pos_iff_ne_zero.mp helapsed), expect_some]
        exact ⟨_, rfl⟩

/-! ## Observations -/

theorem length_le_sum {samples : List MeasurementSample}
    (h : ∀ sample ∈ samples, sample.isZero = false) :
    samples.length ≤ (samples.map fun sample => sample.elapsedNs.toNat).sum := by
  induction samples with
  | nil => exact Nat.zero_le _
  | cons sample rest ih =>
    have hrest := ih fun other hother => h other (List.mem_cons_of_mem _ hother)
    obtain ⟨helapsed, -⟩ := isZero_eq_false (h sample List.mem_cons_self)
    rw [List.length_cons, List.map_cons, List.sum_cons]
    omega

namespace PerformanceObservation

theorem elapsedTotal_eq_some {samples : List MeasurementSample} {total : Nat} :
    elapsedTotal samples = some total ↔
      (samples.map fun sample => sample.elapsedNs.toNat).sum < u64Bound ∧
        total = (samples.map fun sample => sample.elapsedNs.toNat).sum := by
  have hsum := foldlM_checkedAdd_eq_some (fun sample : MeasurementSample => sample.elapsedNs.toNat)
    samples total (show 0 < u64Bound by decide)
  rw [Nat.zero_add] at hsum
  exact hsum

theorem total_validateMeasured (observation : PerformanceObservation) :
    Total observation.validateMeasured := by
  refine total_failIf_bind fun hchecks => ?_
  simp only [not_or, not_not, Bool.not_eq_true, List.any_eq_false] at hchecks
  obtain ⟨-, -, -, -, -, hzero, helapsed⟩ := hchecks
  obtain ⟨hlt, -⟩ := elapsedTotal_eq_some.mp helapsed
  have hlength := (length_le_sum fun sample hmem => hzero sample hmem).trans (Nat.le_of_lt hlt)
  obtain ⟨quality, hquality, -⟩ := observationQualityBasisPoints_ok observation.rawSamples
  obtain ⟨value, hvalue⟩ := aggregateObservationValue_ok observation.unit hlength
  rw [hquality, ok_bind, hvalue, ok_bind]
  exact (total_failIf _ _).bind fun _ => total_failIf _ _

theorem total_validate (observation : PerformanceObservation) : Total observation.validate := by
  refine (total_failIf _ _).bind fun _ => (total_failIf _ _).bind fun _ =>
    (total_failIf _ _).bind fun _ => (total_failIf _ _).bind fun _ => ?_
  split
  · exact total_validateMeasured observation
  · exact total_failIf _ _
  · exact total_failIf _ _
  · exact total_failIf _ _

end PerformanceObservation

namespace CalibrationResult

theorem total_validateObservations (level : CalibrationLevel)
    (observations : List PerformanceObservation) (identifiers : ExtTreeSet String) :
    Total (validateObservations level observations identifiers) := by
  induction observations generalizing identifiers with
  | nil => exact total_ok ()
  | cons observation rest ih =>
    exact observation.total_validate.bind fun _ => (total_failIf _ _).bind fun _ =>
      (total_failIf _ _).bind fun _ => ih _

theorem total_validate (calibration : CalibrationResult) : Total calibration.validate :=
  (total_failIf _ _).bind fun _ => total_validateObservations _ _ _

end CalibrationResult
end Planner
end Ramforge

/-!
A validated calibration is safe to compute with, and its observations may stand in any order.

Names are unique, and the last tie between two observations is broken by their names, so
the best of them is the best in every order.
-/

namespace Ramforge
namespace Planner

open Rust Rust.Outcome

namespace PerformanceObservation

/-- What a validated measurement is worth. -/
structure Measures (observation : PerformanceObservation) (value : Nat) : Prop where
  quality : observationQualityBasisPoints observation.rawSamples =
    .ok observation.qualityBasisPoints
  value_eq : observation.value = some value
  value_pos : 0 < value
  aggregate : aggregateObservationValue observation.unit observation.rawSamples = .ok (some value)

theorem quality_le_of_validate {observation : PerformanceObservation}
    (h : observation.validate = .ok ()) : observation.qualityBasisPoints ≤ 10000 := by
  obtain ⟨hidentity, -⟩ := of_failIf_bind_ok h
  simp only [not_or, Nat.not_lt] at hidentity
  exact hidentity.2.2

theorem measures_of_validate {observation : PerformanceObservation}
    (h : observation.validate = .ok ()) (hmeasured : observation.status = .measured) :
    ∃ value, observation.Measures value := by
  obtain ⟨-, h⟩ := of_failIf_bind_ok h
  obtain ⟨-, h⟩ := of_failIf_bind_ok h
  obtain ⟨-, h⟩ := of_failIf_bind_ok h
  obtain ⟨-, h⟩ := of_failIf_bind_ok h
  rw [hmeasured] at h
  obtain ⟨hchecks, h⟩ := of_failIf_bind_ok h
  simp only [not_or, not_not] at hchecks
  obtain ⟨value, hvalue, hpos⟩ := (Option.any_eq_true _ _).mp hchecks.1
  obtain ⟨quality, hquality, h⟩ := of_bind_ok h
  obtain ⟨hquality_eq, h⟩ := of_failIf_bind_ok h
  obtain ⟨aggregate, haggregate, h⟩ := of_bind_ok h
  have haggregate_eq := not_not.mp (of_failIf_ok h)
  refine ⟨value, ?_, hvalue, of_decide_eq_true hpos, ?_⟩
  · rw [hquality, not_not.mp hquality_eq]
  · rw [haggregate, ← haggregate_eq, hvalue]

end PerformanceObservation

theorem ceilRateDurationNs_ok {units unitsPerSecond : Nat} (hunits : units < u64Bound)
    (hrate : 0 < unitsPerSecond) : ∃ duration, ceilRateDurationNs units unitsPerSecond = .ok duration := by
  have hscaled : units * 1000000000 < u128Bound :=
    Nat.lt_of_le_of_lt (Nat.mul_le_mul_right _ hunits.le) (by decide)
  rw [ceilRateDurationNs, U128.mul, if_pos hscaled, expect_some, ok_bind, U128.divCeil,
    if_neg (Nat.pos_iff_ne_zero.mp hrate), expect_some]
  exact ⟨_, rfl⟩

namespace CalibrationResult

variable {calibration : CalibrationResult}

/-- The calibration with its observations in another order. -/
def reorder (calibration : CalibrationResult) (observations : List PerformanceObservation) :
    CalibrationResult :=
  { calibration with observations }

theorem validate_of_mem (h : calibration.validate = .ok ()) {observation : PerformanceObservation}
    (hmem : observation ∈ calibration.observations) : observation.validate = .ok () := by
  obtain ⟨-, h⟩ := of_failIf_bind_ok h
  exact ((validateObservations_eq_ok.mp h).1 observation hmem).1

variable {observations : List PerformanceObservation}

theorem validate_reorder (h : calibration.validate = .ok ())
    (hperm : calibration.observations.Perm observations) :
    (calibration.reorder observations).validate = .ok () := by
  obtain ⟨hheader, h⟩ := of_failIf_bind_ok h
  obtain ⟨hobservations, hdistinct⟩ := validateObservations_eq_ok.mp h
  rw [validate, reorder, failIf_of_not hheader, ok_bind]
  refine validateObservations_eq_ok.mpr ⟨fun observation hmem => ?_, ?_⟩
  · exact hobservations observation (hperm.mem_iff.mpr hmem)
  · exact (hperm.map _).nodup_iff.mp hdistinct

theorem bestObservation_reorder (h : calibration.Valid)
    (hperm : calibration.observations.Perm observations) (metric : ObservationMetric)
    (strategy : Option StrategyId) :
    bestObservation (calibration.reorder observations) metric strategy =
      bestObservation calibration metric strategy := by
  refine (maxBy_perm (hperm.filter _) fun left hleft right hright htie => ?_).symm
  exact List.inj_on_of_nodup_map h.distinct (List.mem_of_mem_filter hleft)
    (List.mem_of_mem_filter hright) (identifier_of_compareObservations htie)

end CalibrationResult

section cost

variable {calibration : CalibrationResult} {observations : List PerformanceObservation}
  {strategy : StrategyId} {execution : ExecutionMemoryPlan}

theorem calibratedCost_reorder (h : calibration.Valid)
    (hperm : calibration.observations.Perm observations) (strategy : StrategyId)
    (execution : ExecutionMemoryPlan) :
    calibratedCost strategy execution (calibration.reorder observations) =
      calibratedCost strategy execution calibration := by
  unfold calibratedCost
  rw [CalibrationResult.bestObservation_reorder h hperm,
    CalibrationResult.bestObservation_reorder h hperm]
  rfl

theorem value_of_bestObservation (h : calibration.validate = .ok ()) {metric : ObservationMetric}
    {strategy : Option StrategyId} {observation : PerformanceObservation}
    (hbest : bestObservation calibration metric strategy = some observation) :
    ∃ value, observation.value = some value ∧ 0 < value := by
  obtain ⟨hmem, hmeasured, -⟩ := of_bestObservation hbest
  obtain ⟨value, hmeasures⟩ :=
    PerformanceObservation.measures_of_validate (CalibrationResult.validate_of_mem h hmem) hmeasured
  exact ⟨value, hmeasures.value_eq, hmeasures.value_pos⟩

/-- The values that the estimate expects are there, and the read rate is not zero. -/
theorem exists_calibratedCost (h : calibration.validate = .ok ()) (strategy : StrategyId)
    (hbytes : execution.estimatedPhysicalBytesPerForward < u64Bound) :
    ∃ cost, calibratedCost strategy execution calibration = .ok cost := by
  unfold calibratedCost
  dsimp only
  refine exists_bind ?_ fun readTime => exists_bind ?_ fun latencyNs => ⟨_, rfl⟩
  · cases hread : bestObservation calibration .sequentialReadThroughput none with
    | none => exact ⟨none, rfl⟩
    | some read =>
      obtain ⟨rate, hrate, hpos⟩ := value_of_bestObservation h hread
      obtain ⟨duration, hduration⟩ := ceilRateDurationNs_ok hbytes hpos
      dsimp only
      rw [hrate, expect_some, ok_bind, hduration]
      exact ⟨some duration, rfl⟩
  · cases hlatency : bestObservation calibration .strategyLatency (some strategy) with
    | none => exact ⟨none, rfl⟩
    | some latency =>
      obtain ⟨ns, hns, -⟩ := value_of_bestObservation h hlatency
      simp only [hns, expect_some]
      exact ⟨some ns, rfl⟩

theorem estimateCost_reorder (h : calibration.Valid)
    (hperm : calibration.observations.Perm observations) (user : UserProfile)
    (machineFingerprint modelFingerprint storageFingerprint : UInt64) (strategy : StrategyId)
    (execution : ExecutionMemoryPlan) :
    estimateCost user machineFingerprint modelFingerprint storageFingerprint strategy execution
        (some (calibration.reorder observations)) =
      estimateCost user machineFingerprint modelFingerprint storageFingerprint strategy execution
        (some calibration) := by
  unfold estimateCost
  simp only [calibratedCost_reorder h hperm]
  rfl

theorem exists_estimateCost (h : calibration.validate = .ok ()) (user : UserProfile)
    (machineFingerprint modelFingerprint storageFingerprint : UInt64) (strategy : StrategyId)
    (hbytes : execution.estimatedPhysicalBytesPerForward < u64Bound) :
    ∃ cost, estimateCost user machineFingerprint modelFingerprint storageFingerprint strategy
      execution (some calibration) = .ok cost := by
  unfold estimateCost
  dsimp only
  split
  next => exact ⟨_, rfl⟩
  next =>
    split
    next => exact exists_calibratedCost h strategy hbytes
    next => exact ⟨_, rfl⟩

end cost

theorem calibration_arithmetic (calibration : CalibrationResult) (h : calibration.validate = .ok ()) :
    (∀ observation ∈ calibration.observations, observation.qualityBasisPoints ≤ 10000 ∧
      (observation.status = .measured → ∃ value, observation.Measures value ∧
        ∀ units < u64Bound, ∃ duration, ceilRateDurationNs units value = .ok duration)) ∧
    (∀ user machineFingerprint modelFingerprint storageFingerprint strategy execution,
      execution.estimatedPhysicalBytesPerForward < u64Bound →
        ∃ cost, estimateCost user machineFingerprint modelFingerprint storageFingerprint strategy
          execution (some calibration) = .ok cost) ∧
    ∀ observations, calibration.observations.Perm observations →
      (calibration.reorder observations).validate = .ok () ∧
      (∀ metric strategy, bestObservation (calibration.reorder observations) metric strategy =
        bestObservation calibration metric strategy) ∧
      ∀ user machineFingerprint modelFingerprint storageFingerprint strategy execution,
        estimateCost user machineFingerprint modelFingerprint storageFingerprint strategy execution
            (some (calibration.reorder observations)) =
          estimateCost user machineFingerprint modelFingerprint storageFingerprint strategy execution
            (some calibration) := by
  have hvalid := CalibrationResult.validate_ok h
  refine ⟨fun observation hmem => ?_, ?_, fun observations hperm => ?_⟩
  · have hobservation := CalibrationResult.validate_of_mem h hmem
    refine ⟨PerformanceObservation.quality_le_of_validate hobservation, fun hmeasured => ?_⟩
    obtain ⟨value, hvalue⟩ := PerformanceObservation.measures_of_validate hobservation hmeasured
    exact ⟨value, hvalue, fun units hunits => ceilRateDurationNs_ok hunits hvalue.value_pos⟩
  · intro user machineFingerprint modelFingerprint storageFingerprint strategy execution hbytes
    exact exists_estimateCost h user machineFingerprint modelFingerprint storageFingerprint strategy
      hbytes
  · exact ⟨CalibrationResult.validate_reorder h hperm,
      CalibrationResult.bestObservation_reorder hvalid hperm, estimateCost_reorder hvalid hperm⟩

/-- Two reads that differ in their names. -/
def tiedCalibration : CalibrationResult :=
  { sampleCalibration with
    observations := [sampleObservation, { sampleObservation with identifier := "another-read" }] }

theorem calibration_arithmetic_tied :
    (bestObservation tiedCalibration .sequentialReadThroughput none).map (·.identifier) =
        some "another-read" ∧
      ∀ metric strategy,
        bestObservation (tiedCalibration.reorder tiedCalibration.observations.reverse) metric strategy =
          bestObservation tiedCalibration metric strategy := by
  obtain ⟨-, -, horder⟩ := calibration_arithmetic tiedCalibration (by decide +kernel)
  exact ⟨by decide +kernel, (horder _ (List.reverse_perm _).symm).2.1⟩

end Planner
end Ramforge
