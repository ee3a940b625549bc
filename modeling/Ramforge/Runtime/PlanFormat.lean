/-
The encoding of plans and its reader are inverse to each other.

Every value that the reader returns is written back as the bytes it was read from, and
what is written is read back, whatever follows.  So no plan has two encodings, and no
encoding is a part of another one.
-/
import Ramforge.Runtime.PlanPersistence

namespace Ramforge
namespace Planner

open Std Rust Exec

namespace PlanReader

/-- The bytes behind the position. -/
def rest (reader : PlanReader) : List UInt8 := reader.bytes.drop reader.position

/-- A format of the reader for the values `P`. -/
abbrev Format {α : Type} (P : α → Prop) (put : α → Put) (get : Read α) : Prop :=
  Codec PlanReader.rest P put get

theorem length_rest (reader : PlanReader) :
    reader.rest.length = reader.bytes.length - reader.position := List.length_drop

/-! ## Raw bytes and numbers -/

theorem take_run (reader : PlanReader) {n : Nat} (field : String) (h : n ≤ reader.rest.length) :
    ∃ reader', take n field reader = (.ok (reader.rest.take n), reader') ∧
      reader'.rest = reader.rest.drop n := by
  have hle := reader.position_le
  have hlt := reader.length_lt
  rw [length_rest] at h
  have hstop : reader.position + n ≤ reader.bytes.length := by omega
  have hadd : checkedAdd reader.position n = some (reader.position + n) := by
    apply checkedAdd_of_lt
    have hbound := two_mul_isizeBound
    omega
  refine ⟨{ reader with position := reader.position + n, position_le := hstop }, ?_, ?_⟩
  · simp only [take, hadd, dif_pos hstop, Nat.add_sub_cancel_left]
    rfl
  · show reader.bytes.drop (reader.position + n) = (reader.bytes.drop reader.position).drop n
    rw [List.drop_drop]

theorem of_take_ok {reader reader' : PlanReader} {n : Nat} {field : String} {xs : List UInt8}
    (h : take n field reader = (.ok xs, reader')) :
    xs.length = n ∧ reader.rest = xs ++ reader'.rest := by
  have hle := reader.position_le
  unfold take at h
  cases hadd : checkedAdd reader.position n with
  | none =>
    simp only [hadd] at h
    cases h
  | some stop =>
    obtain ⟨-, rfl⟩ := checkedAdd_eq_some.mp hadd
    simp only [hadd] at h
    split at h
    · rename_i hstop
      cases h
      rw [Nat.add_sub_cancel_left]
      constructor
      · rw [List.length_take, List.length_drop]
        omega
      · show reader.bytes.drop reader.position = _ ++ reader.bytes.drop (reader.position + n)
        rw [← List.drop_drop, List.take_append_drop]
    · cases h

theorem take_format (n : Nat) (field : String) :
    Format (fun xs => xs.length = n) extendFromSlice (take n field) := by
  constructor
  · rintro xs bytes out rfl hout
    cases hout
    refine ⟨xs, rfl, fun reader tail hrest => ?_⟩
    obtain ⟨reader', hrun, hrest'⟩ := take_run reader (n := xs.length) field (by
      rw [hrest, List.length_append]
      omega)
    rw [hrest, List.take_left] at hrun
    rw [hrest, List.drop_left] at hrest'
    exact ⟨reader', hrun, hrest'⟩
  · intro reader reader' xs hrun
    obtain ⟨hlen, hrest⟩ := of_take_ok hrun
    exact ⟨hlen, xs, fun bytes => rfl, hrest⟩
  · intro reader p
    unfold take
    split
    · exact fun hpanic => by cases hpanic
    · split <;> exact fun hpanic => by cases hpanic

theorem u8_format (field : String) : Format (fun _ => True) putU8 (u8 field) := by
  refine Codec.stored (f := fun value => [value]) (take_format 1 field) (fun _ _ => rfl)
    (fun _ _ _ => rfl) ?_ ?_
  · intro xs s s' value hxs hrun
    obtain ⟨byte, rfl⟩ := List.length_eq_one_iff.mp hxs
    cases hrun
    exact ⟨trivial, rfl, rfl⟩
  · intro xs s p hxs
    obtain ⟨byte, rfl⟩ := List.length_eq_one_iff.mp hxs
    exact fun hpanic => by cases hpanic

theorem u32_format (field : String) : Format (· < 2 ^ 32) putU32 (u32 field) :=
  Codec.number _ (take_format 4 field)

theorem u64_format (field : String) : Format (· < u64Bound) putU64 (u64 field) :=
  Codec.number _ (take_format 8 field)

theorem fingerprint_format (field : String) :
    Format (fun _ => True) putFingerprint (fingerprint field) := by
  refine Codec.stored (f := UInt64.toNat) (u64_format field) (fun value _ => UInt64.toNat_lt value)
    (fun value s _ => ?_) ?_ fun n s p _ hpanic => by cases hpanic
  · rw [UInt64.ofNat_toNat]
    rfl
  · intro n s s' value hn hrun
    cases hrun
    exact ⟨trivial, UInt64.toNat_ofNat_of_lt' hn, rfl⟩

theorem boolean_format (field : String) : Format (fun _ => True) putBool (boolean field) := by
  refine Codec.tagged (u8_format field) (fun value => ?_) (fun value b h => ?_)
  · cases value <;> rfl
  · unfold decodeBool at h
    split_ifs at h with h0 h1 <;> cases h
    · exact h0.symm
    · exact h1.symm

theorem optionalU32_format (field : String) :
    Format (fun value => ∀ n, value = some n → n < 2 ^ 32) putOptionalU32 (optionalU32 field) :=
  Codec.option (boolean_format field) (u32_format field)

theorem optionalU64_format (field : String) :
    Format (fun value => ∀ n, value = some n → n < u64Bound) putOptionalU64 (optionalU64 field) :=
  Codec.option (boolean_format field) (u64_format field)

/-! ## Strings and lists -/

theorem fromUTF8?_eq_some {bytes : List UInt8} {value : String}
    (h : String.fromUTF8? ⟨bytes.toArray⟩ = some value) : value.toByteArray.data.toList = bytes := by
  unfold String.fromUTF8? at h
  split at h
  · cases h
    rfl
  · cases h

theorem fromUTF8?_toByteArray (value : String) :
    String.fromUTF8? ⟨value.toByteArray.data.toList.toArray⟩ = some value := by
  rw [Array.toArray_toList, String.fromUTF8?, dif_pos value.isValidUTF8]
  rfl

theorem length_utf8 (value : String) :
    value.toByteArray.data.toList.length = value.utf8ByteSize := by
  rw [Array.length_toList]
  rfl

theorem string_format (field : String) :
    Format (fun _ => True) (putString field) (string field) := by
  refine Codec.check ?_
  refine Codec.field (f := String.utf8ByteSize) (u32_format field) (fun value hvalue => ?_)
    fun length _ => ?_
  · have hle : value.utf8ByteSize ≤ maxStringBytes := Nat.not_lt.mp hvalue.2
    exact Nat.lt_of_le_of_lt hle (by decide)
  · refine Codec.accept (fun hshort => ?_)
      fun value hvalue hlt => hvalue.1.2 (by rw [hvalue.2]; exact hlt)
    refine Codec.stored (f := fun value : String => value.toByteArray.data.toList)
      (take_format length field) (fun value hvalue => ?_) (fun value s _ => ?_) ?_ ?_
    · rw [length_utf8, hvalue.2]
    · rw [fromUTF8?_toByteArray]
      rfl
    · intro bytes s s' value hbytes hrun
      cases hvalue : String.fromUTF8? ⟨bytes.toArray⟩ with
      | none =>
        rw [hvalue] at hrun
        cases hrun
      | some value' =>
        rw [hvalue] at hrun
        cases hrun
        have hstored := fromUTF8?_eq_some hvalue
        have hsize : value.utf8ByteSize = length := by rw [← length_utf8, hstored, hbytes]
        refine ⟨⟨⟨trivial, ?_⟩, hsize⟩, hstored, rfl⟩
        rw [hsize]
        exact hshort
    · intro bytes s p _
      cases String.fromUTF8? ⟨bytes.toArray⟩ <;> exact fun hpanic => by cases hpanic

theorem optionalString_format (field : String) :
    Format (fun _ => True) (putOptionalString field) (optionalString field) :=
  (Codec.option (boolean_format field) (string_format field)).restrict fun _ =>
    ⟨fun _ _ _ => trivial, fun _ => trivial⟩

theorem listCount_format (field : String) :
    Format (fun _ => True) (putListCount field) (listCount field) := by
  refine Codec.check (Codec.stored (f := fun count => count) (u32_format field) ?_ ?_ ?_ ?_)
  · intro count hcount
    exact Nat.lt_of_le_of_lt (Nat.not_lt.mp hcount.2) (by decide)
  · intro count s hcount
    rw [failIf_bind_run, if_neg hcount.2]
    rfl
  · intro count s s' count' _ hrun
    obtain ⟨hshort, hrun⟩ := of_failIf_bind_ok hrun
    cases hrun
    exact ⟨⟨trivial, hshort⟩, rfl, rfl⟩
  · intro count s p _
    rw [failIf_bind_run]
    split <;> exact fun hpanic => by cases hpanic

/-- A list of at most `maxListItems` values. -/
theorem counted_format {α : Type} {P : α → Prop} {put : α → Put} {get : Read α}
    (h : Format P put get) (field : String) :
    Format (fun values => ∀ a ∈ values, P a)
      (fun values => do
        putListCount field values.length
        Codec.putAll put values)
      (do
        let count ← listCount field
        Codec.times get count) :=
  Codec.field (f := List.length) (listCount_format field) (fun _ _ => trivial) fun count _ =>
    Codec.list h count

theorem stringList_format (field : String) :
    Format (fun _ => True) (putStringList field) (stringList field) :=
  (counted_format (string_format field) field).restrict fun _ => ⟨fun _ _ _ => trivial, fun _ => trivial⟩

/-! ## Enumerations -/

theorem mode_format : Format (fun _ => True) (fun m => putU8 (encodeMode m)) mode := by
  refine Codec.tagged (u8_format _) (fun m => ?_) (fun value m h => ?_)
  · cases m <;> rfl
  · unfold decodeMode at h
    split_ifs at h <;> cases h <;> symm <;> assumption

theorem strategy_format : Format (fun _ => True) (fun s => putU8 (encodeStrategy s)) strategy := by
  refine Codec.tagged (u8_format _) (fun s => ?_) (fun value s h => ?_)
  · cases s <;> rfl
  · unfold decodeStrategy at h
    split_ifs at h <;> cases h <;> symm <;> assumption

theorem gpuPreference_format :
    Format (fun _ => True) (fun p => putU8 (encodeGpuPreference p)) gpuPreference := by
  refine Codec.tagged (u8_format _) (fun p => ?_) (fun value p h => ?_)
  · cases p <;> rfl
  · unfold decodeGpuPreference at h
    split_ifs at h <;> cases h <;> symm <;> assumption

theorem reasonCode_format :
    Format (fun _ => True) (fun code => putU8 (encodeReason code)) reasonCode := by
  refine Codec.tagged (u8_format _) (fun code => ?_) (fun value code h => ?_)
  · cases code <;> rfl
  · revert h
    fun_cases decodeReason value <;> intro h <;> cases h <;> symm <;> assumption

end PlanReader

/-! ## Records

`Fits` says that every number of a record is one of its type. -/

def LayerCacheDecision.Fits (layerCache : LayerCacheDecision) : Prop :=
  layerCache.capacityBytes < u64Bound

structure ResourceReservations.Fits (reservations : ResourceReservations) : Prop where
  available : reservations.availableRamBytesAtPlanning < u64Bound
  resident : reservations.persistentResidentBytes < u64Bound
  startupPeak : reservations.persistentStartupPeakBytes < u64Bound
  layerPeak : reservations.largestLayerLoadPeakBytes < u64Bound
  lowerBound : reservations.managedLowerBoundBytes < u64Bound
  remaining : reservations.remainingBudgetAfterLowerBoundBytes < u64Bound

structure CostEstimate.Fits (cost : CostEstimate) : Prop where
  bytes : cost.physicalReadBytesPerForward < u64Bound
  readTime : ∀ n, cost.calibratedReadTimeNsPerForward = some n → n < u64Bound
  latency : ∀ n, cost.observedStrategyLatencyNs = some n → n < u64Bound

structure CalibrationProvenance.Fits (calibration : CalibrationProvenance) : Prop where
  planVersion : ∀ n, calibration.calibrationPlanVersion = some n → n < 2 ^ 32
  rulesetVersion : ∀ n, calibration.calibrationRulesetVersion = some n → n < 2 ^ 32

def PlanReason.Fits (reason : PlanReason) : Prop := ∀ n, reason.value = some n → n < u64Bound

structure PersistedExecutionPlan.Fits (plan : PersistedExecutionPlan) : Prop where
  persistenceSchema : plan.persistenceSchemaVersion < 2 ^ 32
  executionSchema : plan.executionSchemaVersion < 2 ^ 32
  ruleset : plan.plannerRulesetVersion < 2 ^ 32
  ramBudget : plan.ramBudgetBytes < u64Bound
  threads : plan.cpuThreadCount < u64Bound
  layerCache : plan.layerCache.Fits
  reservations : plan.reservations.Fits
  cost : plan.cost.Fits
  calibration : plan.calibration.Fits
  reasons : ∀ reason ∈ plan.reasons, reason.Fits

namespace PlanReader

theorem layerCache_format : Format LayerCacheDecision.Fits putLayerCache layerCache := by
  refine Codec.record ?_
  refine Codec.next (boolean_format _) (fun _ _ => trivial) fun enabled _ => ?_
  refine Codec.last (u64_format _) (fun b hb => hb) fun capacity b hcapacity => ?_
  constructor
  · rintro ⟨-, ⟨-, rfl⟩, rfl⟩
    rfl
  · rintro rfl
    exact ⟨hcapacity, ⟨trivial, rfl⟩, rfl⟩

theorem io_format : Format (fun _ => True) putIo io := by
  refine Codec.record ?_
  refine Codec.next (boolean_format _) (fun _ _ => trivial) fun coalescing _ => ?_
  refine Codec.last (boolean_format _) (fun _ _ => trivial) fun reuse b _ => ?_
  constructor
  · rintro ⟨-, ⟨-, rfl⟩, rfl⟩
    rfl
  · rintro rfl
    exact ⟨trivial, ⟨trivial, rfl⟩, rfl⟩

theorem gpu_format : Format (fun _ => True) putGpu gpu := by
  refine Codec.record ?_
  refine Codec.next gpuPreference_format (fun _ _ => trivial) fun preference _ => ?_
  refine Codec.next (boolean_format _) (fun _ _ => trivial) fun enabled _ => ?_
  refine Codec.last (optionalString_format _) (fun _ _ => trivial) fun device b _ => ?_
  constructor
  · rintro ⟨-, ⟨⟨-, rfl⟩, rfl⟩, rfl⟩
    rfl
  · rintro rfl
    exact ⟨trivial, ⟨⟨trivial, rfl⟩, rfl⟩, rfl⟩

theorem reservations_format : Format ResourceReservations.Fits putReservations reservations := by
  refine Codec.record ?_
  refine Codec.next (u64_format _) (fun b hb => hb.available) fun available havailable => ?_
  refine Codec.next (u64_format _) (fun b hb => hb.resident) fun resident hresident => ?_
  refine Codec.next (u64_format _) (fun b hb => hb.startupPeak) fun startup hstartup => ?_
  refine Codec.next (u64_format _) (fun b hb => hb.layerPeak) fun layerPeak hlayer => ?_
  refine Codec.next (u64_format _) (fun b hb => hb.lowerBound) fun lower hlower => ?_
  refine Codec.last (u64_format _) (fun b hb => hb.remaining) fun remaining b hremaining => ?_
  constructor
  · rintro ⟨-, ⟨⟨⟨⟨⟨-, rfl⟩, rfl⟩, rfl⟩, rfl⟩, rfl⟩, rfl⟩
    rfl
  · rintro rfl
    exact ⟨⟨havailable, hresident, hstartup, hlayer, hlower, hremaining⟩,
      ⟨⟨⟨⟨⟨trivial, rfl⟩, rfl⟩, rfl⟩, rfl⟩, rfl⟩, rfl⟩

theorem cost_format : Format CostEstimate.Fits putCost cost := by
  refine Codec.record ?_
  refine Codec.next (u64_format _) (fun b hb => hb.bytes) fun bytes hbytes => ?_
  refine Codec.next (optionalU64_format _) (fun b hb => hb.readTime) fun readTime hread => ?_
  refine Codec.last (optionalU64_format _) (fun b hb => hb.latency) fun latency b hlatency => ?_
  constructor
  · rintro ⟨-, ⟨⟨-, rfl⟩, rfl⟩, rfl⟩
    rfl
  · rintro rfl
    exact ⟨⟨hbytes, hread, hlatency⟩, ⟨⟨trivial, rfl⟩, rfl⟩, rfl⟩

theorem calibration_format : Format CalibrationProvenance.Fits putCalibration calibration := by
  refine Codec.record ?_
  refine Codec.next (optionalString_format _) (fun _ _ => trivial) fun identifier _ => ?_
  refine Codec.next (optionalString_format _) (fun _ _ => trivial) fun planIdentifier _ => ?_
  refine Codec.next (optionalU32_format _) (fun b hb => hb.planVersion) fun version hversion => ?_
  refine Codec.next (optionalU32_format _) (fun b hb => hb.rulesetVersion) fun ruleset hruleset => ?_
  refine Codec.last (stringList_format _) (fun _ _ => trivial) fun observations b _ => ?_
  constructor
  · rintro ⟨-, ⟨⟨⟨⟨-, rfl⟩, rfl⟩, rfl⟩, rfl⟩, rfl⟩
    rfl
  · rintro rfl
    exact ⟨⟨hversion, hruleset⟩, ⟨⟨⟨⟨trivial, rfl⟩, rfl⟩, rfl⟩, rfl⟩, rfl⟩

theorem reason_format : Format PlanReason.Fits putReason reason := by
  refine Codec.record ?_
  refine Codec.next reasonCode_format (fun _ _ => trivial) fun code _ => ?_
  refine Codec.last (optionalU64_format _) (fun b hb => hb) fun value b hvalue => ?_
  constructor
  · rintro ⟨-, ⟨-, rfl⟩, rfl⟩
    rfl
  · rintro rfl
    exact ⟨hvalue, ⟨trivial, rfl⟩, rfl⟩

theorem reasons_format :
    Format (fun reasons => ∀ reason ∈ reasons, PlanReason.Fits reason) putReasons reasons :=
  counted_format reason_format "plan reasons"

/-- The values of the encoding: numbers of their types, under the schema of this version. -/
structure Encodes (p : PersistedExecutionPlan) : Prop where
  fits : p.Fits
  schema : p.persistenceSchemaVersion = persistedExecutionPlanSchemaVersion

theorem plan_format : Format Encodes putPlan plan := by
  refine Codec.record ?_
  refine Codec.next (f := fun _ => persistedPlanMagic) (take_format _ _) (fun _ _ => rfl) fun magic _ => ?_
  refine Codec.accept (fun hmagic => ?_) fun b hb => not_not.mpr hb.2.2.symm
  refine Codec.next (u32_format _) (fun b hb => hb.fits.persistenceSchema) fun schema hschema => ?_
  refine Codec.accept (fun hversion => ?_) fun b hb => not_not.mpr (hb.2.2.symm.trans hb.1.schema)
  refine Codec.next (u32_format _) (fun b hb => hb.fits.executionSchema) fun execution hexecution => ?_
  refine Codec.next (u32_format _) (fun b hb => hb.fits.ruleset) fun ruleset hruleset => ?_
  refine Codec.next (fingerprint_format _) (fun _ _ => trivial) fun model _ => ?_
  refine Codec.next (fingerprint_format _) (fun _ _ => trivial) fun machine _ => ?_
  refine Codec.next (fingerprint_format _) (fun _ _ => trivial) fun storage _ => ?_
  refine Codec.next mode_format (fun _ _ => trivial) fun mode _ => ?_
  refine Codec.next strategy_format (fun _ _ => trivial) fun strategy _ => ?_
  refine Codec.next (u64_format _) (fun b hb => hb.fits.ramBudget) fun ram hram => ?_
  refine Codec.next (u64_format _) (fun b hb => hb.fits.threads) fun threads hthreads => ?_
  refine Codec.next layerCache_format (fun b hb => hb.fits.layerCache) fun cache hcache => ?_
  refine Codec.next io_format (fun _ _ => trivial) fun io _ => ?_
  refine Codec.next gpu_format (fun _ _ => trivial) fun gpu _ => ?_
  refine Codec.next reservations_format (fun b hb => hb.fits.reservations) fun reserved hreserved => ?_
  refine Codec.next cost_format (fun b hb => hb.fits.cost) fun cost hcost => ?_
  refine Codec.next calibration_format (fun b hb => hb.fits.calibration) fun calibration hcalibration => ?_
  refine Codec.last reasons_format (fun b hb => hb.fits.reasons) fun reasons b hreasons => ?_
  obtain rfl := not_not.mp hmagic
  obtain rfl := not_not.mp hversion
  constructor
  · rintro ⟨-, ⟨⟨⟨⟨⟨⟨⟨⟨⟨⟨⟨⟨⟨⟨⟨⟨⟨-, -⟩, hschema⟩, rfl⟩, rfl⟩, rfl⟩, rfl⟩, rfl⟩, rfl⟩, rfl⟩, rfl⟩, rfl⟩, rfl⟩, rfl⟩,
      rfl⟩, rfl⟩, rfl⟩, rfl⟩, rfl⟩
    rw [← hschema]
  · rintro rfl
    refine ⟨⟨⟨hschema, hexecution, hruleset, hram, hthreads, hcache, hreserved, hcost, hcalibration,
      hreasons⟩, rfl⟩, ?_⟩
    exact ⟨⟨⟨⟨⟨⟨⟨⟨⟨⟨⟨⟨⟨⟨⟨⟨⟨⟨trivial, rfl⟩, rfl⟩, rfl⟩, rfl⟩, rfl⟩, rfl⟩, rfl⟩, rfl⟩, rfl⟩, rfl⟩, rfl⟩, rfl⟩, rfl⟩,
      rfl⟩, rfl⟩, rfl⟩, rfl⟩, rfl⟩

end PlanReader
namespace PersistedExecutionPlan

open Outcome

/-! ## The checks return -/

theorem total_validateIdentifiers (identifiers seen : List String) :
    Total (validateIdentifiers identifiers seen) := by
  induction identifiers generalizing seen with
  | nil => exact total_ok ()
  | cons identifier rest ih =>
    exact (total_failIf _ _).bind fun _ => (total_failIf _ _).bind fun _ => ih _

theorem total_validateReasonCodes (reasons : List PlanReason) (codes : List PlanReasonCode)
    (found : Option PlanReasonCode) : Total (validateReasonCodes reasons codes found) := by
  induction reasons generalizing codes found with
  | nil => exact total_ok found
  | cons reason rest ih =>
    refine (total_failIf _ _).bind fun _ => ?_
    dsimp only
    split
    · exact (total_failIf _ _).bind fun _ => ih _ _
    · exact (total_failIf _ _).bind fun _ => ih _ _
    · exact (total_failIf _ _).bind fun _ => ih _ _
    · exact ih _ _

theorem total_validateConcreteDecisions (plan : ExecutionPlan) :
    Total (PlanCompiler.validateConcreteDecisions plan) := by
  refine (total_failIf _ _).bind fun _ => (total_failIf _ _).bind fun _ =>
    (total_failIf _ _).bind fun _ => ?_
  split
  · exact total_failIf _ _
  · exact (total_failIf _ _).bind fun _ => total_err _

theorem total_acceptDecisions {m : Outcome PlanCompilationError Unit} (hm : Total m) :
    Total (acceptDecisions m) := by
  unfold acceptDecisions
  split
  · exact total_ok ()
  · exact total_ok ()
  · exact total_err _
  · exact absurd rfl (hm _)

theorem total_validateStructure (plan : PersistedExecutionPlan) : Total plan.validateStructure := by
  refine (total_failIf _ _).bind fun _ => (total_failIf _ _).bind fun _ =>
    (total_failIf _ _).bind fun _ => (total_failIf _ _).bind fun _ =>
    (total_failIf _ _).bind fun _ => (total_okOr _ _).bind fun remaining =>
    (total_failIf _ _).bind fun _ => (total_failIf _ _).bind fun _ =>
    (total_failIf _ _).bind fun _ => ?_
  refine Total.bind ?_ fun _ => Total.bind ?_ fun _ =>
    total_acceptDecisions (total_validateConcreteDecisions _)
  · exact (total_failIf _ _).bind fun _ => (total_failIf _ _).bind fun _ =>
      (total_failIf _ _).bind fun _ => (total_failIf _ _).bind fun _ => total_validateIdentifiers _ _
  · exact (total_failIf _ _).bind fun _ => (total_validateReasonCodes _ _ _).bind fun _ =>
      (total_okOr _ _).bind fun _ => total_failIf _ _

/-! ## Whole plans -/

variable {p p' : PersistedExecutionPlan} {b : List UInt8}

theorem schema_of_validateStructure (h : p.validateStructure = .ok ()) :
    p.persistenceSchemaVersion = persistedExecutionPlanSchemaVersion :=
  not_not.mp (of_failIf_bind_ok h).1

theorem of_toBytes_ok (h : p.toBytes = .ok b) :
    p.validateStructure = .ok () ∧ putPlan p [] = (.ok (), b) ∧ ¬maxPersistedPlanBytes < b.length := by
  obtain ⟨_, hvalid, h⟩ := of_bind_ok h
  unfold encodeUnchecked at h
  split at h
  · rename_i u bytes hput
    obtain ⟨hshort, h⟩ := of_failIf_bind_ok h
    cases h
    exact ⟨hvalid, hput, hshort⟩
  · cases h
  · cases h

theorem toBytes_of_put (hvalid : p.validateStructure = .ok ()) (hput : putPlan p [] = (.ok (), b))
    (hshort : ¬maxPersistedPlanBytes < b.length) : p.toBytes = .ok b := by
  rw [toBytes, hvalid, ok_bind, encodeUnchecked, hput]
  show Outcome.failIf _ _ >>= _ = _
  rw [failIf_of_not hshort]
  rfl

theorem of_fromBytes_ok (h : fromBytes b = .ok p) :
    p.validateStructure = .ok () ∧ p.Fits ∧ putPlan p [] = (.ok (), b) ∧
      ¬maxPersistedPlanBytes < b.length := by
  unfold fromBytes at h
  split at h
  · cases h
  rename_i hshort
  split at h
  · rename_i persisted reader hrun
    obtain ⟨hend, h⟩ := of_failIf_bind_ok h
    obtain ⟨_, hvalid, h⟩ := of_bind_ok h
    cases h
    obtain ⟨hencodes, xs, hput, hrest⟩ := PlanReader.plan_format.canonical hrun
    have hnil : reader.rest = [] := by
      rw [← List.length_eq_zero_iff, PlanReader.length_rest]
      exact not_not.mp hend
    rw [hnil, List.append_nil] at hrest
    obtain rfl : b = xs := hrest
    exact ⟨hvalid, hencodes.fits, hput [], hshort⟩
  · cases h
  · cases h

/-- Read one encoding where another one stands. -/
theorem fromBytes_of_put (tail : List UInt8) (hvalid : p.validateStructure = .ok ()) (hfits : p.Fits)
    (hput : putPlan p [] = (.ok (), b)) (hshort : ¬maxPersistedPlanBytes < (b ++ tail).length) :
    fromBytes (b ++ tail) = if tail = [] then .ok p else .err (.trailingBytes tail.length) := by
  obtain ⟨xs, hxs, hdecodes⟩ := PlanReader.plan_format.complete
    ⟨hfits, schema_of_validateStructure hvalid⟩ hput
  obtain rfl : b = xs := hxs
  obtain ⟨reader, hrun, hrest⟩ := hdecodes (PlanReader.new (b ++ tail) (lt_isizeBound_of_le hshort))
    tail rfl
  have hremaining : reader.remaining = tail.length := by rw [← hrest, PlanReader.length_rest]; rfl
  rw [fromBytes, dif_neg hshort, hrun]
  show Outcome.failIf _ _ >>= _ = _
  rw [hremaining]
  by_cases hnil : tail = []
  · rw [if_pos hnil, failIf_of_not (by rw [hnil]; exact not_not.mpr rfl), ok_bind, hvalid]
    rfl
  · rw [if_neg hnil, Outcome.failIf, if_pos (by rwa [ne_eq, List.length_eq_zero_iff])]
    rfl

/-- An encoding is no beginning of another one. -/
theorem prefixFree {tail : List UInt8} (h : fromBytes b = .ok p) (h' : fromBytes (b ++ tail) = .ok p') :
    tail = [] := by
  obtain ⟨hvalid, hfits, hput, -⟩ := of_fromBytes_ok h
  obtain ⟨-, -, -, hshort⟩ := of_fromBytes_ok h'
  rw [fromBytes_of_put tail hvalid hfits hput hshort] at h'
  split at h'
  · assumption
  · cases h'

theorem total_fromBytes (b : List UInt8) : Total (fromBytes b) := by
  unfold fromBytes
  split
  · exact total_err _
  rename_i hshort
  split
  · exact (total_failIf _ _).bind fun _ => (total_validateStructure _).bind fun _ => total_ok _
  · exact total_err _
  · rename_i message reader hrun
    have htotal := PlanReader.plan_format.total (PlanReader.new b (lt_isizeBound_of_le hshort)) message
    exact absurd (by rw [hrun]) htotal

theorem err_of_not_ok (h : ∀ p, fromBytes b ≠ .ok p) : ∃ e, fromBytes b = .err e := by
  cases hrun : fromBytes b with
  | ok p => exact absurd hrun (h p)
  | err e => exact ⟨e, rfl⟩
  | panic message => exact absurd hrun (total_fromBytes b message)

/-- Encoding and decoding are inverse to each other, on exactly the encodings, no two of
which are the beginning of one another. -/
theorem format_exact :
    (∀ (p : PersistedExecutionPlan) (b : List UInt8), p.Fits → p.toBytes = .ok b → fromBytes b = .ok p) ∧
    (∀ (b : List UInt8) (p : PersistedExecutionPlan), fromBytes b = .ok p → p.Fits ∧ p.toBytes = .ok b) ∧
    (∀ (b b' : List UInt8) (p : PersistedExecutionPlan), fromBytes b = .ok p → b' <+: b → b' ≠ b →
      ∃ e, fromBytes b' = .err e) ∧
    (∀ (b b' : List UInt8) (p : PersistedExecutionPlan), fromBytes b = .ok p → b <+: b' → b' ≠ b →
      ∃ e, fromBytes b' = .err e) ∧
    ∀ (b : List UInt8) (message : String), fromBytes b ≠ .panic message := by
  refine ⟨?_, ?_, ?_, ?_, total_fromBytes⟩
  · intro p b hfits h
    obtain ⟨hvalid, hput, hshort⟩ := of_toBytes_ok h
    have hrun := fromBytes_of_put [] hvalid hfits hput (by rwa [List.append_nil])
    rw [List.append_nil, if_pos rfl] at hrun
    exact hrun
  · intro b p h
    obtain ⟨hvalid, hfits, hput, hshort⟩ := of_fromBytes_ok h
    exact ⟨hfits, toBytes_of_put hvalid hput hshort⟩
  · rintro b b' p h ⟨tail, rfl⟩ hne
    refine err_of_not_ok fun p' h' => hne ?_
    rw [prefixFree h' h, List.append_nil]
  · rintro b b' p h ⟨tail, rfl⟩ hne
    refine err_of_not_ok fun p' h' => hne ?_
    rw [prefixFree h h', List.append_nil]

/-! ## One encoding -/

def samplePlan : PersistedExecutionPlan where
  persistenceSchemaVersion := persistedExecutionPlanSchemaVersion
  executionSchemaVersion := executionPlanSchemaVersion
  plannerRulesetVersion := Planner.plannerRulesetVersion
  modelDescriptorFingerprint := 7
  sourceMachineFingerprint := 8
  sourceStorageFingerprint := 9
  mode := .balancedNormal
  strategy := .cpuLayerStreaming
  ramBudgetBytes := 1000
  cpuThreadCount := 3
  layerCache := { enabled := true, capacityBytes := 300 }
  io := { readCoalescingEnabled := true, groupedReadBufferReuseEnabled := false }
  gpu := { preference := .disabled, enabled := false, selectedDeviceId := none }
  reservations :=
    { availableRamBytesAtPlanning := 2000
      persistentResidentBytes := 200
      persistentStartupPeakBytes := 300
      largestLayerLoadPeakBytes := 100
      managedLowerBoundBytes := 400
      remainingBudgetAfterLowerBoundBytes := 600 }
  cost :=
    { physicalReadBytesPerForward := 500
      calibratedReadTimeNsPerForward := none
      observedStrategyLatencyNs := none }
  calibration :=
    { calibrationIdentifier := none
      calibrationPlanIdentifier := none
      calibrationPlanVersion := none
      calibrationRulesetVersion := none
      observationIdentifiers := [] }
  reasons :=
    [{ code := .cpuStrategySelected, value := none },
      { code := .calibrationNotRequested, value := some 0 }]

theorem samplePlan_fits : samplePlan.Fits where
  persistenceSchema := by decide
  executionSchema := by decide
  ruleset := by decide
  ramBudget := by decide
  threads := by decide
  layerCache := by unfold LayerCacheDecision.Fits; decide
  reservations := by constructor <;> decide
  cost := by constructor <;> simp [samplePlan, u64Bound]
  calibration := by constructor <;> simp [samplePlan]
  reasons := by simp [samplePlan, PlanReason.Fits]

theorem format_exact_sample : ∃ b, samplePlan.toBytes = .ok b ∧ fromBytes b = .ok samplePlan ∧
    ∃ e, fromBytes (b ++ [0]) = .err e := by
  obtain ⟨b, hb⟩ : ∃ b, samplePlan.toBytes = .ok b := exists_of_isOk (by decide +kernel)
  obtain ⟨hencode, -, -, hextend, -⟩ := format_exact
  have hrun := hencode samplePlan b samplePlan_fits hb
  refine ⟨b, hb, hrun, hextend b (b ++ [0]) samplePlan hrun (List.prefix_append _ _) ?_⟩
  exact fun h => by simpa using congrArg List.length h

end PersistedExecutionPlan
end Planner
end Ramforge
