/-
The totals of a snapshot as sums over the records.

Each record posts at most one measurement to each ledger of a snapshot.  A ledger
keeps the sum of what is posted, part by part.
-/
import Ramforge.Core.Resource
import Ramforge.Rust.MapSum

namespace Ramforge
namespace Resource

open Std Rust Rust.MapSum

/-! ## Parts of a measurement -/

namespace ByteMeasurement

def exactPart (m : ByteMeasurement) : Nat := if m.certainty = .exact then m.bytes.getD 0 else 0

def estimatedPart (m : ByteMeasurement) : Nat :=
  if m.certainty = .estimated then m.bytes.getD 0 else 0

def unknownPart (m : ByteMeasurement) : Nat := if m.certainty = .unknown then 1 else 0

def unknownReason (m : ByteMeasurement) (label : String) : List String :=
  if m.certainty = .unknown then [s!"{label} ({m.provenance.description})"] else []

end ByteMeasurement

/-- A measurement under its label. -/
abbrev Posting : Type := ByteMeasurement × String

/-- The sum of some postings. -/
def totalOf (postings : List Posting) : ByteTotal where
  exactBytes := (postings.map fun p => p.1.exactPart).sum
  estimatedBytes := (postings.map fun p => p.1.estimatedPart).sum
  unknownContributions := (postings.map fun p => p.1.unknownPart).sum
  unknownReasons := postings.flatMap fun p => p.1.unknownReason p.2

namespace ByteTotal

def plus (t : ByteTotal) (p : Posting) : ByteTotal where
  exactBytes := t.exactBytes + p.1.exactPart
  estimatedBytes := t.estimatedBytes + p.1.estimatedPart
  unknownContributions := t.unknownContributions + p.1.unknownPart
  unknownReasons := t.unknownReasons ++ p.1.unknownReason p.2

/-- Each count of the total is a `u64`. -/
structure Fits (t : ByteTotal) : Prop where
  exact : t.exactBytes < u64Bound
  estimated : t.estimatedBytes < u64Bound
  unknown : t.unknownContributions < u64Bound

theorem addMeasurement_cases {t : ByteTotal} (ht : t.Fits) (m : ByteMeasurement) (label : String) :
    (t.addMeasurement m label = .ok (t.plus (m, label)) ∧ (t.plus (m, label)).Fits) ∨
      (t.addMeasurement m label = .error (.arithmeticOverflow label) ∧ ¬(t.plus (m, label)).Fits) := by
  obtain ⟨bytes, certainty, provenance, hknown⟩ := m
  cases certainty with
  | exact =>
    obtain ⟨n, rfl⟩ := Option.isSome_iff_exists.mp (hknown.mpr (by decide))
    have hplus : t.plus (⟨some n, .exact, provenance, hknown⟩, label) =
        { t with exactBytes := t.exactBytes + n } := by
      simp [plus, ByteMeasurement.exactPart, ByteMeasurement.estimatedPart,
        ByteMeasurement.unknownPart, ByteMeasurement.unknownReason]
    rw [hplus]
    cases hadd : checkedAdd t.exactBytes n with
    | some sum =>
      obtain ⟨hlt, rfl⟩ := checkedAdd_eq_some.mp hadd
      exact .inl ⟨by simp [addMeasurement, hadd], hlt, ht.estimated, ht.unknown⟩
    | none =>
      have hge := checkedAdd_eq_none.mp hadd
      exact .inr ⟨by simp [addMeasurement, hadd], fun h => absurd h.exact (Nat.not_lt.mpr hge)⟩
  | estimated =>
    obtain ⟨n, rfl⟩ := Option.isSome_iff_exists.mp (hknown.mpr (by decide))
    have hplus : t.plus (⟨some n, .estimated, provenance, hknown⟩, label) =
        { t with estimatedBytes := t.estimatedBytes + n } := by
      simp [plus, ByteMeasurement.exactPart, ByteMeasurement.estimatedPart,
        ByteMeasurement.unknownPart, ByteMeasurement.unknownReason]
    rw [hplus]
    cases hadd : checkedAdd t.estimatedBytes n with
    | some sum =>
      obtain ⟨hlt, rfl⟩ := checkedAdd_eq_some.mp hadd
      exact .inl ⟨by simp [addMeasurement, hadd], ht.exact, hlt, ht.unknown⟩
    | none =>
      have hge := checkedAdd_eq_none.mp hadd
      exact .inr ⟨by simp [addMeasurement, hadd], fun h => absurd h.estimated (Nat.not_lt.mpr hge)⟩
  | unknown =>
    obtain rfl : bytes = none := by
      cases bytes with
      | none => rfl
      | some n => exact absurd rfl (hknown.mp rfl)
    have hplus : t.plus (⟨none, .unknown, provenance, hknown⟩, label) =
        { t with
          unknownContributions := t.unknownContributions + 1
          unknownReasons := t.unknownReasons ++ [s!"{label} ({provenance.description})"] } := by
      simp [plus, ByteMeasurement.exactPart, ByteMeasurement.estimatedPart,
        ByteMeasurement.unknownPart, ByteMeasurement.unknownReason]
    rw [hplus]
    cases hadd : checkedAdd t.unknownContributions 1 with
    | some sum =>
      obtain ⟨hlt, rfl⟩ := checkedAdd_eq_some.mp hadd
      exact .inl ⟨by simp [addMeasurement, hadd], ht.exact, ht.estimated, hlt⟩
    | none =>
      have hge := checkedAdd_eq_none.mp hadd
      exact .inr ⟨by simp [addMeasurement, hadd], fun h => absurd h.unknown (Nat.not_lt.mpr hge)⟩

end ByteTotal

theorem totalOf_concat (l : List Posting) (p : Posting) :
    totalOf (l ++ [p]) = (totalOf l).plus p := by
  simp [totalOf, ByteTotal.plus]

theorem totalOf_nil : totalOf [] = ByteTotal.default := rfl

theorem default_fits : ByteTotal.default.Fits :=
  ⟨by decide, by decide, by decide⟩

/-! ## Ledgers -/

section ledger

variable {κ : Type} [DecidableEq κ] {cmp : κ → κ → Ordering} [TransCmp cmp] [LawfulEqCmp cmp]
  {records : List ResourceRecord} {record : ResourceRecord}

/-- The postings of some records to a ledger with a single total. -/
def total (post : ResourceRecord → Option Posting) (records : List ResourceRecord) : ByteTotal :=
  totalOf (records.filterMap post)

/-- What a ledger with keys has under one of them. -/
def under (post : ResourceRecord → Option (κ × Posting)) (key : κ) (record : ResourceRecord) :
    Option Posting :=
  (post record).bind fun p => if p.1 = key then some p.2 else none

theorem total_concat_none {post : ResourceRecord → Option Posting} (h : post record = none) :
    total post (records ++ [record]) = total post records := by
  simp [total, h]

theorem total_concat_some {post : ResourceRecord → Option Posting} {p : Posting}
    (h : post record = some p) :
    total post (records ++ [record]) = (total post records).plus p := by
  rw [total, List.filterMap_append, List.filterMap_cons, h, List.filterMap_nil, totalOf_concat, total]

def charge (t : ByteTotal) : Option Posting → Except ResourceAccountingError ByteTotal
  | some (m, label) => t.addMeasurement m label
  | none => pure t

def chargeAt (map : ExtTreeMap κ ByteTotal cmp) :
    Option (κ × Posting) → Except ResourceAccountingError (ExtTreeMap κ ByteTotal cmp)
  | some (key, m, label) => addTotal map key m label
  | none => pure map

theorem charge_cases {post : ResourceRecord → Option Posting} (record : ResourceRecord)
    (hfits : (total post records).Fits) :
    (charge (total post records) (post record) = .ok (total post (records ++ [record])) ∧
        (total post (records ++ [record])).Fits) ∨
      ∃ label, charge (total post records) (post record) = .error (.arithmeticOverflow label) ∧
        ¬(total post (records ++ [record])).Fits := by
  cases hpost : post record with
  | none =>
    rw [total_concat_none hpost]
    exact .inl ⟨rfl, hfits⟩
  | some p =>
    rw [total_concat_some hpost]
    exact (ByteTotal.addMeasurement_cases hfits p.1 p.2).imp_right fun h => ⟨p.2, h⟩

/-- The map has the totals of the records; a key without an entry has the empty total. -/
def Holds (post : ResourceRecord → Option (κ × Posting)) (records : List ResourceRecord)
    (map : ExtTreeMap κ ByteTotal cmp) : Prop :=
  ∀ key, map[key]?.getD ByteTotal.default = total (under post key) records

theorem chargeAt_cases {post : ResourceRecord → Option (κ × Posting)}
    {map : ExtTreeMap κ ByteTotal cmp} (record : ResourceRecord) (hmap : Holds post records map)
    (hfits : ∀ key, (total (under post key) records).Fits) :
    (∃ map', chargeAt map (post record) = .ok map' ∧ Holds post (records ++ [record]) map' ∧
        ∀ key, (total (under post key) (records ++ [record])).Fits) ∨
      ∃ label, chargeAt map (post record) = .error (.arithmeticOverflow label) ∧
        ¬∀ key, (total (under post key) (records ++ [record])).Fits := by
  cases hpost : post record with
  | none =>
    have hsame : ∀ key, total (under post key) (records ++ [record]) =
        total (under post key) records := fun key =>
      total_concat_none (by rw [under, hpost]; rfl)
    refine .inl ⟨map, rfl, fun key => ?_, fun key => ?_⟩
    · rw [hsame]
      exact hmap key
    · rw [hsame]
      exact hfits key
  | some entry =>
    obtain ⟨key, m, label⟩ := entry
    have hat : total (under post key) (records ++ [record]) =
        (total (under post key) records).plus (m, label) :=
      total_concat_some (by rw [under, hpost, Option.bind_some, if_pos rfl])
    have hother : ∀ key', key' ≠ key → total (under post key') (records ++ [record]) =
        total (under post key') records := fun key' hne =>
      total_concat_none (by rw [under, hpost, Option.bind_some, if_neg (Ne.symm hne)])
    rcases ByteTotal.addMeasurement_cases (hfits key) m label with ⟨hrun, hfit⟩ | ⟨hrun, hover⟩
    · refine .inl ⟨map.insert key ((total (under post key) records).plus (m, label)), ?_,
        fun key' => ?_, fun key' => ?_⟩
      · show addTotal map key m label = _
        rw [addTotal, hmap key, hrun]
        rfl
      · rw [getElem?_insert']
        by_cases h : key' = key
        · subst h
          rw [if_pos rfl, hat, Option.getD_some]
        · rw [if_neg h, hother key' h]
          exact hmap key'
      · by_cases h : key' = key
        · subst h
          rwa [hat]
        · rw [hother key' h]
          exact hfits key'
    · refine .inr ⟨label, ?_, fun h => hover ?_⟩
      · show addTotal map key m label = _
        rw [addTotal, hmap key, hrun]
        rfl
      · rw [← hat]
        exact h key

end ledger

/-! ## What a record posts -/

def logicalPost (record : ResourceRecord) : Option Posting :=
  if record.kind.category = .weights then
    some (record.origin.logicalBytes, s!"logical model tensor '{record.id}'")
  else none

def filePost (record : ResourceRecord) : Option Posting :=
  record.origin.fileRange.map fun range => (range.byteLength, s!"file-backed range '{record.id}'")

def storagePost (record : ResourceRecord) : Option (MemoryDomain × Posting) :=
  record.origin.fileRange.map fun range =>
    (.storage, range.byteLength, s!"storage range '{record.id}'")

/-- The posting of one part of an allocation, under its domain. -/
def allocationPost (part : AllocationRecord → ByteMeasurement) (label : String)
    (record : ResourceRecord) : Option (MemoryDomain × Posting) :=
  record.allocation.map fun allocation =>
    (allocation.domain, part allocation, s!"{label}{record.id}'")

def requestedPost : ResourceRecord → Option (MemoryDomain × Posting) :=
  allocationPost AllocationRecord.requestedBytes "requested allocation '"

def actualPost : ResourceRecord → Option (MemoryDomain × Posting) :=
  allocationPost AllocationRecord.actualBytes "actual allocation '"

def paddingPost : ResourceRecord → Option (MemoryDomain × Posting) :=
  allocationPost AllocationRecord.alignmentPaddingBytes "allocation padding '"

def residentPost : ResourceRecord → Option (MemoryDomain × Posting) :=
  allocationPost AllocationRecord.residentBytes "resident allocation '"

def categoryPost (record : ResourceRecord) :
    Option ((MemoryDomain × ResourceCategory) × Posting) :=
  record.allocation.map fun allocation =>
    ((allocation.domain, record.kind.category), allocation.actualBytes,
      s!"category allocation '{record.id}'")

/-- Every total of the snapshot is the sum over the records. -/
structure Sums (records : List ResourceRecord) (s : ResourceAccountingSnapshot) : Prop where
  logical : s.logicalModelBytes = total logicalPost records
  file : s.fileBackedBytes = total filePost records
  storage : Holds storagePost records s.fileBackedBytesByDomain
  requested : Holds requestedPost records s.requestedAllocationBytes
  actual : Holds actualPost records s.actualAllocationBytes
  padding : Holds paddingPost records s.alignmentPaddingBytes
  resident : Holds residentPost records s.residentBytes
  category : Holds categoryPost records s.actualByCategoryAndDomain

/-- No sum leaves `u64`. -/
structure Fit (records : List ResourceRecord) : Prop where
  logical : (total logicalPost records).Fits
  file : (total filePost records).Fits
  storage : ∀ key, (total (under storagePost key) records).Fits
  requested : ∀ key, (total (under requestedPost key) records).Fits
  actual : ∀ key, (total (under actualPost key) records).Fits
  padding : ∀ key, (total (under paddingPost key) records).Fits
  resident : ∀ key, (total (under residentPost key) records).Fits
  category : ∀ key, (total (under categoryPost key) records).Fits

/-- A round of the loop charges the eight ledgers in turn. -/
theorem addRecord_eq (s : ResourceAccountingSnapshot) (record : ResourceRecord) :
    addRecord s record = (do
      let logical ← charge s.logicalModelBytes (logicalPost record)
      let file ← charge s.fileBackedBytes (filePost record)
      let storage ← chargeAt s.fileBackedBytesByDomain (storagePost record)
      let requested ← chargeAt s.requestedAllocationBytes (requestedPost record)
      let actual ← chargeAt s.actualAllocationBytes (actualPost record)
      let padding ← chargeAt s.alignmentPaddingBytes (paddingPost record)
      let resident ← chargeAt s.residentBytes (residentPost record)
      let category ← chargeAt s.actualByCategoryAndDomain (categoryPost record)
      pure
        { s with
          logicalModelBytes := logical
          fileBackedBytes := file
          fileBackedBytesByDomain := storage
          requestedAllocationBytes := requested
          actualAllocationBytes := actual
          alignmentPaddingBytes := padding
          residentBytes := resident
          actualByCategoryAndDomain := category }) := by
  by_cases hweights : record.kind.category = .weights <;>
    cases hfile : record.origin.fileRange <;> cases hallocation : record.allocation <;>
    simp only [addRecord, logicalPost, filePost, storagePost, requestedPost, actualPost, paddingPost,
      residentPost, categoryPost, allocationPost, hweights, hfile, hallocation, if_true, if_false,
      Option.map, charge, chargeAt, pure_bind]

theorem bind_ok {α β : Type} {x : Except ResourceAccountingError α} {a : α}
    {k : α → Except ResourceAccountingError β} (h : x = .ok a) : x >>= k = k a := by
  rw [h]
  rfl

theorem bind_error {α β : Type} {x : Except ResourceAccountingError α} {e : ResourceAccountingError}
    {k : α → Except ResourceAccountingError β} (h : x = .error e) : x >>= k = .error e := by
  rw [h]
  rfl

/-- A round either posts the record to every ledger, or some sum overflows with it. -/
theorem addRecord_cases {records : List ResourceRecord} {s : ResourceAccountingSnapshot}
    (record : ResourceRecord) (hs : Sums records s) (hfit : Fit records) :
    (∃ s', addRecord s record = .ok s' ∧ Sums (records ++ [record]) s' ∧
        Fit (records ++ [record])) ∨
      ∃ label, addRecord s record = .error (.arithmeticOverflow label) ∧
        ¬Fit (records ++ [record]) := by
  rw [addRecord_eq, hs.logical, hs.file]
  rcases charge_cases record hfit.logical with ⟨hlogical, hfitLogical⟩ | ⟨label, hrun, hover⟩
  case inr => exact .inr ⟨label, bind_error hrun, fun h => hover h.logical⟩
  rcases charge_cases record hfit.file with ⟨hfile, hfitFile⟩ | ⟨label, hrun, hover⟩
  case inr => exact .inr ⟨label, by rw [bind_ok hlogical, bind_error hrun], fun h => hover h.file⟩
  rcases chargeAt_cases record hs.storage hfit.storage with
    ⟨storage, hstorage, hsStorage, hfitStorage⟩ | ⟨label, hrun, hover⟩
  case inr =>
    refine .inr ⟨label, ?_, fun h => hover h.storage⟩
    rw [bind_ok hlogical, bind_ok hfile, bind_error hrun]
  rcases chargeAt_cases record hs.requested hfit.requested with
    ⟨requested, hrequested, hsRequested, hfitRequested⟩ | ⟨label, hrun, hover⟩
  case inr =>
    refine .inr ⟨label, ?_, fun h => hover h.requested⟩
    rw [bind_ok hlogical, bind_ok hfile, bind_ok hstorage, bind_error hrun]
  rcases chargeAt_cases record hs.actual hfit.actual with
    ⟨actual, hactual, hsActual, hfitActual⟩ | ⟨label, hrun, hover⟩
  case inr =>
    refine .inr ⟨label, ?_, fun h => hover h.actual⟩
    rw [bind_ok hlogical, bind_ok hfile, bind_ok hstorage, bind_ok hrequested, bind_error hrun]
  rcases chargeAt_cases record hs.padding hfit.padding with
    ⟨padding, hpadding, hsPadding, hfitPadding⟩ | ⟨label, hrun, hover⟩
  case inr =>
    refine .inr ⟨label, ?_, fun h => hover h.padding⟩
    rw [bind_ok hlogical, bind_ok hfile, bind_ok hstorage, bind_ok hrequested, bind_ok hactual,
      bind_error hrun]
  rcases chargeAt_cases record hs.resident hfit.resident with
    ⟨resident, hresident, hsResident, hfitResident⟩ | ⟨label, hrun, hover⟩
  case inr =>
    refine .inr ⟨label, ?_, fun h => hover h.resident⟩
    rw [bind_ok hlogical, bind_ok hfile, bind_ok hstorage, bind_ok hrequested, bind_ok hactual,
      bind_ok hpadding, bind_error hrun]
  rcases chargeAt_cases record hs.category hfit.category with
    ⟨category, hcategory, hsCategory, hfitCategory⟩ | ⟨label, hrun, hover⟩
  case inr =>
    refine .inr ⟨label, ?_, fun h => hover h.category⟩
    rw [bind_ok hlogical, bind_ok hfile, bind_ok hstorage, bind_ok hrequested, bind_ok hactual,
      bind_ok hpadding, bind_ok hresident, bind_error hrun]
  rw [bind_ok hlogical, bind_ok hfile, bind_ok hstorage, bind_ok hrequested, bind_ok hactual,
    bind_ok hpadding, bind_ok hresident, bind_ok hcategory]
  exact .inl ⟨_, rfl,
    ⟨rfl, rfl, hsStorage, hsRequested, hsActual, hsPadding, hsResident, hsCategory⟩,
    ⟨hfitLogical, hfitFile, hfitStorage, hfitRequested, hfitActual, hfitPadding, hfitResident,
      hfitCategory⟩⟩

/-! ## A whole snapshot -/

theorem total_fits_of_append {post : ResourceRecord → Option Posting} {records rest : List ResourceRecord}
    (h : (total post (records ++ rest)).Fits) : (total post records).Fits := by
  obtain ⟨hexact, hestimated, hunknown⟩ := h
  simp only [total, totalOf, List.filterMap_append, List.map_append, List.sum_append] at *
  exact ⟨by simp only; omega, by simp only; omega, by simp only; omega⟩

theorem Fit.of_append {records rest : List ResourceRecord} (h : Fit (records ++ rest)) :
    Fit records where
  logical := total_fits_of_append h.logical
  file := total_fits_of_append h.file
  storage key := total_fits_of_append (h.storage key)
  requested key := total_fits_of_append (h.requested key)
  actual key := total_fits_of_append (h.actual key)
  padding key := total_fits_of_append (h.padding key)
  resident key := total_fits_of_append (h.resident key)
  category key := total_fits_of_append (h.category key)

theorem foldlM_addRecord {records rest : List ResourceRecord} {s : ResourceAccountingSnapshot}
    (hs : Sums records s) (hfit : Fit records) :
    (∃ s', rest.foldlM addRecord s = .ok s' ∧ Sums (records ++ rest) s' ∧ Fit (records ++ rest)) ∨
      ∃ label, rest.foldlM addRecord s = .error (.arithmeticOverflow label) ∧
        ¬Fit (records ++ rest) := by
  induction rest generalizing records s with
  | nil =>
    rw [List.append_nil]
    exact .inl ⟨s, rfl, hs, hfit⟩
  | cons record rest ih =>
    rw [List.append_cons, List.foldlM_cons]
    rcases addRecord_cases record hs hfit with ⟨s₁, hrun, hs₁, hfit₁⟩ | ⟨label, hrun, hover⟩
    · rw [bind_ok hrun]
      exact ih hs₁ hfit₁
    · rw [bind_error hrun]
      exact .inr ⟨label, rfl, fun h => hover h.of_append⟩

theorem emptySnapshot_sums (accounting : ResourceAccounting) : Sums [] accounting.emptySnapshot where
  logical := rfl
  file := rfl
  storage key := by simp [ResourceAccounting.emptySnapshot, total, totalOf_nil]
  requested key := by simp [ResourceAccounting.emptySnapshot, total, totalOf_nil]
  actual key := by simp [ResourceAccounting.emptySnapshot, total, totalOf_nil]
  padding key := by simp [ResourceAccounting.emptySnapshot, total, totalOf_nil]
  resident key := by simp [ResourceAccounting.emptySnapshot, total, totalOf_nil]
  category key := by simp [ResourceAccounting.emptySnapshot, total, totalOf_nil]

theorem fit_nil : Fit [] where
  logical := default_fits
  file := default_fits
  storage _ := default_fits
  requested _ := default_fits
  actual _ := default_fits
  padding _ := default_fits
  resident _ := default_fits
  category _ := default_fits

/-- A snapshot has every sum, or reports that one of them leaves `u64`. -/
theorem snapshot_cases (accounting : ResourceAccounting) :
    (∃ s, accounting.snapshot = .ok s ∧ Sums accounting.records s ∧ Fit accounting.records) ∨
      ∃ label, accounting.snapshot = .error (.arithmeticOverflow label) ∧
        ¬Fit accounting.records :=
  foldlM_addRecord (emptySnapshot_sums accounting) fit_nil

end Resource
end Ramforge
