/-
Who owns an allocation, over whole runs of the registry.

`Owned` says that the index of allocations is exactly what the live records say.
-/
import Ramforge.Core.ResourceTotals
import Ramforge.Rust.Trace

namespace Ramforge
namespace Resource

open Std Rust Rust.Exec Rust.MapSum Rust.Trace

namespace ResourceAccounting

variable {accounting accounting' : ResourceAccounting} {record : ResourceRecord} {id : ResourceId}

/-! ## What a call does -/

/-- The index once the allocation of `record` is in it. -/
def ownersWith (accounting : ResourceAccounting) (record : ResourceRecord) :
    ExtTreeMap AllocationId ResourceId :=
  match record.allocation with
  | some allocation => accounting.allocationOwners.insert allocation.id record.id
  | none => accounting.allocationOwners

def ownersWithout (accounting : ResourceAccounting) (record : ResourceRecord) :
    ExtTreeMap AllocationId ResourceId :=
  match record.allocation with
  | some allocation => accounting.allocationOwners.erase allocation.id
  | none => accounting.allocationOwners

/-- An insert fails and changes nothing, or both ids are new. -/
theorem insert_cases (record : ResourceRecord) (accounting : ResourceAccounting) :
    (∃ e, insert record accounting = (.err e, accounting)) ∨
      (accounting.get record.id = none ∧
        (∀ allocation, record.allocation = some allocation →
          accounting.allocationOwners[allocation.id]? = none) ∧
        insert record accounting = (.ok (),
          { accounting with
            allocationOwners := accounting.ownersWith record
            resources := accounting.resources.insert record.id record })) := by
  by_cases hid : record.id.value = ""
  · refine .inl ⟨.invalidResource "resource ID must not be empty", ?_⟩
    simp only [insert, failIf_bind_run, hid, if_true]
  cases hget : accounting.resources[record.id]? with
  | some old =>
    refine .inl ⟨.duplicateResourceId record.id, ?_⟩
    simp only [insert, failIf_bind_run, hid, if_false, self_bind_run, hget, Option.isSome_some, if_true]
  | none =>
    cases hallocation : record.allocation with
    | none =>
      refine .inr ⟨hget, by simp, ?_⟩
      simp [insert, ownersWith, failIf_bind_run, hid, self_bind_run, hget, hallocation]
    | some allocation =>
      by_cases hempty : allocation.id.value = ""
      · refine .inl ⟨.invalidResource "allocation ID must not be empty", ?_⟩
        simp [insert, failIf_bind_run, hid, self_bind_run, hget, hallocation, hempty]
      cases howner : accounting.allocationOwners[allocation.id]? with
      | some owner =>
        refine .inl ⟨.duplicateAllocationId allocation.id, ?_⟩
        simp [insert, failIf_bind_run, hid, self_bind_run, hget, hallocation, hempty, howner]
      | none =>
        refine .inr ⟨hget, ?_, ?_⟩
        · rintro _ ⟨⟩
          exact howner
        · simp [insert, ownersWith, failIf_bind_run, hid, self_bind_run, hget, hallocation, hempty,
            howner]

theorem remove_cases (id : ResourceId) (accounting : ResourceAccounting) :
    (accounting.get id = none ∧ remove id accounting = (.ok none, accounting)) ∨
      ∃ record, accounting.get id = some record ∧
        remove id accounting = (.ok (some record),
          { accounting with
            allocationOwners := accounting.ownersWithout record
            resources := accounting.resources.erase id }) := by
  cases hget : accounting.resources[id]? with
  | none => exact .inl ⟨hget, by simp only [remove, self_bind_run, hget, pure_run]⟩
  | some record =>
    refine .inr ⟨record, hget, ?_⟩
    cases hallocation : record.allocation <;>
      simp [remove, self_bind_run, hget, hallocation, ownersWithout]

/-! ## Ownership -/

/-- The live record under `id` has the allocation. -/
def HasAllocation (accounting : ResourceAccounting) (id : ResourceId) (allocation : AllocationId) :
    Prop :=
  ∃ record, accounting.get id = some record ∧
    record.allocation.map AllocationRecord.id = some allocation

structure Owned (accounting : ResourceAccounting) : Prop where
  keyed : ∀ id record, accounting.get id = some record → record.id = id
  owners_iff : ∀ allocation id, accounting.allocationOwners[allocation]? = some id ↔
    accounting.HasAllocation id allocation

/-- No allocation has two live owners. -/
theorem Owned.unique (h : accounting.Owned) {id' : ResourceId} {allocation : AllocationId}
    (hid : accounting.HasAllocation id allocation) (hid' : accounting.HasAllocation id' allocation) :
    id = id' :=
  Option.some.inj (((h.owners_iff allocation id).mpr hid).symm.trans
    ((h.owners_iff allocation id').mpr hid'))

theorem owned_new (budgets : ResourceBudgets) : (new budgets).Owned where
  keyed id record h := by simp [new, get] at h
  owners_iff allocation id := by simp [new, HasAllocation, get]

theorem Owned.insert (h : accounting.Owned) (record : ResourceRecord) :
    (ResourceAccounting.insert record accounting).2.Owned := by
  rcases insert_cases record accounting with ⟨e, hrun⟩ | ⟨hnew, hfree, hrun⟩
  · rw [hrun]
    exact h
  rw [hrun]
  have hget : ∀ id, (accounting.resources.insert record.id record)[id]? =
      if id = record.id then some record else accounting.get id :=
    fun id => getElem?_insert' accounting.resources record.id id record
  refine ⟨fun id record' hid => ?_, fun allocation id => ?_⟩
  · change (accounting.resources.insert record.id record)[id]? = some record' at hid
    rw [hget] at hid
    split at hid
    · cases hid
      exact (by assumption : id = record.id).symm
    · exact h.keyed id record' hid
  · show (accounting.ownersWith record)[allocation]? = some id ↔
      ∃ record', (accounting.resources.insert record.id record)[id]? = some record' ∧ _
    have hold := h.owners_iff allocation id
    cases hallocation : record.allocation with
    | none =>
      simp only [ownersWith, hallocation, hold, HasAllocation, hget]
      by_cases hid : id = record.id
      · subst hid
        simp [hnew, hallocation]
      · simp [hid]
    | some own =>
      have hunowned := hfree own hallocation
      simp only [ownersWith, hallocation, getElem?_insert', hget]
      by_cases hid : id = record.id
      · subst hid
        have hnone : ¬accounting.HasAllocation record.id allocation := by
          rintro ⟨record', hrecord', -⟩
          rw [hnew] at hrecord'
          cases hrecord'
        by_cases hown : allocation = own.id
        · simp [hown, hallocation]
        · simp [hown, hold, hnone, hallocation, Ne.symm hown]
      · by_cases hown : allocation = own.id
        · subst hown
          rw [if_pos rfl, if_neg hid]
          refine ⟨fun heq => absurd (Option.some.inj heq).symm hid, fun hhas => ?_⟩
          rw [(h.owners_iff own.id id).mpr hhas] at hunowned
          cases hunowned
        · rw [if_neg hown, if_neg hid]
          exact hold

theorem Owned.remove (h : accounting.Owned) (id : ResourceId) :
    (ResourceAccounting.remove id accounting).2.Owned := by
  rcases remove_cases id accounting with ⟨-, hrun⟩ | ⟨record, hlive, hrun⟩
  · rw [hrun]
    exact h
  rw [hrun]
  have hget : ∀ id', (accounting.resources.erase id)[id']? =
      if id' = id then none else accounting.get id' :=
    fun id' => getElem?_erase' accounting.resources id id'
  refine ⟨fun id' record' hid => ?_, fun allocation id' => ?_⟩
  · change (accounting.resources.erase id)[id']? = some record' at hid
    rw [hget] at hid
    split at hid
    · cases hid
    · exact h.keyed id' record' hid
  · show (accounting.ownersWithout record)[allocation]? = some id' ↔
      ∃ record', (accounting.resources.erase id)[id']? = some record' ∧ _
    have hold := h.owners_iff allocation id'
    have hself : accounting.HasAllocation id allocation →
        record.allocation.map AllocationRecord.id = some allocation := by
      rintro ⟨record', hrecord', hid⟩
      rw [hlive] at hrecord'
      cases hrecord'
      exact hid
    cases hallocation : record.allocation with
    | none =>
      simp only [ownersWithout, hallocation, hget, hold]
      by_cases hid : id' = id
      · subst hid
        rw [if_pos rfl]
        refine ⟨fun hhas => ?_, ?_⟩
        · have := hself hhas
          rw [hallocation] at this
          cases this
        · rintro ⟨_, hnone, -⟩
          cases hnone
      · rw [if_neg hid]
        exact Iff.rfl
    | some own =>
      have howner : accounting.allocationOwners[own.id]? = some id :=
        (h.owners_iff own.id id).mpr ⟨record, hlive, by rw [hallocation]; rfl⟩
      simp only [ownersWithout, hallocation, getElem?_erase', hget]
      by_cases hid : id' = id
      · subst hid
        rw [if_pos rfl]
        refine ⟨fun heq => ?_, ?_⟩
        · split at heq
          · cases heq
          · have := hself (hold.mp heq)
            rw [hallocation] at this
            exact absurd (Option.some.inj this).symm (by assumption)
        · rintro ⟨_, hnone, -⟩
          cases hnone
      · rw [if_neg hid]
        by_cases hown : allocation = own.id
        · subst hown
          rw [if_pos rfl]
          refine ⟨fun heq => (by cases heq), fun hhas => ?_⟩
          rw [(h.owners_iff own.id id').mpr hhas] at howner
          exact absurd (Option.some.inj howner) hid
        · rw [if_neg hown]
          exact hold

end ResourceAccounting

/-! ## Runs -/

inductive AccountingCall where
  | insert (record : ResourceRecord)
  | remove (id : ResourceId)

namespace AccountingCall

def run : AccountingCall → ResourceAccounting →
    Outcome ResourceAccountingError (Option ResourceRecord) × ResourceAccounting
  | .insert record => (fun _ => none) <$> ResourceAccounting.insert record
  | .remove id => ResourceAccounting.remove id

end AccountingCall

/-- The registry after some calls. -/
def accountingAfter (budgets : ResourceBudgets) (calls : List AccountingCall) : ResourceAccounting :=
  final AccountingCall.run (ResourceAccounting.new budgets) calls

namespace ResourceAccounting

variable {accounting accounting' : ResourceAccounting}

theorem owned_run (call : AccountingCall) (h : accounting.Owned) : (call.run accounting).2.Owned := by
  cases call with
  | insert record =>
    rw [AccountingCall.run, map_run]
    exact h.insert record
  | remove id => exact h.remove id

theorem budgets_run (call : AccountingCall) (accounting : ResourceAccounting) :
    (call.run accounting).2.budgets = accounting.budgets := by
  cases call with
  | insert record =>
    rw [AccountingCall.run, map_run]
    rcases insert_cases record accounting with ⟨e, hrun⟩ | ⟨-, -, hrun⟩ <;> rw [hrun]
  | remove id =>
    rw [AccountingCall.run]
    rcases remove_cases id accounting with ⟨-, hrun⟩ | ⟨record, -, hrun⟩ <;> rw [hrun]

theorem owned_after (budgets : ResourceBudgets) (calls : List AccountingCall) :
    (accountingAfter budgets calls).Owned :=
  final_of_step AccountingCall.run (fun _ call h => owned_run call h) (owned_new budgets) calls

theorem budgets_after (budgets : ResourceBudgets) (calls : List AccountingCall) :
    (accountingAfter budgets calls).budgets = budgets :=
  final_of_step AccountingCall.run (I := fun accounting => accounting.budgets = budgets)
    (fun accounting call h => (budgets_run call accounting).trans h) rfl calls

/-- A failing insert leaves the registry as it was. -/
theorem insert_err {record : ResourceRecord} {e : ResourceAccountingError}
    (h : insert record accounting = (.err e, accounting')) : accounting' = accounting := by
  rcases insert_cases record accounting with ⟨e', hrun⟩ | ⟨-, -, hrun⟩
  · rw [hrun] at h
    cases h
    rfl
  · rw [hrun] at h
    cases h

/-! ## Live records -/

theorem mem_records_iff (h : accounting.Owned) {record : ResourceRecord} :
    record ∈ accounting.records ↔ accounting.get record.id = some record := by
  rw [records, List.mem_map]
  constructor
  · rintro ⟨⟨id, _⟩, hmem, rfl⟩
    have hget := ExtTreeMap.mem_toList_iff_getElem?_eq_some.mp hmem
    rwa [h.keyed id _ hget]
  · intro hget
    exact ⟨(record.id, record), ExtTreeMap.mem_toList_iff_getElem?_eq_some.mpr hget, rfl⟩

theorem nodup_records (h : accounting.Owned) : accounting.records.Nodup := by
  refine (nodup_toList accounting.resources).map_on ?_
  rintro ⟨id, record⟩ hid ⟨id', _⟩ hid' rfl
  have hkeyed := h.keyed id _ (ExtTreeMap.mem_toList_iff_getElem?_eq_some.mp hid)
  have hkeyed' := h.keyed id' _ (ExtTreeMap.mem_toList_iff_getElem?_eq_some.mp hid')
  rw [← hkeyed, ← hkeyed']

/-- A snapshot sees the live records and the budgets, and not how they came about. -/
theorem snapshot_congr (hbudgets : accounting.budgets = accounting'.budgets)
    (hget : ∀ id, accounting.get id = accounting'.get id) :
    accounting.snapshot = accounting'.snapshot := by
  have hresources : accounting.resources = accounting'.resources := ExtTreeMap.ext_getElem? hget
  simp only [snapshot, records, emptySnapshot, hresources, hbudgets]

/-- The ownership index, the live records and the snapshot of any run. -/
theorem accounting_sound (budgets : ResourceBudgets) (calls : List AccountingCall) :
    (accountingAfter budgets calls).Owned ∧
      (∀ record e accounting',
        insert record (accountingAfter budgets calls) = (.err e, accounting') →
          accounting' = accountingAfter budgets calls) ∧
      (accountingAfter budgets calls).records.Nodup ∧
      (∀ record, record ∈ (accountingAfter budgets calls).records ↔
        (accountingAfter budgets calls).get record.id = some record) ∧
      ((∃ s, (accountingAfter budgets calls).snapshot = .ok s ∧
          Sums (accountingAfter budgets calls).records s ∧
          Fit (accountingAfter budgets calls).records) ∨
        ∃ label, (accountingAfter budgets calls).snapshot = .error (.arithmeticOverflow label) ∧
          ¬Fit (accountingAfter budgets calls).records) ∧
      ∀ calls', (∀ id, (accountingAfter budgets calls).get id =
          (accountingAfter budgets calls').get id) →
        (accountingAfter budgets calls).snapshot = (accountingAfter budgets calls').snapshot := by
  have howned := owned_after budgets calls
  refine ⟨howned, fun record e accounting' => insert_err, nodup_records howned,
    fun record => mem_records_iff howned, snapshot_cases _, fun calls' hget => ?_⟩
  refine snapshot_congr ?_ hget
  rw [budgets_after, budgets_after]

end ResourceAccounting
end Resource
end Ramforge
