/-
What one layer cache operation can do.

Two changes suffice: an entry is dropped together with its charges, or the active
charges of a layer are taken over by a new entry.
-/
import Ramforge.Runtime.LayerCache
import Ramforge.Core.MemoryBatch
import Ramforge.Rust.Lru

namespace Ramforge
namespace LayerCache

open Rust Rust.Exec Rust.MapSum Rust.KeyMove MemoryBudget

variable {α : Type} {s t : LayerCache α × MemoryBudget} {i : Nat} {e : LayerEntry α}

/-- The prefix of all charges of the cache. -/
def allPrefix : String := "cache:layer:"

/-- The charges of an entry: under its own prefix, all live, adding up to its size. -/
structure Owned (b : MemoryBudget) (i : Nat) (e : LayerEntry α) : Prop where
  nodup : e.chargeNames.Nodup
  under : ∀ n ∈ e.chargeNames, Text.startsWith n (cachePrefix i) = true
  charged : ∀ n ∈ e.chargeNames, (b.get n).isSome
  bytes_eq : e.bytes = b.sumOf e.chargeNames

structure Coherent (s : LayerCache α × MemoryBudget) : Prop where
  accounted : s.2.Accounted
  used_eq : s.1.usedBytes = sumOver (fun _ e => LayerEntry.bytes e) s.1.entries
  used_le : s.1.usedBytes ≤ s.1.capacityBytes
  lru_nodup : s.1.lru.Nodup
  lru_mem : ∀ i, i ∈ s.1.lru ↔ (s.1.entries[i]?).isSome
  owned : ∀ (i : Nat) (e : LayerEntry α), s.1.entries[i]? = some e → Owned s.2 i e
  covered : ∀ n, Text.startsWith n allPrefix = true → (s.2.get n).isSome →
    ∃ (i : Nat) (e : LayerEntry α), s.1.entries[i]? = some e ∧ n ∈ e.chargeNames

/-! ## Prefixes -/

theorem startsWith_allPrefix {n : String} (h : Text.startsWith n (cachePrefix i) = true) :
    Text.startsWith n allPrefix = true := by
  refine Text.startsWith_trans h ?_
  rw [cachePrefix, String.append_assoc]
  exact Text.startsWith_append _ _

theorem cachePrefix_unique {n : String} {j : Nat}
    (hi : Text.startsWith n (cachePrefix i) = true)
    (hj : Text.startsWith n (cachePrefix j) = true) : i = j :=
  Text.numbered_unique (c := ':') rfl rfl hi hj

theorem allPrefix_of_active {n : String} (h : Text.startsWith n (activePrefix i) = true) :
    Text.startsWith n allPrefix = false := by
  by_contra hall
  rw [Bool.not_eq_false] at hall
  have hlayer : Text.startsWith n "layer:" = true := by
    refine Text.startsWith_trans h ?_
    rw [activePrefix, String.append_assoc]
    exact Text.startsWith_append _ _
  rcases Text.startsWith_or hlayer hall with hor | hor
  · exact absurd hor (by decide)
  · exact absurd hor (by decide)

/-- An entry's name that is under another entry's prefix belongs to that entry. -/
theorem Coherent.owner_unique (h : Coherent s) {j : Nat} {e' : LayerEntry α} {n : String}
    (he : s.1.entries[i]? = some e) (he' : s.1.entries[j]? = some e')
    (hn : n ∈ e.chargeNames) (hn' : n ∈ e'.chargeNames) : i = j :=
  cachePrefix_unique ((h.owned i e he).under n hn) ((h.owned j e' he').under n hn')

/-! ## Dropping an entry -/

def dropLayer (i : Nat) (s : LayerCache α × MemoryBudget) : LayerCache α × MemoryBudget :=
  match s.1.entries[i]? with
  | none => s
  | some e =>
    ({ s.1 with
        entries := s.1.entries.erase i
        usedBytes := s.1.usedBytes - e.bytes
        lru := s.1.lru.filter (· ≠ i) },
      dischargeAll e.chargeNames s.2)

theorem dropLayer_of_some (he : s.1.entries[i]? = some e) :
    dropLayer i s =
      ({ s.1 with
          entries := s.1.entries.erase i
          usedBytes := s.1.usedBytes - e.bytes
          lru := s.1.lru.filter (· ≠ i) },
        dischargeAll e.chargeNames s.2) := by
  rw [dropLayer, he]

theorem Coherent.bytes_le (h : Coherent s) (he : s.1.entries[i]? = some e) :
    e.bytes ≤ s.1.usedBytes := by
  rw [h.used_eq]
  exact le_sumOver (fun _ e => LayerEntry.bytes e) he

/-- Dropping one entry leaves the charges of the others alone. -/
theorem Owned.dischargeAll {j : Nat} {e' : LayerEntry α} {b : MemoryBudget} (h : Owned b j e')
    {names : List String} (hd : ∀ n ∈ e'.chargeNames, n ∉ names) :
    Owned (dischargeAll names b) j e' := by
  refine ⟨h.nodup, h.under, fun n hn => ?_, h.bytes_eq.trans (sumOf_congr fun n hn => ?_)⟩
  · rw [get_dischargeAll, if_neg (hd n hn)]
    exact h.charged n hn
  · rw [get_dischargeAll, if_neg (hd n hn)]

theorem dropLayer_coherent (h : Coherent s) (i : Nat) : Coherent (dropLayer i s) := by
  cases he : s.1.entries[i]? with
  | none => rw [dropLayer, he]; exact h
  | some e =>
    have ho := h.owned i e he
    have hle := h.used_le
    rw [dropLayer_of_some he]
    refine ⟨dischargeAll_accounted h.accounted ho.nodup ho.charged, ?_, ?_, h.lru_nodup.filter _,
      fun j => ?_, fun j e' he' => ?_, fun n hn hs => ?_⟩
    · show s.1.usedBytes - e.bytes = sumOver (fun _ e => LayerEntry.bytes e) (s.1.entries.erase i)
      rw [sumOver_erase_of_some _ he, h.used_eq]
    · show s.1.usedBytes - e.bytes ≤ s.1.capacityBytes
      omega
    · show j ∈ s.1.lru.filter (· ≠ i) ↔ ((s.1.entries.erase i)[j]?).isSome
      rw [List.mem_filter, getElem?_erase', h.lru_mem j]
      by_cases hj : j = i
      · simp [hj]
      · simp [hj]
    · have hej : (s.1.entries.erase i)[j]? = some e' := he'
      rw [getElem?_erase'] at hej
      split at hej
      · cases hej
      · rename_i hji
        exact (h.owned j e' hej).dischargeAll fun n hn hne =>
          hji (h.owner_unique hej he hn hne)
    · have hget : ((MemoryBudget.dischargeAll e.chargeNames s.2).get n).isSome := hs
      rw [get_dischargeAll] at hget
      split at hget
      · cases hget
      · rename_i hnot
        obtain ⟨j, e', he', hn'⟩ := h.covered n hn hget
        have hji : j ≠ i := by
          intro hji
          subst hji
          rw [he] at he'
          cases he'
          exact hnot hn'
        refine ⟨j, e', ?_, hn'⟩
        show (s.1.entries.erase i)[j]? = some e'
        rw [getElem?_erase', if_neg hji, he']

/-- The bytes of an entry, 0 without an entry. -/
def entryBytes (c : LayerCache α) (i : Nat) : Nat := ((c.entries[i]?).map LayerEntry.bytes).getD 0

section drop

variable (s) (i)

@[simp] theorem dropLayer_capacity :
    (dropLayer i s).1.capacityBytes = s.1.capacityBytes := by
  rw [dropLayer]
  split <;> rfl

@[simp] theorem dropLayer_total : (dropLayer i s).2.total = s.2.total := by
  rw [dropLayer]
  split
  · rfl
  · exact dischargeAll_total _

theorem dropLayer_entries (j : Nat) :
    (dropLayer i s).1.entries[j]? = if j = i then none else s.1.entries[j]? := by
  cases he : s.1.entries[i]? with
  | none =>
    rw [dropLayer, he]
    by_cases hj : j = i
    · rw [if_pos hj, hj, he]
    · rw [if_neg hj]
  | some e =>
    rw [dropLayer_of_some he]
    exact getElem?_erase' _ _ _

end drop

theorem dropLayer_lru (h : Coherent s) (i : Nat) :
    (dropLayer i s).1.lru = s.1.lru.filter (· ≠ i) := by
  cases he : s.1.entries[i]? with
  | none =>
    have hnot : i ∉ s.1.lru := by
      rw [h.lru_mem, he]
      exact Bool.false_ne_true
    rw [dropLayer, he, List.filter_eq_self.mpr]
    intro j hj
    exact decide_eq_true (ne_of_mem_of_not_mem hj hnot)
  | some e => rw [dropLayer_of_some he]

theorem dropLayer_used (h : Coherent s) (i : Nat) :
    (dropLayer i s).2.used + entryBytes s.1 i = s.2.used ∧
      (dropLayer i s).1.usedBytes + entryBytes s.1 i = s.1.usedBytes := by
  cases he : s.1.entries[i]? with
  | none =>
    rw [dropLayer, he, entryBytes, he]
    exact ⟨rfl, rfl⟩
  | some e =>
    have ho := h.owned i e he
    have hle := h.accounted.sumOf_le ho.nodup ho.charged
    have hle' := h.bytes_le he
    have hb := ho.bytes_eq
    rw [dropLayer_of_some he, entryBytes, he]
    refine ⟨?_, ?_⟩
    · show (dischargeAll e.chargeNames s.2).used + e.bytes = s.2.used
      rw [dischargeAll_used ho.nodup]
      omega
    · show s.1.usedBytes - e.bytes + e.bytes = s.1.usedBytes
      omega

theorem dropLayer_get (h : Coherent s) (i : Nat) {n : String}
    (hn : Text.startsWith n allPrefix = false) : (dropLayer i s).2.get n = s.2.get n := by
  cases he : s.1.entries[i]? with
  | none => rw [dropLayer, he]
  | some e =>
    rw [dropLayer_of_some he]
    show (dischargeAll e.chargeNames s.2).get n = s.2.get n
    rw [get_dischargeAll, if_neg]
    intro hin
    rw [startsWith_allPrefix ((h.owned i e he).under n hin)] at hn
    cases hn

/-! ## Dropping several entries -/

def dropLayers : List Nat → LayerCache α × MemoryBudget → LayerCache α × MemoryBudget
  | [], s => s
  | i :: rest, s => dropLayers rest (dropLayer i s)

theorem dropLayers_append (l l' : List Nat) (s : LayerCache α × MemoryBudget) :
    dropLayers (l ++ l') s = dropLayers l' (dropLayers l s) := by
  induction l generalizing s with
  | nil => rfl
  | cons i rest ih => exact ih _

theorem dropLayers_coherent (h : Coherent s) (l : List Nat) : Coherent (dropLayers l s) := by
  induction l generalizing s with
  | nil => exact h
  | cons i rest ih => exact ih (dropLayer_coherent h i)

@[simp] theorem dropLayers_capacity (l : List Nat) (s : LayerCache α × MemoryBudget) :
    (dropLayers l s).1.capacityBytes = s.1.capacityBytes := by
  induction l generalizing s with
  | nil => rfl
  | cons i rest ih => rw [dropLayers, ih, dropLayer_capacity]

@[simp] theorem dropLayers_total (l : List Nat) (s : LayerCache α × MemoryBudget) :
    (dropLayers l s).2.total = s.2.total := by
  induction l generalizing s with
  | nil => rfl
  | cons i rest ih => rw [dropLayers, ih, dropLayer_total]

theorem dropLayers_entries (l : List Nat) (s : LayerCache α × MemoryBudget) (j : Nat) :
    (dropLayers l s).1.entries[j]? = if j ∈ l then none else s.1.entries[j]? := by
  induction l generalizing s with
  | nil => simp [dropLayers]
  | cons i rest ih =>
    rw [dropLayers, ih, dropLayer_entries]
    by_cases hr : j ∈ rest
    · simp [hr]
    · by_cases hj : j = i
      · simp [hj]
      · simp [hr, hj]

theorem dropLayers_lru (h : Coherent s) (l : List Nat) :
    (dropLayers l s).1.lru = s.1.lru.filter (· ∉ l) := by
  induction l generalizing s with
  | nil => simp [dropLayers]
  | cons i rest ih =>
    rw [dropLayers, ih (dropLayer_coherent h i), dropLayer_lru h, List.filter_filter]
    exact List.filter_congr fun j _ => by simp [Bool.and_comm]

theorem dropLayers_used (h : Coherent s) {l : List Nat} (hnd : l.Nodup) :
    (dropLayers l s).2.used + (l.map (entryBytes s.1)).sum = s.2.used ∧
      (dropLayers l s).1.usedBytes + (l.map (entryBytes s.1)).sum = s.1.usedBytes := by
  induction l generalizing s with
  | nil => exact ⟨rfl, rfl⟩
  | cons i rest ih =>
    obtain ⟨hi, hrest⟩ := List.nodup_cons.mp hnd
    obtain ⟨h1, h2⟩ := dropLayer_used h i
    obtain ⟨h3, h4⟩ := ih (dropLayer_coherent h i) hrest
    have hsame : rest.map (entryBytes (dropLayer i s).1) = rest.map (entryBytes s.1) := by
      refine List.map_congr_left fun j hj => ?_
      rw [entryBytes, entryBytes, dropLayer_entries, if_neg (ne_of_mem_of_not_mem hj hi)]
    rw [hsame] at h3 h4
    rw [dropLayers, List.map_cons, List.sum_cons]
    omega

theorem dropLayers_get (h : Coherent s) (l : List Nat) {n : String}
    (hn : Text.startsWith n allPrefix = false) : (dropLayers l s).2.get n = s.2.get n := by
  induction l generalizing s with
  | nil => rfl
  | cons i rest ih => rw [dropLayers, ih (dropLayer_coherent h i), dropLayer_get h i hn]

end LayerCache
end Ramforge
