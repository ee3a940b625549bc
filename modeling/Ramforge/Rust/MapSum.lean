/-
Weighted sums over an ordered finite map.

`sumOver w m` adds `w k v` over the entries of `m`.  An insert or an erase changes
it by the weight of one entry, which is what an incremental counter kept beside
a map relies on.
-/
import Mathlib.Tactic

namespace Rust
namespace MapSum

open Std

variable {α β : Type} {cmp : α → α → Ordering} [TransCmp cmp] [LawfulEqCmp cmp]

def sumOver (w : α → β → Nat) (m : ExtTreeMap α β cmp) : Nat :=
  (m.toList.map fun e => w e.1 e.2).sum

omit [LawfulEqCmp cmp] in
@[simp] theorem sumOver_empty (w : α → β → Nat) : sumOver w (∅ : ExtTreeMap α β cmp) = 0 := by
  have h : (∅ : ExtTreeMap α β cmp).toList = [] := by simp
  rw [sumOver, h]
  rfl

omit [LawfulEqCmp cmp] in
theorem nodup_toList (m : ExtTreeMap α β cmp) : m.toList.Nodup := by
  have h : (m.toList.map Prod.fst).Nodup := by
    rw [ExtTreeMap.map_fst_toList_eq_keys]
    exact ExtTreeMap.nodup_keys
  exact List.Nodup.of_map _ h

theorem getElem?_insert' (m : ExtTreeMap α β cmp) (k a : α) (v : β) [DecidableEq α] :
    (m.insert k v)[a]? = if a = k then some v else m[a]? := by
  rw [ExtTreeMap.getElem?_insert]
  by_cases h : a = k
  · subst h; simp
  · have hne : cmp k a ≠ .eq := fun e => h (LawfulEqCmp.eq_of_compare e).symm
    rw [if_neg hne, if_neg h]

/-- What the insertions of a list of distinct keys leave at a key. -/
theorem getElem?_foldl_insert [DecidableEq α] {xs : List (α × β)} (h : (xs.map Prod.fst).Nodup)
    {k : α} {v : β} :
    (xs.foldl (fun m p => m.insert p.1 p.2) (∅ : ExtTreeMap α β cmp))[k]? = some v ↔ (k, v) ∈ xs := by
  suffices hfold : ∀ m : ExtTreeMap α β cmp,
      (xs.foldl (fun m p => m.insert p.1 p.2) m)[k]? = some v ↔
        (k, v) ∈ xs ∨ k ∉ xs.map Prod.fst ∧ m[k]? = some v by
    rw [hfold]
    simp
  induction xs with
  | nil => simp
  | cons p rest ih =>
    intro m
    rw [List.map_cons, List.nodup_cons] at h
    rw [List.foldl_cons, ih h.2, getElem?_insert']
    by_cases hk : k = p.1
    · have hnot : k ∉ rest.map Prod.fst := hk ▸ h.1
      have hmem : (k, v) ∉ rest := fun hin => hnot (List.mem_map.mpr ⟨_, hin, rfl⟩)
      rw [if_pos hk]
      refine ⟨fun h => ?_, fun h => ?_⟩
      · rcases h with hin | ⟨-, hv⟩
        · exact absurd hin hmem
        · rw [hk, ← Option.some.inj hv]
          exact .inl List.mem_cons_self
      · rcases h with hin | ⟨hno, -⟩
        · rcases List.mem_cons.mp hin with he | hin
          · exact .inr ⟨hnot, by rw [← he]⟩
          · exact absurd hin hmem
        · exact absurd (hk ▸ List.mem_cons_self) hno
    · have hne : (k, v) ≠ p := fun he => hk (congrArg Prod.fst he)
      simp [hk, hne]


theorem getElem?_erase' (m : ExtTreeMap α β cmp) (k a : α) [DecidableEq α] :
    (m.erase k)[a]? = if a = k then none else m[a]? := by
  rw [ExtTreeMap.getElem?_erase]
  by_cases h : a = k
  · subst h; simp
  · have hne : cmp k a ≠ .eq := fun e => h (LawfulEqCmp.eq_of_compare e).symm
    rw [if_neg hne, if_neg h]

/-- An entry can be split off the list of entries, in any position. -/
theorem toList_perm_cons_erase {m : ExtTreeMap α β cmp} {k : α} {v : β} (h : m[k]? = some v) :
    m.toList.Perm ((k, v) :: (m.erase k).toList) := by
  classical
  have hnot : (k, v) ∉ (m.erase k).toList := by
    rw [ExtTreeMap.mem_toList_iff_getElem?_eq_some, getElem?_erase', if_pos rfl]
    simp
  refine (List.perm_ext_iff_of_nodup (nodup_toList m)
    (List.nodup_cons.mpr ⟨hnot, nodup_toList _⟩)).mpr ?_
  rintro ⟨a, b⟩
  rw [List.mem_cons, ExtTreeMap.mem_toList_iff_getElem?_eq_some,
    ExtTreeMap.mem_toList_iff_getElem?_eq_some, getElem?_erase', Prod.mk.injEq]
  by_cases ha : a = k
  · subst ha
    simp [h, eq_comm]
  · simp [ha]

theorem erase_insert_of_none {m : ExtTreeMap α β cmp} {k : α} (h : m[k]? = none) (v : β) :
    (m.insert k v).erase k = m := by
  classical
  refine ExtTreeMap.ext_getElem? fun a => ?_
  rw [getElem?_erase', getElem?_insert']
  by_cases ha : a = k
  · subst ha; simp [h]
  · simp [ha]

theorem erase_insert (m : ExtTreeMap α β cmp) (k : α) (v : β) :
    (m.insert k v).erase k = m.erase k := by
  classical
  refine ExtTreeMap.ext_getElem? fun a => ?_
  rw [getElem?_erase', getElem?_insert', getElem?_erase']
  by_cases ha : a = k <;> simp [ha]

variable (w : α → β → Nat) {m : ExtTreeMap α β cmp} {k : α} {v : β}

theorem sumOver_of_some (h : m[k]? = some v) : sumOver w m = w k v + sumOver w (m.erase k) := by
  rw [sumOver, sumOver, ((toList_perm_cons_erase h).map _).sum_eq]
  rfl

theorem le_sumOver (h : m[k]? = some v) : w k v ≤ sumOver w m := by
  rw [sumOver_of_some w h]
  exact Nat.le_add_right _ _

theorem sumOver_erase_of_some (h : m[k]? = some v) :
    sumOver w (m.erase k) = sumOver w m - w k v := by
  rw [sumOver_of_some w h]
  omega

theorem erase_of_none (h : m[k]? = none) : m.erase k = m := by
  classical
  refine ExtTreeMap.ext_getElem? fun a => ?_
  rw [getElem?_erase']
  by_cases ha : a = k
  · subst ha; simp [h]
  · simp [ha]

theorem sumOver_insert (m : ExtTreeMap α β cmp) (k : α) (v : β) :
    sumOver w (m.insert k v) = w k v + sumOver w (m.erase k) := by
  have hk : (m.insert k v)[k]? = some v := by simp
  rw [sumOver_of_some w hk, erase_insert]

theorem sumOver_insert_of_none (h : m[k]? = none) :
    sumOver w (m.insert k v) = w k v + sumOver w m := by
  rw [sumOver_insert, erase_of_none h]

theorem sumOver_insert_of_some {v' : β} (h : m[k]? = some v') :
    sumOver w (m.insert k v) = w k v + (sumOver w m - w k v') := by
  rw [sumOver_insert, sumOver_erase_of_some w h]

/-- Two entries under different keys weigh at most the sum together. -/
theorem add_le_sumOver {k' : α} {v' : β} (h : m[k]? = some v) (h' : m[k']? = some v')
    (hne : k' ≠ k) : w k v + w k' v' ≤ sumOver w m := by
  classical
  have hk' : (m.erase k)[k']? = some v' := by rw [getElem?_erase', if_neg hne, h']
  have := le_sumOver w hk'
  rw [sumOver_of_some w h]
  omega

/-- A change of one value that keeps its weight keeps the sum. -/
theorem sumOver_modify {f : β → β} (hf : ∀ v, m[k]? = some v → w k (f v) = w k v) :
    sumOver w (m.modify k f) = sumOver w m := by
  classical
  have hget : ∀ a, (m.modify k f)[a]? = if a = k then m[k]?.map f else m[a]? := by
    intro a
    rw [ExtTreeMap.getElem?_modify]
    by_cases h : a = k
    · subst h; simp
    · have hne : cmp k a ≠ .eq := fun e => h (LawfulEqCmp.eq_of_compare e).symm
      rw [if_neg hne, if_neg h]
  have hrest : (m.modify k f).erase k = m.erase k := by
    refine ExtTreeMap.ext_getElem? fun a => ?_
    rw [getElem?_erase', getElem?_erase', hget]
    by_cases h : a = k <;> simp [h]
  cases hk : m[k]? with
  | none =>
    have hnone : (m.modify k f)[k]? = none := by rw [hget, if_pos rfl, hk]; rfl
    rw [← erase_of_none hnone, hrest, erase_of_none hk]
  | some v =>
    have hsome : (m.modify k f)[k]? = some (f v) := by rw [hget, if_pos rfl, hk]; rfl
    rw [sumOver_of_some w hsome, hrest, sumOver_of_some w hk, hf v hk]

/-! ## Sums over a set -/

section sets

variable {s : ExtTreeSet α cmp} (u : α → Nat)

def sumSet (s : ExtTreeSet α cmp) : Nat := (s.toList.map u).sum

omit [LawfulEqCmp cmp] in
@[simp] theorem sumSet_empty : sumSet u (∅ : ExtTreeSet α cmp) = 0 := by
  rw [sumSet, ExtTreeSet.toList_eq_nil_iff.mpr rfl]
  rfl

omit [LawfulEqCmp cmp] in
theorem nodup_toList_set (s : ExtTreeSet α cmp) : s.toList.Nodup := by
  refine List.Pairwise.imp (fun {a b} h e => h ?_) (ExtTreeSet.distinct_toList (t := s))
  rw [e]
  exact ReflCmp.compare_self

theorem sumSet_of_mem (h : k ∈ s) : sumSet u s = u k + sumSet u (s.erase k) := by
  classical
  have hmem : ∀ a, a ∈ s.erase k ↔ a ≠ k ∧ a ∈ s := by
    intro a
    rw [ExtTreeSet.mem_erase]
    refine and_congr_left fun _ => not_congr ⟨fun e => ?_, fun e => ?_⟩
    · exact (LawfulEqCmp.eq_of_compare e).symm
    · rw [e]
      exact ReflCmp.compare_self
  have hperm : s.toList.Perm (k :: (s.erase k).toList) := by
    refine (List.perm_ext_iff_of_nodup (nodup_toList_set s)
      (List.nodup_cons.mpr ⟨?_, nodup_toList_set _⟩)).mpr fun a => ?_
    · rw [ExtTreeSet.mem_toList, hmem]
      exact fun h => h.1 rfl
    · rw [List.mem_cons, ExtTreeSet.mem_toList, ExtTreeSet.mem_toList, hmem]
      by_cases ha : a = k
      · subst ha
        exact ⟨fun _ => .inl rfl, fun _ => h⟩
      · simp [ha]
  rw [sumSet, sumSet, (hperm.map u).sum_eq]
  rfl

theorem sumSet_erase_le (k : α) : sumSet u (s.erase k) ≤ sumSet u s := by
  by_cases h : k ∈ s
  · rw [sumSet_of_mem u h]
    exact Nat.le_add_left _ _
  · refine Nat.le_of_eq (congrArg (sumSet u) (ExtTreeSet.ext_mem fun a => ?_))
    rw [ExtTreeSet.mem_erase]
    refine ⟨fun h' => h'.2, fun h' => ⟨fun e => h ?_, h'⟩⟩
    rwa [LawfulEqCmp.eq_of_compare e]

theorem sumSet_insert_le (k : α) : sumSet u (s.insert k) ≤ u k + sumSet u s := by
  have hk : k ∈ s.insert k := ExtTreeSet.mem_insert_self
  rw [sumSet_of_mem u hk]
  have herase : (s.insert k).erase k = s.erase k := by
    refine ExtTreeSet.ext_mem fun a => ?_
    rw [ExtTreeSet.mem_erase, ExtTreeSet.mem_erase, ExtTreeSet.mem_insert]
    exact ⟨fun h => ⟨h.1, h.2.resolve_left h.1⟩, fun h => ⟨h.1, .inr h.2⟩⟩
  rw [herase]
  exact Nat.add_le_add_left (sumSet_erase_le u k) _

end sets

end MapSum
end Rust
