/-
A list of keys in order of use, most recent first.
-/
import Mathlib.Data.List.Basic
import Mathlib.Tactic
import Mathlib.Tactic.Ring

namespace Rust
namespace Lru

variable {κ : Type} [DecidableEq κ] {l : List κ} {k : κ}

/-- `retain(|k| k != key)` takes out one key. -/
theorem perm_retain (hnd : l.Nodup) (hk : k ∈ l) : l.Perm (k :: l.filter (· ≠ k)) := by
  have hfilter : l.filter (· ≠ k) = l.erase k := by
    rw [hnd.erase_eq_filter]
    exact List.filter_congr fun j _ => by by_cases hj : j = k <;> simp [hj]
  rw [hfilter]
  exact List.perm_cons_erase hk

omit [DecidableEq κ] in
/-- `pop_back` takes out the key at the end. -/
theorem perm_popBack (hk : l.getLast? = some k) : l.Perm (k :: l.dropLast) := by
  have hl : l.dropLast ++ [k] = l := List.dropLast_append_getLast? k hk
  have hp : (l.dropLast ++ [k]).Perm (k :: l.dropLast) := List.perm_append_singleton _ _
  rwa [hl] at hp

/-- `pop_back` and `retain` agree on the last key. -/
theorem retain_getLast (hnd : l.Nodup) (hk : l.getLast? = some k) :
    l.filter (· ≠ k) = l.dropLast := by
  have hl : l.dropLast ++ [k] = l := List.dropLast_append_getLast? k hk
  have hnd' : (l.dropLast ++ [k]).Nodup := by rwa [hl]
  have hnot : k ∉ l.dropLast := fun hin =>
    (List.disjoint_of_nodup_append hnd') hin List.mem_cons_self
  conv_lhs => rw [← hl]
  rw [List.filter_append, List.filter_eq_self.mpr]
  · simp
  · intro j hj
    exact decide_eq_true (ne_of_mem_of_not_mem hj hnot)

end Lru
end Rust

/-!
A bounded store of values under keys, as one list in the order of use, the least recently
used entry first.

An insertion drops the old entry of its key and then the shortest front of the list whose
removal leaves room for the new value.
-/

namespace Rust
namespace LruList

variable {κ α : Type} [DecidableEq κ]

def keys (l : List (κ × α)) : List κ := l.map Prod.fst

def value? (l : List (κ × α)) (k : κ) : Option α := (l.find? fun e => e.1 = k).map Prod.snd

def without (l : List (κ × α)) (k : κ) : List (κ × α) := l.filter fun e => e.1 ≠ k

/-- Make the entry of a key the most recently used one. -/
def use (l : List (κ × α)) (k : κ) : List (κ × α) :=
  match value? l k with
  | none => l
  | some v => without l k ++ [(k, v)]

section weight

variable (size : α → Nat)

def weight (l : List (κ × α)) : Nat := (l.map fun e => size e.2).sum

/-- How many entries have to go, in order, before the others weigh at most `room`. -/
def surplus (room : Nat) : List (κ × α) → Nat
  | [] => 0
  | e :: rest => if weight size (e :: rest) ≤ room then 0 else surplus room rest + 1

/-- The entries that an insertion evicts and the entries after it.  A value above the
capacity is not inserted. -/
def put (capacity : Nat) (l : List (κ × α)) (k : κ) (v : α) : Option (List (κ × α) × List (κ × α)) :=
  if capacity < size v then none
  else
    let others := without l k
    let n := surplus size (capacity - size v) others
    some (others.take n, others.drop n ++ [(k, v)])

end weight

/-! ## Keys and values -/

variable {l : List (κ × α)} {k j : κ} {v : α}

omit [DecidableEq κ] in
@[simp] theorem keys_cons (e : κ × α) : keys (e :: l) = e.1 :: keys l := rfl

omit [DecidableEq κ] in
theorem keys_append (l l' : List (κ × α)) : keys (l ++ l') = keys l ++ keys l' := List.map_append

theorem keys_without : keys (without l k) = (keys l).filter (· ≠ k) := by
  rw [keys, without, keys, List.filter_map]
  rfl

theorem value?_cons (e : κ × α) : value? (e :: l) j = if e.1 = j then some e.2 else value? l j := by
  rw [value?, List.find?_cons]
  by_cases h : e.1 = j
  · simp [h]
  · simp [h, value?]

theorem value?_append (l l' : List (κ × α)) : value? (l ++ l') j = (value? l j).or (value? l' j) := by
  rw [value?, List.find?_append, Option.map_or]
  rfl

theorem value?_eq_none : value? l j = none ↔ j ∉ keys l := by
  rw [value?, Option.map_eq_none_iff, List.find?_eq_none, keys, List.mem_map]
  constructor
  · rintro h ⟨e, he, rfl⟩
    exact h e he (decide_eq_true rfl)
  · intro h e he hj
    exact h ⟨e, he, of_decide_eq_true hj⟩

theorem value?_without : value? (without l k) j = if j = k then none else value? l j := by
  by_cases hj : j = k
  · subst hj
    rw [if_pos rfl, value?_eq_none, keys_without]
    simp
  · rw [if_neg hj]
    induction l with
    | nil => rfl
    | cons e rest ih =>
      rw [without, List.filter_cons]
      by_cases he : e.1 = k
      · rw [if_neg (by simp [he]), value?_cons, if_neg (fun h => hj (h.symm.trans he))]
        exact ih
      · rw [if_pos (by simp [he]), value?_cons, value?_cons]
        exact congrArg (fun r => if e.1 = j then some e.2 else r) ih

theorem nodup_without (h : (keys l).Nodup) : (keys (without l k)).Nodup := by
  rw [keys_without]
  exact h.filter _

theorem not_mem_without : k ∉ keys (without l k) := by
  rw [keys_without]
  simp

omit [DecidableEq κ] in
/-- A key appended to a list that does not have it. -/
theorem nodup_push (h : (keys l).Nodup) (hk : k ∉ keys l) : (keys (l ++ [(k, v)])).Nodup := by
  rw [keys_append]
  refine List.nodup_append.mpr ⟨h, List.pairwise_singleton _ k, fun j hj i hi hji => hk ?_⟩
  have hik : i = k := List.mem_singleton.mp hi
  rw [← hik, ← hji]
  exact hj

theorem value?_push (hk : k ∉ keys l) : value? (l ++ [(k, v)]) j = if j = k then some v else value? l j := by
  rw [value?_append, value?_cons]
  by_cases hj : j = k
  · subst hj
    rw [value?_eq_none.mpr hk, if_pos rfl, if_pos rfl]
    rfl
  · rw [if_neg (fun h => hj h.symm), if_neg hj]
    exact Option.or_none

theorem without_of_not_mem (hk : k ∉ keys l) : without l k = l :=
  List.filter_eq_self.mpr fun _ he => decide_eq_true fun h => hk (h ▸ List.mem_map_of_mem he)

/-! ## Weights -/

section weight

variable (size : α → Nat)

omit [DecidableEq κ] in
@[simp] theorem weight_nil : weight size ([] : List (κ × α)) = 0 := rfl

omit [DecidableEq κ] in
@[simp] theorem weight_cons (e : κ × α) : weight size (e :: l) = size e.2 + weight size l := by
  rw [weight, List.map_cons, List.sum_cons]
  rfl

omit [DecidableEq κ] in
theorem weight_push : weight size (l ++ [(k, v)]) = weight size l + size v := by
  rw [weight, List.map_append, List.sum_append]
  rfl

/-- What a key weighs, and the other entries. -/
theorem weight_without (h : (keys l).Nodup) (hv : value? l k = some v) :
    weight size l = weight size (without l k) + size v := by
  induction l with
  | nil => cases hv
  | cons e rest ih =>
    obtain ⟨hnot, hrest⟩ := List.nodup_cons.mp h
    rw [value?_cons] at hv
    by_cases he : e.1 = k
    · subst he
      rw [if_pos rfl] at hv
      cases hv
      have hout : without (e :: rest) e.1 = rest := by
        rw [without, List.filter_cons, if_neg (by simp)]
        exact without_of_not_mem hnot
      rw [hout, weight_cons, Nat.add_comm]
    · rw [if_neg he] at hv
      have hout : without (e :: rest) k = e :: without rest k := by
        rw [without, List.filter_cons, if_pos (by simp [he])]
        rfl
      rw [hout, weight_cons, weight_cons, ih hrest hv, Nat.add_assoc]

omit [DecidableEq κ] in
theorem surplus_cons_of_le {e : κ × α} {room : Nat} (h : weight size (e :: l) ≤ room) :
    surplus size room (e :: l) = 0 :=
  if_pos h

omit [DecidableEq κ] in
theorem surplus_cons_of_lt {e : κ × α} {room : Nat} (h : room < weight size (e :: l)) :
    surplus size room (e :: l) = surplus size room l + 1 :=
  if_neg (Nat.not_le_of_lt h)

omit [DecidableEq κ] in
/-- The surplus is the shortest front whose removal makes the rest fit. -/
theorem surplus_shortest (room : Nat) (l : List (κ × α)) :
    surplus size room l ≤ l.length ∧ weight size (l.drop (surplus size room l)) ≤ room ∧
      ∀ n < surplus size room l, room < weight size (l.drop n) := by
  induction l with
  | nil => exact ⟨Nat.le_refl 0, Nat.zero_le _, fun n hn => absurd hn (Nat.not_lt_zero n)⟩
  | cons e rest ih =>
    obtain ⟨hle, hfits, hshort⟩ := ih
    rcases Nat.lt_or_ge room (weight size (e :: rest)) with hlt | hge
    · rw [surplus_cons_of_lt size hlt]
      refine ⟨Nat.succ_le_succ hle, hfits, fun n hn => ?_⟩
      cases n with
      | zero => exact hlt
      | succ n => exact hshort n (Nat.lt_of_succ_lt_succ hn)
    · rw [surplus_cons_of_le size hge]
      exact ⟨Nat.zero_le _, hge, fun n hn => absurd hn (Nat.not_lt_zero n)⟩

theorem put_eq_some {capacity : Nat} {evicted l' : List (κ × α)}
    (h : put size capacity l k v = some (evicted, l')) :
    ∃ kept, without l k = evicted ++ kept ∧ l' = kept ++ [(k, v)] ∧ weight size kept + size v ≤ capacity ∧
      ∀ n < evicted.length, capacity < weight size ((without l k).drop n) + size v := by
  rw [put] at h
  split at h
  · cases h
  · obtain ⟨hle, hfits, hshort⟩ := surplus_shortest size (capacity - size v) (without l k)
    cases h
    refine ⟨_, (List.take_append_drop _ _).symm, rfl, by omega, fun n hn => ?_⟩
    rw [List.length_take, Nat.min_eq_left hle] at hn
    have := hshort n hn
    omega

end weight

end LruList
end Rust
