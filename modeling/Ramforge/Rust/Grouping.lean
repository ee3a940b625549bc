/-
Maps as lists of entries.

A hash map that a loop fills is the list of its insertions, the newest first.  A
`BTreeMap` is the list of its entries in the order of their keys.
-/
import Mathlib.Data.List.Nodup
import Mathlib.Tactic
import Ramforge.Rust.MapSum

namespace Rust
namespace HashMap

variable {K V E : Type} [BEq K]

/-- `HashMap::insert`. -/
def insert (m : List (K × V)) (k : K) (v : V) : List (K × V) := (k, v) :: m

/-- `entry(k).or_insert(v)`. -/
def orInsert (m : List (K × V)) (k : K) (v : V) : List (K × V) :=
  if (m.lookup k).isSome then m else (k, v) :: m

variable [LawfulBEq K] {m : List (K × V)} {k k' : K} {v : V}

theorem mem_of_lookup (h : m.lookup k = some v) : (k, v) ∈ m := by
  obtain ⟨front, back, rfl, -⟩ := List.lookup_eq_some_iff.mp h
  exact List.mem_append_right _ (List.mem_cons_self ..)

theorem isSome_insert_self : ((insert m k v).lookup k).isSome = true := by
  rw [insert, List.lookup_cons_self]
  rfl

omit [LawfulBEq K] in
theorem isSome_insert (h : (m.lookup k).isSome = true) :
    ((insert m k' v).lookup k).isSome = true := by
  rw [insert, List.lookup_cons]
  split
  next => rfl
  next => exact h

omit [LawfulBEq K] in
theorem isSome_orInsert (h : (m.lookup k).isSome = true) :
    ((orInsert m k' v).lookup k).isSome = true := by
  unfold orInsert
  split
  next => exact h
  next => exact isSome_insert h

omit [BEq K] [LawfulBEq K] in
/-- What holds of each entry a round adds holds of all entries. -/
theorem forall_mem_foldl {f : List (K × V) → E → List (K × V)} {P : K × V → Prop} {l : List E}
    (h : ∀ m, ∀ e ∈ l, (∀ x ∈ m, P x) → ∀ x ∈ f m e, P x) : ∀ x ∈ l.foldl f [], P x :=
  l.foldlRecOn f (motive := fun m => ∀ x ∈ m, P x) (fun _ hx => by cases hx)
    fun m hm e he => h m e he hm

omit [LawfulBEq K] in
/-- A key that one round sets and every round keeps is set at the end. -/
theorem isSome_foldl {f : List (K × V) → E → List (K × V)} {l : List E} {e : E} (he : e ∈ l)
    (hset : ∀ m, ((f m e).lookup k).isSome = true)
    (hkeep : ∀ m e, (m.lookup k).isSome = true → ((f m e).lookup k).isSome = true)
    (m : List (K × V)) : ((l.foldl f m).lookup k).isSome = true := by
  obtain ⟨front, back, rfl⟩ := List.append_of_mem he
  rw [List.foldl_append, List.foldl_cons]
  exact back.foldlRecOn f (motive := fun m => (m.lookup k).isSome = true) (hset _)
    fun m hm e _ => hkeep m e hm

theorem lookup_orInsert :
    (orInsert m k' v).lookup k = (m.lookup k).or (if k == k' then some v else none) := by
  unfold orInsert
  by_cases hk : k = k'
  · subst hk
    split
    next h =>
      obtain ⟨w, hw⟩ := Option.isSome_iff_exists.mp h
      rw [hw, Option.some_or]
    next h =>
      rw [Option.not_isSome_iff_eq_none.mp h, List.lookup_cons_self, Option.none_or, BEq.rfl, if_pos rfl]
  · have hbeq : (k == k') = false := beq_eq_false_iff_ne.mpr hk
    rw [hbeq, if_neg Bool.false_ne_true, Option.or_none]
    split
    next => rfl
    next => rw [List.lookup_cons, hbeq]

/-- The first entry of each key stays. -/
theorem lookup_foldl_orInsert (key : E → K) (value : E → V) (l : List E) (m : List (K × V)) :
    (l.foldl (fun m e => orInsert m (key e) (value e)) m).lookup k =
      (m.lookup k).or ((l.map fun e => (key e, value e)).lookup k) := by
  induction l generalizing m with
  | nil => rw [List.foldl_nil, List.map_nil, List.lookup_nil, Option.or_none]
  | cons e l ih =>
    rw [List.foldl_cons, ih, lookup_orInsert, Option.or_assoc, List.map_cons, List.lookup_cons]
    congr 1
    cases k == key e <;> rfl

end HashMap
namespace BTreeMap

variable {K V : Type} [Ord K]

/-- `BTreeMap::insert`. -/
def insert (key : K) (value : V) : List (K × V) → List (K × V)
  | [] => [(key, value)]
  | (k, v) :: rest =>
    match compare key k with
    | .lt => (key, value) :: (k, v) :: rest
    | .eq => (key, value) :: rest
    | .gt => (k, v) :: insert key value rest

end BTreeMap
end Rust

/-!
Maps built by a loop over a list of keys.

`group` collects the values of each key in their order.  `index` remembers the last
position of each key and whether a key came twice.
-/

namespace Rust
namespace Grouping

open Std MapSum

variable {α β : Type} {cmp : α → α → Ordering} [TransCmp cmp] [LawfulEqCmp cmp] [DecidableEq α]

/-! ## Values by key -/

/-- `map.entry(key).or_default().push(value)`. -/
def push (m : ExtTreeMap α (List β) cmp) (entry : α × β) : ExtTreeMap α (List β) cmp :=
  m.insert entry.1 (m[entry.1]?.getD [] ++ [entry.2])

def group (entries : List (α × β)) : ExtTreeMap α (List β) cmp := entries.foldl push ∅

def valuesAt (k : α) (entries : List (α × β)) : List β :=
  (entries.filter fun entry => entry.1 = k).map Prod.snd

theorem mem_valuesAt {k : α} {v : β} {entries : List (α × β)} :
    v ∈ valuesAt k entries ↔ (k, v) ∈ entries := by
  simp only [valuesAt, List.mem_map, List.mem_filter, decide_eq_true_eq]
  refine ⟨?_, fun h => ⟨(k, v), ⟨h, rfl⟩, rfl⟩⟩
  rintro ⟨⟨a, b⟩, ⟨hmem, rfl⟩, rfl⟩
  exact hmem

theorem getElem?_group (k : α) (entries : List (α × β)) :
    (group entries : ExtTreeMap α (List β) cmp)[k]? =
      if valuesAt k entries = [] then none else some (valuesAt k entries) := by
  induction entries using List.reverseRecOn with
  | nil => simp [group, valuesAt]
  | append_singleton entries entry ih =>
    obtain ⟨a, v⟩ := entry
    rw [group] at ih
    have hvalues : valuesAt k (entries ++ [(a, v)]) =
        valuesAt k entries ++ if a = k then [v] else [] := by
      rw [valuesAt, List.filter_append, List.map_append]
      by_cases hk : a = k <;> simp [valuesAt, hk]
    rw [group, List.foldl_concat, push, getElem?_insert', hvalues]
    by_cases hk : k = a
    · subst hk
      simp only [if_true, ih]
      by_cases hnil : valuesAt k entries = [] <;> simp [hnil]
    · have hka : a ≠ k := fun e => hk e.symm
      rw [if_neg hk, ih, if_neg hka, List.append_nil]

theorem getElem?_group_eq_some {k : α} {vs : List β} {entries : List (α × β)} :
    (group entries : ExtTreeMap α (List β) cmp)[k]? = some vs ↔
      vs = valuesAt k entries ∧ vs ≠ [] := by
  rw [getElem?_group]
  split
  next h =>
    refine ⟨fun e => (by cases e), fun hv => absurd (hv.1.trans h) hv.2⟩
  next h =>
    refine ⟨fun e => ?_, fun hv => (by rw [hv.1])⟩
    rw [← Option.some.inj e]
    exact ⟨rfl, h⟩

/-! ## Positions by key -/

/-- `if index.insert(key, position).is_some() { distinct = false; }`. -/
def register (known : ExtTreeMap α Nat cmp × Bool) (entry : α × Nat) :
    ExtTreeMap α Nat cmp × Bool :=
  (known.1.insert entry.1 entry.2, if known.1[entry.1]?.isSome then false else known.2)

def index (keys : List α) : ExtTreeMap α Nat cmp × Bool := keys.zipIdx.foldl register (∅, true)

omit [LawfulEqCmp cmp] [DecidableEq α] in
theorem index_concat (keys : List α) (k : α) :
    (index (keys ++ [k]) : ExtTreeMap α Nat cmp × Bool) = register (index keys) (k, keys.length) := by
  rw [index, List.zipIdx_append, List.foldl_append]
  simp [index]

theorem index_get {keys : List α} {k : α} {i : Nat}
    (h : (index keys : ExtTreeMap α Nat cmp × Bool).1[k]? = some i) : keys[i]? = some k := by
  induction keys using List.reverseRecOn with
  | nil => simp [index] at h
  | append_singleton keys a ih =>
    rw [index_concat, register, getElem?_insert'] at h
    split at h
    next hk =>
      cases h
      rw [hk]
      exact List.getElem?_concat_length
    next hk =>
      have hi := ih h
      rwa [List.getElem?_append_left (List.getElem?_eq_some_iff.mp hi).1]

theorem index_isSome {keys : List α} {k : α} :
    ((index keys : ExtTreeMap α Nat cmp × Bool).1[k]?).isSome = true ↔ k ∈ keys := by
  induction keys using List.reverseRecOn with
  | nil => simp [index]
  | append_singleton keys a ih =>
    rw [index_concat, register, getElem?_insert', List.mem_append, List.mem_singleton, ← ih]
    by_cases hk : k = a <;> simp [hk]

theorem index_distinct {keys : List α} :
    (index keys : ExtTreeMap α Nat cmp × Bool).2 = true ↔ keys.Nodup := by
  induction keys using List.reverseRecOn with
  | nil => simp [index]
  | append_singleton keys a ih =>
    rw [index_concat, register, List.nodup_append, ← ih]
    have hseen : ((index keys : ExtTreeMap α Nat cmp × Bool).1[a]?).isSome = true ↔ a ∈ keys :=
      index_isSome
    by_cases ha : a ∈ keys
    · simp only [hseen.mpr ha, if_true, Bool.false_eq_true, false_iff, not_and]
      exact fun _ _ h => h a ha a (List.mem_singleton_self a) rfl
    · have hnone : ((index keys : ExtTreeMap α Nat cmp × Bool).1[a]?).isSome = false := by
        rw [← Bool.not_eq_true]
        exact fun h => ha (hseen.mp h)
      simp only [hnone, Bool.false_eq_true, if_false, List.nodup_singleton, true_and]
      refine ⟨fun h => ⟨h, fun b hb c hc e => ?_⟩, fun h => h.1⟩
      rw [List.mem_singleton] at hc
      exact ha (hc ▸ e ▸ hb)

/-! ## Totals by key -/

variable {γ : Type} {m : ExtTreeMap α β cmp}

omit [DecidableEq α] in
theorem sumOver_congr {w w' : α → β → Nat} (h : ∀ k v, m[k]? = some v → w k v = w' k v) :
    sumOver w m = sumOver w' m := by
  rw [sumOver, sumOver, List.map_congr_left]
  intro entry hentry
  exact h _ _ (ExtTreeMap.mem_toList_iff_getElem?_eq_some.mp hentry)

omit [LawfulEqCmp cmp] [DecidableEq α] in
theorem sumOver_add (w w' : α → β → Nat) :
    sumOver (fun k v => w k v + w' k v) m = sumOver w m + sumOver w' m := List.sum_map_add

theorem sumOver_single {k : α} (hk : m[k]?.isSome = true) (n : Nat) :
    sumOver (fun a _ => if k = a then n else 0) m = n := by
  obtain ⟨v, hv⟩ := Option.isSome_iff_exists.mp hk
  have hrest : sumOver (fun a _ => if k = a then n else 0) (m.erase k) =
      sumOver (fun _ _ => 0) (m.erase k) := by
    refine sumOver_congr fun a b hab => if_neg fun e => ?_
    rw [← e, getElem?_erase', if_pos rfl] at hab
    cases hab
  rw [sumOver_of_some _ hv, if_pos rfl, hrest]
  simp [sumOver]

/-- The totals of the keys of a map add up to the total of the entries, where every entry
has its key in the map. -/
theorem sumOver_totals (key : γ → α) (f : γ → Nat) {entries : List γ}
    (h : ∀ e ∈ entries, m[key e]?.isSome = true) :
    sumOver (fun k _ => ((entries.filter fun e => key e = k).map f).sum) m = (entries.map f).sum := by
  induction entries with
  | nil => simp [sumOver]
  | cons e rest ih =>
    have hsplit : ∀ k, (((e :: rest).filter fun e => key e = k).map f).sum =
        (if key e = k then f e else 0) + ((rest.filter fun e => key e = k).map f).sum := by
      intro k
      by_cases hk : key e = k <;> simp [hk]
    simp only [hsplit]
    rw [sumOver_add, sumOver_single (h e List.mem_cons_self),
      ih fun a ha => h a (List.mem_cons_of_mem _ ha), List.map_cons, List.sum_cons]

end Grouping
end Rust
