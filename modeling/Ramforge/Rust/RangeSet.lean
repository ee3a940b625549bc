/-
Sets of numbers kept as sorted intervals with a gap between any two.

An insertion walks the list once with one interval pending: what lies clear of it is kept,
and what touches it is absorbed.
-/
import Ramforge.Rust.Intervals
import Ramforge.Rust.MapSum

namespace Rust
namespace Interval

open Std

structure Separated (xs : List (Nat × Nat)) : Prop where
  nonempty : ∀ x ∈ xs, x.1 < x.2
  gaps : xs.Pairwise fun a b => a.2 < b.1

/-! ## Insertion -/

/-- One interval of the walk, with the intervals passed and the one pending. -/
def absorb (state : List (Nat × Nat) × (Nat × Nat)) (range : Nat × Nat) :
    List (Nat × Nat) × (Nat × Nat) :=
  let (merged, pending) := state
  if range.2 < pending.1 then (merged ++ [range], pending)
  else if pending.2 < range.1 then (merged ++ [pending], range)
  else (merged, (min pending.1 range.1, max pending.2 range.2))

def insertRange (ranges : List (Nat × Nat)) (start stop : Nat) : List (Nat × Nat) :=
  if stop ≤ start then ranges
  else
    let (merged, pending) := ranges.foldl absorb ([], (start, stop))
    merged ++ [pending]

namespace Separated

variable {xs merged : List (Nat × Nat)} {x pending : Nat × Nat}

theorem nil : Separated [] := ⟨fun _ h => absurd h List.not_mem_nil, .nil⟩

theorem concat (h : Separated merged) (hlt : x.1 < x.2) (hbehind : ∀ a ∈ merged, a.2 < x.1) :
    Separated (merged ++ [x]) where
  nonempty a ha := by
    rcases List.mem_append.mp ha with ha | ha
    · exact h.nonempty a ha
    · rw [List.mem_singleton.mp ha]
      exact hlt
  gaps := by
    refine List.pairwise_append.mpr ⟨h.gaps, List.pairwise_singleton _ _, fun a ha b hb => ?_⟩
    rw [List.mem_singleton.mp hb]
    exact hbehind a ha

/-- The state of the walk: the intervals passed lie clear of the pending one and of the
intervals to come. -/
structure Walk (merged : List (Nat × Nat)) (pending : Nat × Nat) (xs : List (Nat × Nat)) :
    Prop where
  passed : Separated merged
  ahead : Separated xs
  pending_lt : pending.1 < pending.2
  behind_pending : ∀ a ∈ merged, a.2 < pending.1
  behind_ahead : ∀ a ∈ merged, ∀ b ∈ xs, a.2 < b.1

theorem Walk.step (h : Walk merged pending (x :: xs)) :
    Walk (absorb (merged, pending) x).1 (absorb (merged, pending) x).2 xs ∧
      points ((absorb (merged, pending) x).1 ++ [(absorb (merged, pending) x).2]) =
        points (merged ++ [pending]) ∪ Finset.Ico x.1 x.2 := by
  obtain ⟨hmerged, ⟨hne, hgaps⟩, hlt, hpending, hahead⟩ := h
  obtain ⟨hx, hrest⟩ := List.pairwise_cons.mp hgaps
  have hxlt : x.1 < x.2 := hne x List.mem_cons_self
  have hxs : Separated xs := ⟨fun b hb => hne b (List.mem_cons_of_mem _ hb), hrest⟩
  have hmx : ∀ a ∈ merged, a.2 < x.1 := fun a ha => hahead a ha x List.mem_cons_self
  have hmxs : ∀ a ∈ merged, ∀ b ∈ xs, a.2 < b.1 := fun a ha b hb =>
    hahead a ha b (List.mem_cons_of_mem _ hb)
  unfold absorb
  simp only
  split
  next hbefore =>
    refine ⟨⟨hmerged.concat hxlt hmx, hxs, hlt, fun a ha => ?_, fun a ha b hb => ?_⟩, ?_⟩
    · rcases List.mem_append.mp ha with ha | ha
      · exact hpending a ha
      · rw [List.mem_singleton.mp ha]
        exact hbefore
    · rcases List.mem_append.mp ha with ha | ha
      · exact hmxs a ha b hb
      · rw [List.mem_singleton.mp ha]
        exact hx b hb
    · ext n
      simp only [points_append, points_cons, points_nil, Finset.mem_union, Finset.notMem_empty,
        or_false]
      tauto
  next hbefore =>
    split
    next hafter =>
      refine ⟨⟨hmerged.concat hlt hpending, hxs, hxlt, fun a ha => ?_, fun a ha b hb => ?_⟩, ?_⟩
      · rcases List.mem_append.mp ha with ha | ha
        · exact hmx a ha
        · rw [List.mem_singleton.mp ha]
          exact hafter
      · rcases List.mem_append.mp ha with ha | ha
        · exact hmxs a ha b hb
        · rw [List.mem_singleton.mp ha]
          have := hx b hb
          omega
      · ext n
        simp only [points_append, points_cons, points_nil, Finset.mem_union, Finset.notMem_empty,
          or_false]
    next hafter =>
      refine ⟨⟨hmerged, hxs, ?_, fun a ha => ?_, hmxs⟩, ?_⟩
      · show min pending.1 x.1 < max pending.2 x.2
        omega
      · have h1 := hpending a ha
        have h2 := hmx a ha
        show a.2 < min pending.1 x.1
        omega
      · ext n
        simp only [points_append, points_cons, points_nil, Finset.mem_union, Finset.mem_Ico,
          Finset.notMem_empty, or_false]
        rw [or_assoc]
        refine or_congr_right ?_
        omega

/-- The walk ends with a separated list of the points it started with and those it passed. -/
theorem Walk.run (h : Walk merged pending xs) :
    Separated ((xs.foldl absorb (merged, pending)).1 ++ [(xs.foldl absorb (merged, pending)).2]) ∧
      points ((xs.foldl absorb (merged, pending)).1 ++ [(xs.foldl absorb (merged, pending)).2]) =
        points (merged ++ [pending]) ∪ points xs := by
  induction xs generalizing merged pending with
  | nil =>
    rw [List.foldl_nil, points_nil, Finset.union_empty]
    exact ⟨h.passed.concat h.pending_lt h.behind_pending, rfl⟩
  | cons x rest ih =>
    obtain ⟨hwalk, hpoints⟩ := h.step
    obtain ⟨hseparated, hrest⟩ := ih hwalk
    rw [List.foldl_cons]
    refine ⟨hseparated, ?_⟩
    rw [hrest, hpoints, points_cons, Finset.union_assoc]

theorem insertRange_spec (h : Separated xs) (start stop : Nat) :
    Separated (insertRange xs start stop) ∧
      points (insertRange xs start stop) = points xs ∪ Finset.Ico start stop := by
  unfold insertRange
  split
  next hempty => exact ⟨h, by rw [Finset.Ico_eq_empty (Nat.not_lt.mpr hempty), Finset.union_empty]⟩
  next hlt =>
    have hwalk : Walk [] (start, stop) xs :=
      ⟨nil, h, Nat.not_le.mp hlt, fun _ ha => absurd ha List.not_mem_nil,
        fun _ ha => absurd ha List.not_mem_nil⟩
    obtain ⟨hseparated, hpoints⟩ := hwalk.run
    refine ⟨hseparated, hpoints.trans ?_⟩
    rw [List.nil_append, points_cons, points_nil, Finset.union_empty, Finset.union_comm]

end Separated

/-! ## Coverage -/

/-- How many numbers of an interval the intervals of a list cover, as a loop with a
saturating total. -/
def covered (ranges : List (Nat × Nat)) (start stop : Nat) : Nat :=
  if stop ≤ start then 0
  else
    ranges.foldl (fun covered range =>
      let first := max start range.1
      let last := min stop range.2
      if first < last then saturatingAdd covered (last - first) else covered) 0

variable {xs : List (Nat × Nat)} {start stop : Nat}

theorem foldl_covered {total : Nat} (h : Separated xs) (htotal : total < u64Bound) :
    xs.foldl (fun covered range =>
        let first := max start range.1
        let last := min stop range.2
        if first < last then saturatingAdd covered (last - first) else covered) total =
      saturatingAdd total (points xs ∩ Finset.Ico start stop).card := by
  induction xs generalizing total with
  | nil => exact (saturatingAdd_of_lt (b := 0) htotal).symm
  | cons x rest ih =>
    obtain ⟨hx, hrest⟩ := List.pairwise_cons.mp h.gaps
    have hsep : Separated rest := ⟨fun a ha => h.nonempty a (List.mem_cons_of_mem _ ha), hrest⟩
    have hcut : Finset.Ico x.1 x.2 ∩ Finset.Ico start stop =
        Finset.Ico (max start x.1) (min stop x.2) := by
      ext n
      simp only [Finset.mem_inter, Finset.mem_Ico]
      omega
    have hdisjoint : Disjoint (Finset.Ico (max start x.1) (min stop x.2))
        (points rest ∩ Finset.Ico start stop) := by
      refine Finset.disjoint_left.mpr fun n hn hm => ?_
      obtain ⟨y, hy, hbegin, -⟩ := mem_points.mp (Finset.mem_inter.mp hm).1
      have hgap := hx y hy
      rw [Finset.mem_Ico] at hn
      omega
    have hcard : (points (x :: rest) ∩ Finset.Ico start stop).card =
        min stop x.2 - max start x.1 + (points rest ∩ Finset.Ico start stop).card := by
      rw [points_cons, Finset.union_inter_distrib_right, hcut, Finset.card_union_of_disjoint hdisjoint,
        Nat.card_Ico]
    rw [List.foldl_cons, hcard]
    simp only
    split
    next hlt => rw [ih hsep (saturatingAdd_lt _ _), saturatingAdd_add]
    next hempty => rw [ih hsep htotal, Nat.sub_eq_zero_of_le (Nat.not_lt.mp hempty), Nat.zero_add]

theorem covered_eq (h : Separated xs) (hstop : stop < u64Bound) :
    covered xs start stop = (points xs ∩ Finset.Ico start stop).card := by
  unfold covered
  split
  next hempty =>
    rw [Finset.Ico_eq_empty (Nat.not_lt.mpr hempty), Finset.inter_empty, Finset.card_empty]
  next hlt =>
    have hle : (points xs ∩ Finset.Ico start stop).card ≤ stop - start := by
      rw [← Nat.card_Ico]
      exact Finset.card_le_card Finset.inter_subset_right
    rw [foldl_covered h (by decide), saturatingAdd_of_lt (by omega), Nat.zero_add]

/-! ## A set for each key -/

section keyed

variable {κ ν : Type} {cmp : κ → κ → Ordering} [TransCmp cmp] [DecidableEq ν]
  {name : κ → ν} {ranges : ExtTreeMap κ (List (Nat × Nat)) cmp} {A : Finset (ν × Nat)}

/-- The numbers of one interval, under a name. -/
def cell (n : ν) (start stop : Nat) : Finset (ν × Nat) := (Finset.Ico start stop).image (Prod.mk n)

theorem mem_cell {n : ν} {key : ν × Nat} :
    key ∈ cell n start stop ↔ key.1 = n ∧ start ≤ key.2 ∧ key.2 < stop := by
  obtain ⟨n', m⟩ := key
  rw [cell, Finset.mem_image]
  constructor
  · rintro ⟨m, hm, hpair⟩
    cases hpair
    exact ⟨rfl, Finset.mem_Ico.mp hm⟩
  · rintro ⟨rfl, hm⟩
    exact ⟨m, Finset.mem_Ico.mpr hm, rfl⟩

theorem card_cell (n : ν) (start stop : Nat) : (cell n start stop).card = stop - start := by
  rw [cell, Finset.card_image_of_injective _ (Prod.mk_right_injective n), Nat.card_Ico]

/-- Each key has a separated list, and under the names of the keys the numbers of the lists
are those of `A`. -/
structure Holds (name : κ → ν) (ranges : ExtTreeMap κ (List (Nat × Nat)) cmp)
    (A : Finset (ν × Nat)) : Prop where
  separated : ∀ k : κ, Separated (ranges[k]?.getD [])
  mem_iff : ∀ (k : κ) (m : Nat), m ∈ points (ranges[k]?.getD []) ↔ (name k, m) ∈ A

namespace Holds

omit [DecidableEq ν] in
theorem empty (name : κ → ν) : Holds name (∅ : ExtTreeMap κ (List (Nat × Nat)) cmp) ∅ where
  separated k := by
    rw [ExtTreeMap.getElem?_empty]
    exact Separated.nil
  mem_iff k m := by
    rw [ExtTreeMap.getElem?_empty]
    simp

theorem insert [LawfulEqCmp cmp] [DecidableEq κ] (hname : Function.Injective name) (h : Holds name ranges A) (k : κ)
    (start stop : Nat) :
    Holds name (ranges.insert k (insertRange (ranges[k]?.getD []) start stop))
      (A ∪ cell (name k) start stop) := by
  obtain ⟨hseparated, hpoints⟩ := (h.separated k).insertRange_spec start stop
  constructor
  · intro k'
    rw [MapSum.getElem?_insert']
    split
    next => exact hseparated
    next => exact h.separated k'
  · intro k' m
    rw [MapSum.getElem?_insert', Finset.mem_union, mem_cell]
    split
    next hkey =>
      subst hkey
      rw [Option.getD_some, hpoints, Finset.mem_union, h.mem_iff, Finset.mem_Ico]
      simp only [true_and]
    next hkey => simp only [h.mem_iff, hname.eq_iff, hkey, false_and, or_false]

omit [DecidableEq ν] in
/-- An entry that is only looked up changes nothing. -/
theorem touch [LawfulEqCmp cmp] [DecidableEq κ] (h : Holds name ranges A) (k : κ) :
    Holds name (ranges.insert k (ranges[k]?.getD [])) A := by
  have hsame : ∀ k' : κ, (ranges.insert k (ranges[k]?.getD []))[k']?.getD [] =
      ranges[k']?.getD [] := by
    intro k'
    rw [MapSum.getElem?_insert']
    split
    next hkey =>
      rw [hkey]
      rfl
    next => rfl
  exact ⟨fun k' => hsame k' ▸ h.separated k', fun k' m => hsame k' ▸ h.mem_iff k' m⟩

/-- What an interval would add is what the set does not have. -/
theorem sub_covered (h : Holds name ranges A) (k : κ) (hstop : stop < u64Bound) :
    stop - start - covered (ranges[k]?.getD []) start stop =
      (cell (name k) start stop \ A).card := by
  have himage : cell (name k) start stop ∩ A =
      (points (ranges[k]?.getD []) ∩ Finset.Ico start stop).image (Prod.mk (name k)) := by
    ext ⟨n, m⟩
    rw [Finset.mem_inter, mem_cell, Finset.mem_image]
    constructor
    · rintro ⟨⟨rfl, hm⟩, hA⟩
      exact ⟨m, Finset.mem_inter.mpr ⟨(h.mem_iff k m).mpr hA, Finset.mem_Ico.mpr hm⟩, rfl⟩
    · rintro ⟨m, hm, hpair⟩
      cases hpair
      obtain ⟨hpoint, hm⟩ := Finset.mem_inter.mp hm
      exact ⟨⟨rfl, Finset.mem_Ico.mp hm⟩, (h.mem_iff _ _).mp hpoint⟩
  have hsplit := Finset.card_sdiff_add_card_inter (cell (name k) start stop) A
  rw [himage, Finset.card_image_of_injective _ (Prod.mk_right_injective _), card_cell] at hsplit
  rw [covered_eq (h.separated k) hstop]
  omega

end Holds

end keyed

end Interval
end Rust
