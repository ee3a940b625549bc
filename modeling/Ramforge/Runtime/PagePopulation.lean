/-
The pages that an observation is set against: what the interval arithmetic counts are the
pages that the available ranges touch, each page of a mapping once.
-/
import Ramforge.Runtime.PageResidency
import Mathlib.Data.Set.Card

namespace Ramforge

open Std Rust

/-- A page of the range's mapping that has bytes of the range. -/
structure PageRange.Touches (range : PageRange) (key : Nat × Nat) : Prop where
  mapping : range.mappingIndex = some key.1
  nonempty : range.pageStart < range.pageEnd
  pageSize : 0 < range.pageSize
  before_end : key.2 * range.pageSize < range.pageEnd
  behind_start : range.pageStart < (key.2 + 1) * range.pageSize

namespace PageResidency

theorem lt_divCeil {p a b : Nat} (hb : 0 < b) : p < divCeil a b ↔ p * b < a := by
  rw [divCeil, Nat.lt_iff_add_one_le, Nat.le_div_iff_mul_le hb, Nat.succ_mul]
  omega

theorem div_le {p a b : Nat} (hb : 0 < b) : a / b ≤ p ↔ a < (p + 1) * b := by
  rw [← Nat.lt_succ_iff, Nat.div_lt_iff_lt_mul hb]

theorem touches_iff {range : PageRange} {key : Nat × Nat} :
    range.Touches key ↔ range.mappingIndex = some key.1 ∧
      ∃ interval, pageInterval range = some interval ∧ interval.1 ≤ key.2 ∧ key.2 < interval.2 := by
  constructor
  · rintro ⟨hmapping, hnonempty, hsize, hend, hstart⟩
    have hfirst := (div_le hsize).mpr hstart
    have hlast := (lt_divCeil hsize).mpr hend
    have hnot : ¬(range.pageSize = 0 ∨ range.pageEnd ≤ range.pageStart ∨
        range.mappingIndex.isNone) := by
      rw [hmapping]
      simp only [Option.isNone_some, Bool.false_eq_true, or_false]
      omega
    refine ⟨hmapping, (range.pageStart / range.pageSize, divCeil range.pageEnd range.pageSize), ?_,
      hfirst, hlast⟩
    rw [pageInterval, if_neg hnot]
    exact if_pos (Nat.lt_of_le_of_lt hfirst hlast)
  · rintro ⟨hmapping, interval, hinterval, hfirst, hlast⟩
    unfold pageInterval at hinterval
    split at hinterval
    next => cases hinterval
    next hnot =>
      simp only [not_or, Nat.not_le] at hnot
      have hsize := Nat.pos_of_ne_zero hnot.1
      simp only [Option.ite_none_right_eq_some, Option.some.injEq] at hinterval
      obtain ⟨-, rfl⟩ := hinterval
      exact ⟨hmapping, hnot.2.1, hsize, (lt_divCeil hsize).mp hlast, (div_le hsize).mp hfirst⟩

/-! ## Intervals by mapping -/

/-- The pages in the intervals. -/
def covers (intervals : Intervals) : Set (Nat × Nat) :=
  {key | intervalContains intervals key.1 key.2 = true}

theorem mem_covers {intervals : Intervals} {key : Nat × Nat} :
    key ∈ covers intervals ↔
      ∃ values, intervals[key.1]? = some values ∧ key.2 ∈ Interval.points values := by
  show intervalContains intervals key.1 key.2 = true ↔ _
  simp [intervalContains, Option.any_eq_true]

theorem covers_empty : covers ∅ = ∅ := by
  ext key
  simp [mem_covers]

theorem covers_addInterval (intervals : Intervals) (range : PageRange) :
    covers (addInterval intervals range) = covers intervals ∪ {key | range.Touches key} := by
  ext key
  show key ∈ covers (addInterval intervals range) ↔ key ∈ covers intervals ∨ range.Touches key
  rw [touches_iff]
  rcases hmapping : range.mappingIndex with _ | mappingIndex
  · have hsame : addInterval intervals range = intervals := by
      simp only [addInterval, hmapping]
    rw [hsame]
    simp
  rcases hinterval : pageInterval range with _ | interval
  · have hsame : addInterval intervals range = intervals := by
      simp only [addInterval, hmapping, hinterval]
    rw [hsame]
    simp
  have hadded : addInterval intervals range =
      intervals.insert mappingIndex ((intervals[mappingIndex]?).getD [] ++ [interval]) := by
    simp only [addInterval, hmapping, hinterval]
  rw [hadded, mem_covers, mem_covers, ExtTreeMap.getElem?_insert]
  by_cases hkey : mappingIndex = key.1
  · subst hkey
    have hadd : ∀ values, key.2 ∈ Interval.points (values ++ [interval]) ↔
        key.2 ∈ Interval.points values ∨ interval.1 ≤ key.2 ∧ key.2 < interval.2 := by
      intro values
      rw [Interval.points_append, Finset.mem_union, Interval.points_cons, Interval.points_nil,
        Finset.union_empty, Finset.mem_Ico]
    rw [if_pos Std.ReflCmp.compare_self]
    cases intervals[key.1]? with
    | none =>
      rw [Option.getD_none]
      simp only [Option.some.injEq, exists_eq_left', hadd, true_and]
      simp
    | some values => simp only [Option.some.injEq, exists_eq_left', Option.getD_some, hadd, true_and]
  · rw [if_neg fun h => hkey (Std.compare_eq_iff_eq.mp h)]
    simp [hkey]

/-- The pages that the available ranges touch. -/
def availablePages (bases : Bases) (ranges : List PageRange) : Set (Nat × Nat) :=
  {key | ∃ range ∈ ranges, availableFor bases range = true ∧ range.Touches key}

def targetPages (bases : Bases) (selected : ExtTreeSet String) (ranges : List PageRange) :
    Set (Nat × Nat) :=
  availablePages bases (ranges.filter fun range => selected.contains range.name)

theorem availablePages_cons {bases : Bases} {range : PageRange} {rest : List PageRange} :
    availablePages bases (range :: rest) =
      {key | availableFor bases range = true ∧ range.Touches key} ∪ availablePages bases rest := by
  ext key
  simp [availablePages]

theorem targetPages_cons {bases : Bases} {selected : ExtTreeSet String} {range : PageRange}
    {rest : List PageRange} :
    targetPages bases selected (range :: rest) =
      (if selected.contains range.name then
        {key | availableFor bases range = true ∧ range.Touches key} else ∅) ∪
        targetPages bases selected rest := by
  rw [targetPages, List.filter_cons]
  split
  next => exact availablePages_cons
  next => exact (Set.empty_union _).symm

theorem covers_populationOf (bases : Bases) (selected : ExtTreeSet String)
    (ranges : List PageRange) :
    covers (populationOf bases selected ranges).all = availablePages bases ranges ∧
      covers (populationOf bases selected ranges).target = targetPages bases selected ranges := by
  have hfold : ∀ population, covers (ranges.foldl (addRange bases selected) population).all =
        covers population.all ∪ availablePages bases ranges ∧
      covers (ranges.foldl (addRange bases selected) population).target =
        covers population.target ∪ targetPages bases selected ranges := by
    induction ranges with
    | nil => intro population; simp [targetPages, availablePages]
    | cons range rest ih =>
      intro population
      obtain ⟨hall, htarget⟩ := ih (addRange bases selected population range)
      rw [List.foldl_cons, hall, htarget, availablePages_cons, targetPages_cons, ← Set.union_assoc,
        ← Set.union_assoc]
      by_cases havailable : availableFor bases range = true
      · have hrange : {key | availableFor bases range = true ∧ range.Touches key} =
            {key | range.Touches key} := by
          simp [havailable]
        rw [hrange]
        simp only [addRange, havailable, not_true_eq_false, if_false]
        by_cases hselected : selected.contains range.name = true
        · rw [if_pos hselected, if_pos hselected, covers_addInterval, covers_addInterval]
          exact ⟨rfl, rfl⟩
        · rw [if_neg hselected, if_neg hselected, covers_addInterval, Set.union_empty]
          exact ⟨rfl, rfl⟩
      · have hrange : {key | availableFor bases range = true ∧ range.Touches key} = ∅ := by
          simp [havailable]
        rw [hrange, ite_self, Set.union_empty, Set.union_empty]
        simp only [addRange, havailable, Bool.false_eq_true, not_false_eq_true, if_true, and_self]
  obtain ⟨hall, htarget⟩ := hfold { all := ∅, target := ∅, unavailableUnknownPages := 0 }
  rw [covers_empty, Set.empty_union] at hall htarget
  exact ⟨hall, htarget⟩

/-! ## Counting -/

/-- The pages in the entries of an interval map. -/
def coveredPages (entries : List (Nat × List (Nat × Nat))) : Finset (Nat × Nat) :=
  entries.foldr (fun entry pages =>
    (Interval.points entry.2).image (Prod.mk entry.1) ∪ pages) ∅

theorem mem_coveredPages {entries : List (Nat × List (Nat × Nat))} {key : Nat × Nat} :
    key ∈ coveredPages entries ↔
      ∃ values, (key.1, values) ∈ entries ∧ key.2 ∈ Interval.points values := by
  induction entries with
  | nil => simp [coveredPages]
  | cons entry rest ih =>
    have hhead : key ∈ (Interval.points entry.2).image (Prod.mk entry.1) ↔
        key.1 = entry.1 ∧ key.2 ∈ Interval.points entry.2 := by
      rw [Finset.mem_image]
      constructor
      · rintro ⟨page, hpage, rfl⟩
        exact ⟨rfl, hpage⟩
      · rintro ⟨hmapping, hpage⟩
        exact ⟨key.2, hpage, by rw [← hmapping]⟩
    show key ∈ (Interval.points entry.2).image (Prod.mk entry.1) ∪ coveredPages rest ↔ _
    rw [Finset.mem_union, hhead, ih]
    constructor
    · rintro (⟨hmapping, hpage⟩ | ⟨values, hmem, hpage⟩)
      · exact ⟨entry.2, by rw [hmapping]; exact List.mem_cons_self, hpage⟩
      · exact ⟨values, List.mem_cons_of_mem _ hmem, hpage⟩
    · rintro ⟨values, hmem, hpage⟩
      rcases List.mem_cons.mp hmem with rfl | hmem
      · exact .inl ⟨rfl, hpage⟩
      · exact .inr ⟨values, hmem, hpage⟩

theorem card_coveredPages {entries : List (Nat × List (Nat × Nat))}
    (h : (entries.map Prod.fst).Nodup) :
    (coveredPages entries).card =
      (entries.map fun entry => (Interval.points entry.2).card).sum := by
  induction entries with
  | nil => rfl
  | cons entry rest ih =>
    rw [List.map_cons, List.nodup_cons] at h
    have hdisjoint : Disjoint ((Interval.points entry.2).image (Prod.mk entry.1))
        (coveredPages rest) := by
      refine Finset.disjoint_left.mpr fun key hkey hrest => h.1 ?_
      obtain ⟨page, -, rfl⟩ := Finset.mem_image.mp hkey
      obtain ⟨values, hmem, -⟩ := mem_coveredPages.mp hrest
      exact List.mem_map.mpr ⟨(entry.1, values), hmem, rfl⟩
    show (_ ∪ coveredPages rest).card = _
    rw [Finset.card_union_of_disjoint hdisjoint, ih h.2, List.map_cons, List.sum_cons,
      Finset.card_image_of_injective _ (Prod.mk_right_injective entry.1)]

theorem addUnion_eq (total : Nat) (values : List (Nat × Nat)) :
    addUnion total values = if values = [] then total
      else saturatingAdd total (Interval.points values).card := by
  unfold addUnion
  split
  next hsorted =>
    have hnil : values = [] :=
      List.length_eq_zero_iff.mp (by rw [← List.length_insertionSort Interval.before, hsorted]; rfl)
    rw [if_pos hnil]
  next first last rest hsorted =>
    have hne : values ≠ [] := fun hnil => by
      rw [hnil] at hsorted
      cases hsorted
    rw [if_neg hne, Interval.sweepFrom_eq, Interval.sweep_sorted hsorted]

theorem foldl_addUnion (entries : List (Nat × List (Nat × Nat))) {total : Nat}
    (htotal : total < u64Bound) :
    (entries.map Prod.snd).foldl addUnion total =
      saturatingAdd total (entries.map fun entry => (Interval.points entry.2).card).sum := by
  induction entries generalizing total with
  | nil => exact (saturatingAdd_of_lt (b := 0) htotal).symm
  | cons entry rest ih =>
    rw [List.map_cons, List.foldl_cons, List.map_cons, List.sum_cons, addUnion_eq]
    by_cases hnil : entry.2 = []
    · rw [if_pos hnil, hnil, ih htotal, Interval.points_nil, Finset.card_empty, Nat.zero_add]
    · rw [if_neg hnil, ih (saturatingAdd_lt _ _), Interval.saturatingAdd_add]

/-- The union count is the number of covered pages, as far as a `u64` goes. -/
theorem intervalUnionCount_eq (intervals : Intervals) :
    intervalUnionCount intervals = min (covers intervals).ncard (u64Bound - 1) := by
  have hcovers : covers intervals = ↑(coveredPages intervals.toList) := by
    ext key
    rw [mem_covers, Finset.mem_coe, mem_coveredPages]
    simp only [ExtTreeMap.mem_toList_iff_getElem?_eq_some]
  have hnodup : (intervals.toList.map Prod.fst).Nodup := by
    rw [ExtTreeMap.map_fst_toList_eq_keys]
    exact ExtTreeMap.nodup_keys
  rw [hcovers, Set.ncard_coe_finset, card_coveredPages hnodup, intervalUnionCount,
    foldl_addUnion _ (by decide), saturatingAdd, Nat.zero_add]

theorem finite_covers (intervals : Intervals) : (covers intervals).Finite := by
  refine (coveredPages intervals.toList).finite_toSet.subset fun key hkey => ?_
  obtain ⟨values, hvalues, hpage⟩ := mem_covers.mp hkey
  exact mem_coveredPages.mpr ⟨values, ExtTreeMap.mem_toList_iff_getElem?_eq_some.mpr hvalues, hpage⟩

end PageResidency
end Ramforge
