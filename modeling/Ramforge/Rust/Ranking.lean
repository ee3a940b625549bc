/-
Places ranked by decreasing value, ties to the smaller place: what a stable sort of an
enumerated vector gives, its first places, and the shortest beginning whose mass
reaches a bound.
-/
import Mathlib.Algebra.BigOperators.Field
import Mathlib.Algebra.BigOperators.Group.Finset.Basic
import Mathlib.Algebra.Order.BigOperators.Group.Finset
import Mathlib.Algebra.Order.Field.Basic
import Mathlib.Data.List.Sort
import Mathlib.Order.Bounds.Basic

namespace Rust
namespace Ranking

open Finset

variable {α : Type} [LinearOrder α] {f : Nat → α} {n m i j k : Nat}

/-! ## The order of the places -/

/-- Place `i` comes before place `j`. -/
def Before (f : Nat → α) (i j : Nat) : Prop := f j < f i ∨ (f i = f j ∧ i < j)

instance : Decidable (Before f i j) := inferInstanceAs (Decidable (_ ∨ _))

theorem Before.irrefl (f : Nat → α) (i : Nat) : ¬Before f i i := by
  rintro (h | ⟨-, h⟩)
  · exact lt_irrefl _ h
  · exact Nat.lt_irrefl _ h

theorem Before.trans (hij : Before f i j) (hjk : Before f j k) : Before f i k := by
  rcases hij with hij | ⟨hij, hij'⟩
  · rcases hjk with hjk | ⟨hjk, -⟩
    · exact .inl (hjk.trans hij)
    · exact .inl (hjk ▸ hij)
  · rcases hjk with hjk | ⟨hjk, hjk'⟩
    · exact .inl (hij ▸ hjk)
    · exact .inr ⟨hij.trans hjk, hij'.trans hjk'⟩

theorem Before.asymm (hij : Before f i j) : ¬Before f j i := fun hji =>
  Before.irrefl f i (hij.trans hji)

theorem Before.total (f : Nat → α) (i j : Nat) : Before f i j ∨ i = j ∨ Before f j i := by
  rcases lt_trichotomy (f i) (f j) with hlt | heq | hgt
  · exact .inr (.inr (.inl hlt))
  · rcases Nat.lt_trichotomy i j with hlt' | heq' | hgt'
    · exact .inl (.inr ⟨heq, hlt'⟩)
    · exact .inr (.inl heq')
    · exact .inr (.inr (.inr ⟨heq.symm, hgt'⟩))
  · exact .inl (.inl hgt)

/-- The number of the places below `n` that come before place `i`. -/
def rank (f : Nat → α) (n i : Nat) : Nat := #{j ∈ range n | Before f j i}

/-- The first `m` of the places below `n`. -/
def first (f : Nat → α) (n m : Nat) : Finset Nat := {i ∈ range n | rank f n i < m}

theorem mem_first : i ∈ first f n m ↔ i < n ∧ rank f n i < m := by
  rw [first, mem_filter, mem_range]

theorem first_mono (f : Nat → α) (n : Nat) {m m' : Nat} (h : m ≤ m') :
    first f n m ⊆ first f n m' := by
  intro i hi
  rw [mem_first] at hi ⊢
  exact ⟨hi.1, hi.2.trans_le h⟩

theorem rank_lt_rank (hi : i < n) (h : Before f i j) : rank f n i < rank f n j := by
  refine card_lt_card ⟨fun k hk => ?_, fun hsub => ?_⟩
  · rw [mem_filter] at hk ⊢
    exact ⟨hk.1, hk.2.trans h⟩
  · have hmem := hsub (mem_filter.mpr ⟨mem_range.mpr hi, h⟩)
    exact Before.irrefl f i (mem_filter.mp hmem).2

theorem rank_lt_rank_iff (hi : i < n) (hj : j < n) : rank f n i < rank f n j ↔ Before f i j := by
  refine ⟨fun h => ?_, rank_lt_rank hi⟩
  rcases Before.total f i j with hij | rfl | hji
  · exact hij
  · exact absurd h (Nat.lt_irrefl _)
  · exact absurd h (Nat.lt_asymm (rank_lt_rank hj hji))

theorem rank_lt (hi : i < n) : rank f n i < n := by
  have hsub : {j ∈ range n | Before f j i} ⊆ (range n).erase i := by
    intro j hj
    rw [mem_filter] at hj
    refine mem_erase.mpr ⟨?_, hj.1⟩
    rintro rfl
    exact Before.irrefl f j hj.2
  have hcard := card_le_card hsub
  rw [card_erase_of_mem (mem_range.mpr hi), card_range] at hcard
  rw [rank]
  omega

theorem first_of_le (f : Nat → α) (h : n ≤ m) : first f n m = range n := by
  ext i
  rw [mem_first, mem_range]
  exact ⟨And.left, fun hi => ⟨hi, (rank_lt hi).trans_le h⟩⟩

/-- The places before place `i` are the first ones, as many as its rank. -/
theorem first_rank (hi : i < n) : first f n (rank f n i) = {j ∈ range n | Before f j i} := by
  ext j
  rw [mem_first, mem_filter, mem_range]
  exact and_congr_right fun hj => rank_lt_rank_iff hj hi

/-! ## The stable sort -/

theorem pairwise_orderedInsert {l : List Nat} (hl : l.Pairwise (Before f)) (hi : ∀ j ∈ l, i < j) :
    (l.orderedInsert (fun i j => f j ≤ f i) i).Pairwise (Before f) := by
  induction l with
  | nil => exact List.pairwise_singleton _ _
  | cons b l ih =>
    obtain ⟨hb, hl'⟩ := List.pairwise_cons.mp hl
    rw [List.orderedInsert_cons]
    split
    next hle =>
      refine List.pairwise_cons.mpr ⟨fun c hc => ?_, hl⟩
      have hcb : f c ≤ f b := by
        rcases List.mem_cons.mp hc with rfl | hc'
        · exact le_refl _
        · rcases hb c hc' with hlt | ⟨heq, -⟩
          · exact hlt.le
          · exact heq.ge
      rcases (hcb.trans hle).lt_or_eq with hlt | heq
      · exact .inl hlt
      · exact .inr ⟨heq.symm, hi c hc⟩
    next hnle =>
      refine List.pairwise_cons.mpr ⟨fun c hc => ?_, ih hl' fun j hj => hi j (List.mem_cons_of_mem _ hj)⟩
      rcases List.mem_orderedInsert _ |>.mp hc with rfl | hc'
      · exact .inl (not_le.mp hnle)
      · exact hb c hc'

theorem pairwise_sorted {l : List Nat} (hl : l.Pairwise (· < ·)) :
    (l.insertionSort fun i j => f j ≤ f i).Pairwise (Before f) := by
  induction l with
  | nil => exact List.Pairwise.nil
  | cons i l ih =>
    obtain ⟨hi, hl'⟩ := List.pairwise_cons.mp hl
    refine pairwise_orderedInsert (ih hl') fun j hj => ?_
    exact hi j ((List.mem_insertionSort _).mp hj)

/-- The places below `n` in their order. -/
def order (f : Nat → α) (n : Nat) : List Nat := (List.range n).insertionSort fun i j => f j ≤ f i

theorem perm_order (f : Nat → α) (n : Nat) : (order f n).Perm (List.range n) :=
  List.perm_insertionSort _ _

theorem nodup_order (f : Nat → α) (n : Nat) : (order f n).Nodup :=
  (perm_order f n).nodup_iff.mpr List.nodup_range

theorem rank_of_getElem? (h : (order f n)[m]? = some i) : rank f n i = m := by
  obtain ⟨hm, hget⟩ := List.getElem?_eq_some_iff.mp h
  have hsplit : order f n = (order f n).take m ++ i :: (order f n).drop (m + 1) := by
    conv_lhs => rw [← List.take_append_drop m (order f n)]
    rw [List.drop_eq_getElem_cons hm, hget]
  have hsorted : (order f n).Pairwise (Before f) := pairwise_sorted List.pairwise_lt_range
  rw [hsplit] at hsorted
  obtain ⟨-, hrest, hacross⟩ := List.pairwise_append.mp hsorted
  have hcount : rank f n i = (order f n).countP fun j => Before f j i := by
    rw [(perm_order f n).countP_eq, List.countP_eq_length_filter]
    rfl
  have hbefore : ((order f n).take m).countP (fun j => Before f j i) = m := by
    rw [List.countP_eq_length.mpr, List.length_take, Nat.min_eq_left hm.le]
    exact fun j hj => decide_eq_true (hacross j hj i List.mem_cons_self)
  have hafter : (i :: (order f n).drop (m + 1)).countP (fun j => Before f j i) = 0 := by
    refine List.countP_eq_zero.mpr fun j hj => ?_
    rw [decide_eq_true_eq]
    rcases List.mem_cons.mp hj with rfl | hj'
    · exact Before.irrefl f j
    · exact ((List.pairwise_cons.mp hrest).1 j hj').asymm
  rw [hcount, hsplit, List.countP_append, hbefore, hafter, Nat.add_zero]

theorem mem_take_order : i ∈ (order f n).take m ↔ i ∈ first f n m := by
  rw [List.mem_take_iff_getElem, mem_first]
  constructor
  · rintro ⟨q, hq, rfl⟩
    have hq' := lt_min_iff.mp hq
    refine ⟨List.mem_range.mp ((perm_order f n).mem_iff.mp (List.getElem_mem _)), ?_⟩
    rw [rank_of_getElem? (List.getElem?_eq_getElem hq'.2)]
    exact hq'.1
  · rintro ⟨hi, hrank⟩
    obtain ⟨q, hq, hget⟩ := List.getElem_of_mem ((perm_order f n).mem_iff.mpr (List.mem_range.mpr hi))
    rw [rank_of_getElem? (List.getElem?_eq_some_iff.mpr ⟨hq, hget⟩)] at hrank
    exact ⟨q, lt_min hrank hq, hget⟩

theorem sum_take_order {K : Type} [AddCommMonoid K] (w : Nat → K) :
    (((order f n).take m).map w).sum = ∑ i ∈ first f n m, w i := by
  have hset : ((order f n).take m).toFinset = first f n m := by
    ext i
    rw [List.mem_toFinset, mem_take_order]
  rw [← hset, List.sum_toFinset w ((List.take_sublist m _).nodup (nodup_order f n))]

/-! ## Tables of enumerated values -/

/-- `xs.iter().enumerate()`. -/
def enumerate {β : Type} (xs : List β) : List (Nat × β) := xs.zipIdx.map fun e => (e.2, e.1)

omit [LinearOrder α] in
theorem enumerate_map_range (f : Nat → α) (n : Nat) :
    enumerate ((List.range n).map f) = (List.range n).map fun i => (i, f i) := by
  refine List.ext_getElem? fun i => ?_
  rw [enumerate, List.getElem?_map, List.getElem?_zipIdx, List.getElem?_map, List.getElem?_map]
  by_cases hi : i < n
  · rw [List.getElem?_range hi]
    simp
  · rw [List.getElem?_eq_none (by simpa using hi)]
    rfl

theorem sorted_table (f : Nat → α) (n : Nat) :
    (enumerate ((List.range n).map f)).insertionSort (fun a b => b.2 ≤ a.2) =
      (order f n).map fun i => (i, f i) := by
  rw [enumerate_map_range, order]
  exact (List.map_insertionSort (r := fun i j => f j ≤ f i) (s := fun a b : Nat × α => b.2 ≤ a.2)
    (fun i => (i, f i)) _ fun i _ j _ => Iff.rfl).symm

/-- `for &(i, v) in entries { xs[i] = v; }`. -/
def scatter {β : Type} (entries : List (Nat × β)) (xs : List β) : List β :=
  entries.foldl (fun xs e => xs.set e.1 e.2) xs

omit [LinearOrder α] in
theorem scatter_map_range (f g : Nat → α) (l : List Nat) (n : Nat) :
    scatter (l.map fun i => (i, f i)) ((List.range n).map g) =
      (List.range n).map fun i => if i ∈ l then f i else g i := by
  induction l generalizing g with
  | nil =>
    refine List.map_congr_left fun i _ => ?_
    rw [if_neg List.not_mem_nil]
  | cons k l ih =>
    have hset : ((List.range n).map g).set k (f k) =
        (List.range n).map fun i => if i = k then f k else g i := by
      refine List.ext_getElem (by simp) fun i hi hi' => ?_
      rw [List.getElem_set]
      by_cases hik : k = i
      · simp [hik]
      · simp [hik, Ne.symm hik]
    rw [scatter, List.map_cons, List.foldl_cons, hset]
    refine (ih _).trans (List.map_congr_left fun i _ => ?_)
    by_cases hil : i ∈ l
    · rw [if_pos hil, if_pos (List.mem_cons_of_mem _ hil)]
    · rw [if_neg hil]
      by_cases hik : i = k
      · subst hik
        rw [if_pos rfl, if_pos List.mem_cons_self]
      · rw [if_neg hik, if_neg (List.not_mem_cons_of_ne_of_not_mem hik hil)]

/-! ## The shortest beginning that reaches a mass -/

section mass

variable {K : Type} [AddCommMonoid K] [LinearOrder K] [IsOrderedAddMonoid K] {w : Nat → K} {p : K}

/-- `m` is the least number of first places whose mass reaches `p`. -/
def Shortest (f : Nat → α) (n : Nat) (w : Nat → K) (p : K) (m : Nat) : Prop :=
  IsLeast {m | p ≤ ∑ i ∈ first f n m, w i} m

omit [IsOrderedAddMonoid K] in
theorem exists_shortest (f : Nat → α) (h : p ≤ ∑ i ∈ range n, w i) : ∃ m ≤ n, Shortest f n w p m := by
  classical
  have hex : ∃ m, p ≤ ∑ i ∈ first f n m, w i := ⟨n, (first_of_le f (Nat.le_refl n)).symm ▸ h⟩
  refine ⟨Nat.find hex, Nat.find_le ((first_of_le f (Nat.le_refl n)).symm ▸ h), Nat.find_spec hex,
    fun m hm => Nat.find_le hm⟩

/-- A place is in the shortest beginning when the places before it do not reach the mass. -/
theorem Shortest.mem_iff (hw : ∀ i < n, 0 ≤ w i) (hm : Shortest f n w p m) (hi : i < n) :
    i ∈ first f n m ↔ ∑ j ∈ range n with Before f j i, w j < p := by
  rw [← first_rank hi, mem_first]
  refine ⟨fun h => not_le.mp fun hp => ?_, fun h => ⟨hi, ?_⟩⟩
  · exact Nat.not_lt.mpr (hm.2 hp) h.2
  · by_contra hge
    have hmass : ∑ j ∈ first f n m, w j ≤ ∑ j ∈ first f n (rank f n i), w j := by
      refine sum_le_sum_of_subset_of_nonneg (first_mono f n (Nat.not_lt.mp hge)) fun j hj _ => ?_
      exact hw j (mem_first.mp hj).1
    exact not_lt.mpr (hm.1.trans hmass) h

end mass

end Ranking
end Rust

/-!
Positive weights made to sum to one.
-/

namespace Rust

open Finset

variable {R : Type} [Field R]

/-- The share of place `i` in the first `n` weights. -/
def share (w : Nat → R) (n i : Nat) : R := w i / ∑ j ∈ range n, w j

theorem share_congr {w w' : Nat → R} {n i : Nat} (h : ∀ j < n, w j = w' j) (hi : i < n) :
    share w n i = share w' n i := by
  rw [share, share, h i hi, sum_congr rfl fun j hj => h j (mem_range.mp hj)]

/-- A common factor does not change the shares. -/
theorem share_mul_left {w : Nat → R} {c : R} (hc : c ≠ 0) (n i : Nat) :
    share (fun j => c * w j) n i = share w n i := by
  rw [share, share, ← mul_sum, mul_div_mul_left _ _ hc]

theorem sum_share {w : Nat → R} {n : Nat} (h : ∑ j ∈ range n, w j ≠ 0) :
    ∑ i ∈ range n, share w n i = 1 := by
  unfold share
  rw [← sum_div, div_self h]

variable [LinearOrder R] [IsStrictOrderedRing R]

theorem sum_range_pos {w : Nat → R} {n : Nat} (hn : 0 < n) (hw : ∀ i < n, 0 < w i) :
    0 < ∑ j ∈ range n, w j :=
  sum_pos (fun j hj => hw j (mem_range.mp hj)) ⟨0, mem_range.mpr hn⟩

theorem share_pos {w : Nat → R} {n i : Nat} (hw : ∀ j < n, 0 < w j) (hi : i < n) :
    0 < share w n i :=
  div_pos (hw i hi) (sum_range_pos (Nat.zero_lt_of_lt hi) hw)

/-! ## Shares of the weights of a set -/

/-- The share of place `i` in the weights of `S`; nothing outside `S`. -/
def shareIn (S : Finset Nat) (w : Nat → R) (i : Nat) : R :=
  if i ∈ S then w i / ∑ j ∈ S, w j else 0

variable {S : Finset Nat} {w : Nat → R} {i : Nat}

theorem shareIn_pos (hw : ∀ j ∈ S, 0 < w j) (hi : i ∈ S) : 0 < shareIn S w i := by
  rw [shareIn, if_pos hi]
  exact div_pos (hw i hi) (sum_pos hw ⟨i, hi⟩)

theorem shareIn_nonneg (hw : ∀ j ∈ S, 0 < w j) (i : Nat) : 0 ≤ shareIn S w i := by
  by_cases hi : i ∈ S
  · exact (shareIn_pos hw hi).le
  · rw [shareIn, if_neg hi]

theorem shareIn_pos_iff (hw : ∀ j ∈ S, 0 < w j) : 0 < shareIn S w i ↔ i ∈ S := by
  refine ⟨fun h => ?_, shareIn_pos hw⟩
  by_contra hi
  rw [shareIn, if_neg hi] at h
  exact lt_irrefl _ h

theorem sum_shareIn (hw : ∀ j ∈ S, 0 < w j) (hS : S.Nonempty) {n : Nat} (hsub : S ⊆ range n) :
    ∑ i ∈ range n, shareIn S w i = 1 := by
  unfold shareIn
  rw [sum_ite_mem, inter_eq_right.mpr hsub, ← sum_div, div_self (sum_pos hw hS).ne']

end Rust
