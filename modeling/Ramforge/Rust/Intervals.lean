/-
Half-open intervals of numbers, and what a sweep over the sorted ones counts.

A sweep keeps one run.  An interval that begins behind the run closes it, and any other
one can only lengthen it, so the lengths of the runs are the points of the union.
-/
import Ramforge.Rust.Checked
import Mathlib.Order.Interval.Finset.Nat

namespace Rust
namespace Interval

/-- `sort_unstable` on pairs: by the first part, then by the second. -/
def before (a b : Nat × Nat) : Prop := a.1 < b.1 ∨ a.1 = b.1 ∧ a.2 ≤ b.2

instance : DecidableRel before := fun a b =>
  inferInstanceAs (Decidable (a.1 < b.1 ∨ a.1 = b.1 ∧ a.2 ≤ b.2))

instance : Std.Total before := ⟨fun a b => by unfold before; omega⟩

instance : IsTrans (Nat × Nat) before := ⟨fun a b c hab hbc => by unfold before at *; omega⟩

/-- The points of the intervals. -/
def points (xs : List (Nat × Nat)) : Finset Nat :=
  xs.foldr (fun x covered => Finset.Ico x.1 x.2 ∪ covered) ∅

@[simp] theorem points_nil : points [] = ∅ := rfl

@[simp] theorem points_cons (x : Nat × Nat) (xs : List (Nat × Nat)) :
    points (x :: xs) = Finset.Ico x.1 x.2 ∪ points xs := rfl

@[simp] theorem mem_points {xs : List (Nat × Nat)} {n : Nat} :
    n ∈ points xs ↔ ∃ x ∈ xs, x.1 ≤ n ∧ n < x.2 := by
  induction xs with
  | nil => simp
  | cons x rest ih => simp [ih]

theorem points_append (xs ys : List (Nat × Nat)) : points (xs ++ ys) = points xs ∪ points ys := by
  induction xs with
  | nil => simp
  | cons x rest ih => rw [List.cons_append, points_cons, points_cons, ih, Finset.union_assoc]

theorem points_perm {xs ys : List (Nat × Nat)} (h : xs.Perm ys) : points xs = points ys := by
  ext n
  simp only [mem_points, h.mem_iff]

theorem le_of_mem_points {next : Nat × Nat} {rest : List (Nat × Nat)} {n : Nat}
    (hsorted : (next :: rest).Pairwise fun a b => a.1 ≤ b.1) (hn : n ∈ points (next :: rest)) :
    next.1 ≤ n := by
  obtain ⟨x, hx, hbegin, -⟩ := mem_points.mp hn
  rcases List.mem_cons.mp hx with rfl | hx
  · exact hbegin
  · exact Nat.le_trans ((List.pairwise_cons.mp hsorted).1 x hx) hbegin

/-- An interval that begins in a run, or where the run ends, lengthens it. -/
theorem points_join {next : Nat × Nat} {rest : List (Nat × Nat)} {first last : Nat}
    (hfirst : first ≤ next.1) (hlast : ¬last < next.1) :
    points ((first, last) :: next :: rest) = points ((first, max last next.2) :: rest) := by
  have hmerged : Finset.Ico first last ∪ Finset.Ico next.1 next.2 =
      Finset.Ico first (max last next.2) := by
    ext n
    simp only [Finset.mem_union, Finset.mem_Ico]
    omega
  rw [points_cons, points_cons, points_cons, ← Finset.union_assoc, hmerged]

/-- The points of the run from `first` to `last` and of the sorted intervals behind it. -/
def sweep : List (Nat × Nat) → Nat → Nat → Nat
  | [], first, last => last - first
  | next :: rest, first, last =>
    if last < next.1 then last - first + sweep rest next.1 next.2
    else sweep rest first (max last next.2)

theorem sweep_eq {xs : List (Nat × Nat)} {first last : Nat}
    (hsorted : ((first, last) :: xs).Pairwise fun a b => a.1 ≤ b.1) :
    sweep xs first last = (points ((first, last) :: xs)).card := by
  induction xs generalizing first last with
  | nil => simp [sweep]
  | cons next rest ih =>
    obtain ⟨hfirst, hrest⟩ := List.pairwise_cons.mp hsorted
    obtain ⟨hnext, htail⟩ := List.pairwise_cons.mp hrest
    have hle : first ≤ next.1 := hfirst next List.mem_cons_self
    unfold sweep
    split
    next hgap =>
      have hdisjoint : Disjoint (Finset.Ico first last) (points (next :: rest)) := by
        refine Finset.disjoint_left.mpr fun n hn hm => ?_
        obtain ⟨-, hlast⟩ := Finset.mem_Ico.mp hn
        have hstart := le_of_mem_points hrest hm
        omega
      rw [ih hrest, points_cons (first, last), Finset.card_union_of_disjoint hdisjoint, Nat.card_Ico]
    next hjoin =>
      have hsorted' : ((first, max last next.2) :: rest).Pairwise fun a b => a.1 ≤ b.1 :=
        List.pairwise_cons.mpr ⟨fun x hx => hfirst x (List.mem_cons_of_mem _ hx), htail⟩
      rw [ih hsorted', points_join hle hjoin]

theorem begins_sorted {xs ys : List (Nat × Nat)} (h : xs.insertionSort before = ys) :
    ys.Pairwise fun a b => a.1 ≤ b.1 := by
  have hsorted := List.pairwise_insertionSort before xs
  rw [h] at hsorted
  exact hsorted.imp fun hab => by unfold before at hab; omega

/-- A sweep over the sorted intervals counts their points. -/
theorem sweep_sorted {xs rest : List (Nat × Nat)} {first last : Nat}
    (h : xs.insertionSort before = (first, last) :: rest) :
    sweep rest first last = (points xs).card := by
  rw [sweep_eq (begins_sorted h), ← h, points_perm (List.perm_insertionSort before xs)]

theorem card_points_lt {xs : List (Nat × Nat)} {bound : Nat} (hbound : 0 < bound)
    (hlt : ∀ x ∈ xs, x.2 < bound) : (points xs).card < bound := by
  have hsubset : points xs ⊆ Finset.range (bound - 1) := by
    intro n hn
    obtain ⟨x, hx, -, hend⟩ := mem_points.mp hn
    have := hlt x hx
    exact Finset.mem_range.mpr (by omega)
  have hcard := Finset.card_le_card hsubset
  rw [Finset.card_range] at hcard
  omega

/-! ## Where a run begins -/

/-- A point with no point before it. -/
def Begins (xs : List (Nat × Nat)) (b : Nat) : Prop :=
  b ∈ points xs ∧ ∀ c, c + 1 = b → c ∉ points xs

/-- The begin of the run that the sweep ends with. -/
def lastBegin : List (Nat × Nat) → Nat → Nat → Nat
  | [], first, _ => first
  | next :: rest, first, last =>
    if last < next.1 then lastBegin rest next.1 next.2 else lastBegin rest first (max last next.2)

/-- The run that the sweep ends with is the last one. -/
theorem lastBegin_greatest {xs : List (Nat × Nat)} {first last : Nat} (hlt : first < last)
    (hne : ∀ x ∈ xs, x.1 < x.2)
    (hsorted : ((first, last) :: xs).Pairwise fun a b => a.1 ≤ b.1) :
    Begins ((first, last) :: xs) (lastBegin xs first last) ∧
      ∀ b, Begins ((first, last) :: xs) b → b ≤ lastBegin xs first last := by
  induction xs generalizing first last with
  | nil =>
    simp only [Begins, lastBegin, points_cons, points_nil, Finset.union_empty, Finset.mem_Ico]
    refine ⟨⟨⟨Nat.le_refl _, hlt⟩, fun c hc => by omega⟩, fun b hb => ?_⟩
    by_contra hgt
    exact hb.2 (b - 1) (by omega) (by omega)
  | cons next rest ih =>
    obtain ⟨hfirst, hrest⟩ := List.pairwise_cons.mp hsorted
    obtain ⟨hnext, htail⟩ := List.pairwise_cons.mp hrest
    have hle : first ≤ next.1 := hfirst next List.mem_cons_self
    have hnlt : next.1 < next.2 := hne next List.mem_cons_self
    have hne' : ∀ x ∈ rest, x.1 < x.2 := fun x hx => hne x (List.mem_cons_of_mem _ hx)
    unfold lastBegin
    split
    next hgap =>
      obtain ⟨hbegins, hgreatest⟩ := ih hnlt hne' hrest
      have hafter := le_of_mem_points hrest hbegins.1
      have hmem : ∀ n, n ∈ points ((first, last) :: next :: rest) ↔
          (first ≤ n ∧ n < last) ∨ n ∈ points (next :: rest) := by
        intro n
        rw [points_cons (first, last), Finset.mem_union, Finset.mem_Ico]
      refine ⟨⟨(hmem _).mpr (.inr hbegins.1), fun c hc hin => ?_⟩, fun b hb => ?_⟩
      · rcases (hmem c).mp hin with hin | hin
        · omega
        · exact hbegins.2 c hc hin
      · rcases (hmem b).mp hb.1 with hin | hin
        · omega
        · exact hgreatest b ⟨hin, fun c hc hcin => hb.2 c hc ((hmem c).mpr (.inr hcin))⟩
    next hjoin =>
      have hsorted' : ((first, max last next.2) :: rest).Pairwise fun a b => a.1 ≤ b.1 :=
        List.pairwise_cons.mpr ⟨fun x hx => hfirst x (List.mem_cons_of_mem _ hx), htail⟩
      have hjoined := ih (Nat.lt_of_lt_of_le hlt (Nat.le_max_left _ _)) hne' hsorted'
      unfold Begins at hjoined ⊢
      rw [points_join hle hjoin]
      exact hjoined

theorem lastBegin_sorted {xs rest : List (Nat × Nat)} {first last : Nat}
    (h : xs.insertionSort before = (first, last) :: rest) (hne : ∀ x ∈ xs, x.1 < x.2) :
    Begins xs (lastBegin rest first last) ∧ ∀ b, Begins xs b → b ≤ lastBegin rest first last := by
  have hperm := List.perm_insertionSort before xs
  rw [h] at hperm
  have hne' : ∀ x ∈ (first, last) :: rest, x.1 < x.2 := fun x hx => hne x (hperm.mem_iff.mp hx)
  have hgreatest := lastBegin_greatest (hne' _ List.mem_cons_self)
    (fun x hx => hne' x (List.mem_cons_of_mem _ hx)) (begins_sorted h)
  unfold Begins at hgreatest ⊢
  rwa [points_perm hperm] at hgreatest

/-! ## Disjoint intervals -/

/-- Two intervals with no point in common. -/
def Apart (a b : Nat × Nat) : Prop := Disjoint (Finset.Ico a.1 a.2) (Finset.Ico b.1 b.2)

theorem card_points_of_apart {xs : List (Nat × Nat)} (h : xs.Pairwise Apart) :
    (points xs).card = (xs.map fun x => x.2 - x.1).sum := by
  induction xs with
  | nil => rfl
  | cons x rest ih =>
    obtain ⟨hx, hrest⟩ := List.pairwise_cons.mp h
    have hdisjoint : Disjoint (Finset.Ico x.1 x.2) (points rest) := by
      refine Finset.disjoint_left.mpr fun n hn hm => ?_
      obtain ⟨y, hy, hbegin, hend⟩ := mem_points.mp hm
      exact Finset.disjoint_left.mp (hx y hy) hn (Finset.mem_Ico.mpr ⟨hbegin, hend⟩)
    rw [points_cons, Finset.card_union_of_disjoint hdisjoint, Nat.card_Ico, ih hrest, List.map_cons,
      List.sum_cons]

/-- Disjoint intervals that end below a bound are shorter together than the bound. -/
theorem sum_lt_of_apart {xs : List (Nat × Nat)} {bound : Nat} (hbound : 0 < bound)
    (hapart : xs.Pairwise Apart) (hlt : ∀ x ∈ xs, x.2 < bound) :
    (xs.map fun x => x.2 - x.1).sum < bound := by
  rw [← card_points_of_apart hapart]
  exact card_points_lt hbound hlt

/-! ## Saturating sums -/

theorem saturatingAdd_add (a b c : Nat) :
    saturatingAdd (saturatingAdd a b) c = saturatingAdd a (b + c) := by
  unfold saturatingAdd
  omega

/-- The sweep as a loop with a saturating total. -/
def sweepFrom : List (Nat × Nat) → Nat → Nat → Nat → Nat
  | [], total, first, last => saturatingAdd total (last - first)
  | next :: rest, total, first, last =>
    if last < next.1 then sweepFrom rest (saturatingAdd total (last - first)) next.1 next.2
    else sweepFrom rest total first (max last next.2)

theorem sweepFrom_eq (xs : List (Nat × Nat)) (total first last : Nat) :
    sweepFrom xs total first last = saturatingAdd total (sweep xs first last) := by
  induction xs generalizing total first last with
  | nil => rfl
  | cons next rest ih =>
    unfold sweepFrom sweep
    split
    next => rw [ih, saturatingAdd_add]
    next => exact ih _ _ _

end Interval
end Rust
