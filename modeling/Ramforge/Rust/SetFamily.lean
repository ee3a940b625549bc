/-
Families of finite sets, and what a member has in common with the others.

A point that one member alone has is counted once over any group of members, and no member
outside the group has it.
-/
import Mathlib.Algebra.Order.BigOperators.Group.Finset
import Mathlib.Combinatorics.Enumerative.DoubleCounting
import Mathlib.Data.Fintype.Basic
import Mathlib.Tactic

namespace Rust
namespace SetFamily

variable {ι α : Type} [Fintype ι] [DecidableEq ι] [DecidableEq α] {family : ι → Finset α} {i : ι}
  {a : α}

/-- The points that a member shares with another one. -/
def shared (family : ι → Finset α) (i : ι) : Finset α :=
  family i ∩ ({i}ᶜ : Finset ι).biUnion family

/-- The points of the members of `S` that no other member has. -/
def owned (family : ι → Finset α) (S : Finset ι) : Finset α :=
  S.biUnion family \ (Sᶜ : Finset ι).biUnion family

theorem mem_shared : a ∈ shared family i ↔ a ∈ family i ∧ ∃ j, j ≠ i ∧ a ∈ family j := by
  simp [shared]

/-- The same for the members of a list: only their sets matter. -/
theorem mem_shared_get {β : Type} {f : β → Finset α} {l : List β} {i : Fin l.length} :
    a ∈ shared (fun j => f (l.get j)) i ↔
      a ∈ f (l.get i) ∧ ∃ j A, j ≠ i.val ∧ (l.map f)[j]? = some A ∧ a ∈ A := by
  rw [mem_shared]
  refine and_congr_right fun _ => ⟨fun ⟨j, hne, ha⟩ => ?_, fun ⟨j, A, hne, hj, ha⟩ => ?_⟩
  · refine ⟨j, f (l.get j), fun h => hne (Fin.ext h), ?_, ha⟩
    rw [List.getElem?_map, List.getElem?_eq_getElem j.isLt]
    rfl
  · obtain ⟨b, hb, rfl⟩ := Option.map_eq_some_iff.mp ((List.getElem?_map ..).symm.trans hj)
    obtain ⟨hlt, rfl⟩ := List.getElem?_eq_some_iff.mp hb
    exact ⟨⟨j, hlt⟩, fun h => hne (congrArg Fin.val h), ha⟩

theorem mem_owned {S : Finset ι} :
    a ∈ owned family S ↔ (∃ i ∈ S, a ∈ family i) ∧ ∀ j, a ∈ family j → j ∈ S := by
  rw [owned, Finset.mem_sdiff, Finset.mem_biUnion, Finset.mem_biUnion]
  refine and_congr_right fun _ => ⟨fun h j hj => ?_, fun h hout => ?_⟩
  · by_contra hnot
    exact h ⟨j, Finset.mem_compl.mpr hnot, hj⟩
  · obtain ⟨j, hj, ha⟩ := hout
    exact Finset.mem_compl.mp hj (h j ha)

theorem shared_subset : shared family i ⊆ family i := Finset.inter_subset_left

theorem card_shared_le : (shared family i).card ≤ (family i).card :=
  Finset.card_le_card shared_subset

/-- What the members of a group do not share, taken together, are points of the group alone. -/
theorem sum_unshared_le (family : ι → Finset α) (S : Finset ι) :
    ∑ i ∈ S, ((family i).card - (shared family i).card) ≤ (owned family S).card := by
  have hcard : ∀ i ∈ S, (family i).card - (shared family i).card =
      (family i \ shared family i).card := fun i _ =>
    (Finset.card_sdiff_of_subset shared_subset).symm
  have hdisjoint : ∀ i ∈ S, ∀ j ∈ S, i ≠ j →
      Disjoint (family i \ shared family i) (family j \ shared family j) := by
    intro i _ j _ hne
    refine Finset.disjoint_left.mpr fun a hi hj => ?_
    obtain ⟨hi, hnot⟩ := Finset.mem_sdiff.mp hi
    exact hnot (mem_shared.mpr ⟨hi, j, hne.symm, (Finset.mem_sdiff.mp hj).1⟩)
  rw [Finset.sum_congr rfl hcard, ← Finset.card_biUnion hdisjoint]
  refine Finset.card_le_card fun a ha => ?_
  obtain ⟨i, hi, ha⟩ := Finset.mem_biUnion.mp ha
  obtain ⟨hmem, hnot⟩ := Finset.mem_sdiff.mp ha
  refine mem_owned.mpr ⟨⟨i, hi, hmem⟩, fun j hj => ?_⟩
  by_contra hout
  have hne : j ≠ i := fun h => hout (h ▸ hi)
  exact hnot (mem_shared.mpr ⟨hmem, j, hne, hj⟩)

/-! ## Initial segments under names

Each member counts up from zero under a name.  How many points there are depends only on
which members have one name. -/

section segments

variable {κ ν μ : Type} [DecidableEq κ] [DecidableEq ν] [DecidableEq μ] {S : Finset κ}
  {name : κ → ν} {other : κ → μ} {size : κ → Nat}

def segments (S : Finset κ) (name : κ → ν) (size : κ → Nat) : Finset (ν × Nat) :=
  S.biUnion fun i => (Finset.range (size i)).image (Prod.mk (name i))

omit [DecidableEq κ] in
theorem mem_segments {x : ν × Nat} :
    x ∈ segments S name size ↔ ∃ i ∈ S, x.1 = name i ∧ x.2 < size i := by
  simp only [segments, Finset.mem_biUnion, Finset.mem_image, Finset.mem_range]
  refine exists_congr fun i => and_congr_right fun _ => ⟨?_, ?_⟩
  · rintro ⟨n, hn, rfl⟩
    exact ⟨rfl, hn⟩
  · rintro ⟨hname, hlt⟩
    exact ⟨x.2, hlt, Prod.ext hname.symm rfl⟩

omit [DecidableEq κ] in
theorem segments_congr {size' : κ → Nat} (h : ∀ i ∈ S, size i = size' i) :
    segments S name size = segments S name size' :=
  Finset.biUnion_congr rfl fun i hi => by rw [h i hi]

omit [DecidableEq κ] in
theorem card_segments_le
    (h : ∀ i ∈ S, ∀ j ∈ S, 0 < size i → 0 < size j → other i = other j → name i = name j) :
    (segments S name size).card ≤ (segments S other size).card := by
  refine Finset.card_le_card_of_forall_subsingleton
    (fun x y => ∃ i ∈ S, x.1 = name i ∧ y.1 = other i ∧ x.2 = y.2 ∧ x.2 < size i) ?_ ?_
  · intro x hx
    obtain ⟨i, hi, hname, hlt⟩ := mem_segments.mp hx
    exact ⟨(other i, x.2), mem_segments.mpr ⟨i, hi, rfl, hlt⟩, i, hi, hname, rfl, rfl, hlt⟩
  · rintro y - x ⟨-, i, hi, hname, hother, hvalue, hlt⟩ x' ⟨-, j, hj, hname', hother', hvalue', hlt'⟩
    refine Prod.ext ?_ (hvalue.trans hvalue'.symm)
    rw [hname, hname']
    exact h i hi j hj (Nat.zero_lt_of_lt hlt) (Nat.zero_lt_of_lt hlt') (hother.symm.trans hother')

omit [DecidableEq κ] in
theorem card_segments_eq
    (h : ∀ i ∈ S, ∀ j ∈ S, 0 < size i → 0 < size j → (name i = name j ↔ other i = other j)) :
    (segments S name size).card = (segments S other size).card :=
  Nat.le_antisymm (card_segments_le fun i hi j hj hsi hsj => (h i hi j hj hsi hsj).mpr)
    (card_segments_le fun i hi j hj hsi hsj => (h i hi j hj hsi hsj).mp)

omit [DecidableEq κ] in
theorem card_segments_singleton (i : κ) : (segments {i} name size).card = size i := by
  rw [segments, Finset.singleton_biUnion,
    Finset.card_image_of_injective _ (Prod.mk_right_injective _), Finset.card_range]

theorem card_segments_pair_of_ne {i j : κ} (h : name i ≠ name j) :
    (segments {i, j} name size).card = size i + size j := by
  have hdisjoint : Disjoint ((Finset.range (size i)).image (Prod.mk (name i)))
      ((Finset.range (size j)).image (Prod.mk (name j))) := by
    refine Finset.disjoint_left.mpr fun x hx hx' => ?_
    obtain ⟨n, -, rfl⟩ := Finset.mem_image.mp hx
    obtain ⟨m, -, heq⟩ := Finset.mem_image.mp hx'
    exact h (congrArg Prod.fst heq).symm
  rw [segments, Finset.biUnion_insert, Finset.singleton_biUnion,
    Finset.card_union_of_disjoint hdisjoint,
    Finset.card_image_of_injective _ (Prod.mk_right_injective _),
    Finset.card_image_of_injective _ (Prod.mk_right_injective _), Finset.card_range,
    Finset.card_range]

theorem card_segments_pair_of_eq {i j : κ} (h : name i = name j) :
    (segments {i, j} name size).card = max (size i) (size j) := by
  have hunion : segments {i, j} name size =
      (Finset.range (max (size i) (size j))).image (Prod.mk (name i)) := by
    ext x
    simp only [mem_segments, Finset.mem_insert, Finset.mem_singleton, exists_eq_or_imp,
      exists_eq_left, Finset.mem_image, Finset.mem_range, ← h]
    constructor
    · rintro (⟨hname, hlt⟩ | ⟨hname, hlt⟩)
      · exact ⟨x.2, Nat.lt_of_lt_of_le hlt (Nat.le_max_left _ _), Prod.ext hname.symm rfl⟩
      · exact ⟨x.2, Nat.lt_of_lt_of_le hlt (Nat.le_max_right _ _), Prod.ext hname.symm rfl⟩
    · rintro ⟨n, hn, rfl⟩
      rcases Nat.lt_or_ge n (size i) with hlt | hge
      · exact .inl ⟨rfl, hlt⟩
      · exact .inr ⟨rfl, by omega⟩
  rw [hunion, Finset.card_image_of_injective _ (Prod.mk_right_injective _), Finset.card_range]

end segments

end SetFamily
end Rust
