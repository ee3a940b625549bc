/-
The pages that the resources of a model share.

A byte of a page range is told apart by its mapping, so the resources are a family of sets
of such bytes, and what a resource shares is what it has in common with the others.
-/
import Ramforge.Rust.RangeSet
import Ramforge.Rust.SetFamily
import Ramforge.Runtime.InventoryScan

namespace Ramforge

open Std Rust Rust.Exec Rust.Interval

namespace ResourceInventory

/-! ## The merge -/

section merge

variable {build : Build} {xs rest : List (Nat × Nat)} {next : Nat × Nat}
  {total first last value : Nat}

theorem mergeIntervals_gap (hle : first ≤ last) (hgap : last < next.1) :
    mergeIntervals build (next :: rest) total first last =
      (build.add total (last - first)).bind fun total =>
        mergeIntervals build rest total next.1 next.2 := by
  rw [mergeIntervals, if_pos hgap, Build.sub_of_le hle]
  rfl

theorem mergeIntervals_join (hjoin : ¬last < next.1) :
    mergeIntervals build (next :: rest) total first last =
      mergeIntervals build rest total first (max last next.2) := by
  rw [mergeIntervals, if_neg hjoin, ← max_def_lt]

/-- A merge that fits is the same in both kinds of build. -/
theorem mergeIntervals_of_lt (hle : first ≤ last) (hne : ∀ x ∈ rest, x.1 < x.2)
    (hlt : total + sweep rest first last + lastBegin rest first last < u64Bound) :
    mergeIntervals build rest total first last = some (total + sweep rest first last) := by
  induction rest generalizing total first last with
  | nil =>
    simp only [sweep, lastBegin] at hlt ⊢
    rw [mergeIntervals, Build.add_of_lt (by omega), Option.bind_eq_bind, Option.bind_some,
      Build.sub_of_le (by omega), Nat.add_sub_assoc hle]
  | cons next rest ih =>
    have hnext := hne next List.mem_cons_self
    have hrest : ∀ x ∈ rest, x.1 < x.2 := fun x hx => hne x (List.mem_cons_of_mem _ hx)
    rw [sweep, lastBegin] at hlt
    rw [sweep]
    by_cases hgap : last < next.1
    · rw [if_pos hgap, if_pos hgap] at hlt
      rw [if_pos hgap, mergeIntervals_gap hle hgap, Build.add_of_lt (by omega), Option.bind_some,
        ih (Nat.le_of_lt hnext) hrest (by omega), Nat.add_assoc]
    · rw [if_neg hgap, if_neg hgap] at hlt
      rw [if_neg hgap, mergeIntervals_join hgap]
      exact ih (Nat.le_trans hle (Nat.le_max_left _ _)) hrest hlt

/-- A debug build checks the last sum, of the runs before and the end of the last run. -/
theorem lt_of_mergeIntervals_debug (hle : first ≤ last) (hne : ∀ x ∈ rest, x.1 < x.2)
    (h : mergeIntervals .debug rest total first last = some value) :
    total + sweep rest first last + lastBegin rest first last < u64Bound := by
  induction rest generalizing total first last with
  | nil =>
    obtain ⟨sum, hsum, -⟩ := Option.bind_eq_some_iff.mp h
    have hlt := (checkedAdd_eq_some.mp hsum).1
    simp only [sweep, lastBegin]
    omega
  | cons next rest ih =>
    have hnext := hne next List.mem_cons_self
    have hrest : ∀ x ∈ rest, x.1 < x.2 := fun x hx => hne x (List.mem_cons_of_mem _ hx)
    rw [sweep, lastBegin]
    by_cases hgap : last < next.1
    · rw [mergeIntervals_gap hle hgap] at h
      obtain ⟨sum, hsum, h⟩ := Option.bind_eq_some_iff.mp h
      obtain ⟨-, rfl⟩ := checkedAdd_eq_some.mp hsum
      rw [if_pos hgap, if_pos hgap, ← Nat.add_assoc]
      exact ih (Nat.le_of_lt hnext) hrest h
    · rw [mergeIntervals_join hgap] at h
      rw [if_neg hgap, if_neg hgap]
      exact ih (Nat.le_trans hle (Nat.le_max_left _ _)) hrest h

/-- Whatever wraps on the way, a merge that returns gives the size of the union. -/
theorem mergeIntervals_eq (hle : first ≤ last) (hne : ∀ x ∈ rest, x.1 < x.2)
    (hlast : last < u64Bound) (hends : ∀ x ∈ rest, x.2 < u64Bound)
    (hlt : total + sweep rest first last < u64Bound)
    (h : mergeIntervals build rest total first last = some value) :
    value = total + sweep rest first last := by
  induction rest generalizing total first last with
  | nil =>
    obtain ⟨sum, hsum, hvalue⟩ := Option.bind_eq_some_iff.mp h
    exact Build.add_sub_eq hle hlast hlt hsum hvalue
  | cons next rest ih =>
    have hnext := hne next List.mem_cons_self
    have hnextEnd := hends next List.mem_cons_self
    have hrest : ∀ x ∈ rest, x.1 < x.2 := fun x hx => hne x (List.mem_cons_of_mem _ hx)
    have hrestEnds : ∀ x ∈ rest, x.2 < u64Bound := fun x hx => hends x (List.mem_cons_of_mem _ hx)
    rw [sweep] at hlt ⊢
    by_cases hgap : last < next.1
    · rw [if_pos hgap] at hlt ⊢
      rw [mergeIntervals_gap hle hgap, Build.add_of_lt (by omega), Option.bind_some] at h
      rw [← Nat.add_assoc]
      exact ih (Nat.le_of_lt hnext) hrest hnextEnd hrestEnds (by omega) h
    · rw [if_neg hgap] at hlt ⊢
      rw [mergeIntervals_join hgap] at h
      exact ih (Nat.le_trans hle (Nat.le_max_left _ _)) hrest (Nat.max_lt.mpr ⟨hlast, hnextEnd⟩)
        hrestEnds hlt h

theorem exists_mergeIntervals_release (rest : List (Nat × Nat)) (total first last : Nat) :
    ∃ value, mergeIntervals .release rest total first last = some value := by
  induction rest generalizing total first last with
  | nil =>
    obtain ⟨sum, hsum⟩ := Build.exists_release_add total last
    obtain ⟨value, hvalue⟩ := Build.exists_release_sub sum first
    exact ⟨value, by rw [mergeIntervals, hsum]; exact hvalue⟩
  | cons next rest ih =>
    rw [mergeIntervals]
    split
    next =>
      obtain ⟨length, hlength⟩ := Build.exists_release_sub last first
      obtain ⟨sum, hsum⟩ := Build.exists_release_add total length
      rw [hlength, Option.bind_eq_bind, Option.bind_some, hsum]
      exact ih sum next.1 next.2
    next => exact ih total first _

/-- What a debug build needs of a merge: the bytes before the last run, and its end, fit a
`u64` together. -/
def MergeFits (xs : List (Nat × Nat)) : Prop :=
  ∀ b, Begins xs b → (points xs).card + b < u64Bound

/-- The two shapes of a list to merge. -/
theorem mergedIntervalBytes_cases (build : Build) {xs : List (Nat × Nat)}
    (hne : ∀ x ∈ xs, x.1 < x.2) :
    (xs = [] ∧ mergedIntervalBytes build xs = some 0) ∨
    ∃ first last rest, first ≤ last ∧ (∀ x ∈ rest, x.1 < x.2) ∧
      (∀ x ∈ (first, last) :: rest, x ∈ xs) ∧
      mergedIntervalBytes build xs = mergeIntervals build rest 0 first last ∧
      sweep rest first last = (points xs).card ∧
      (MergeFits xs ↔ (points xs).card + lastBegin rest first last < u64Bound) := by
  have hperm := List.perm_insertionSort before xs
  cases hsorted : xs.insertionSort before with
  | nil =>
    rw [hsorted] at hperm
    refine .inl ⟨hperm.symm.eq_nil, ?_⟩
    rw [hperm.symm.eq_nil]
    rfl
  | cons head rest =>
    obtain ⟨first, last⟩ := head
    rw [hsorted] at hperm
    have hmem : ∀ x ∈ (first, last) :: rest, x ∈ xs := fun x hx => hperm.mem_iff.mp hx
    obtain ⟨hbegins, hgreatest⟩ := lastBegin_sorted hsorted hne
    refine .inr ⟨first, last, rest, Nat.le_of_lt (hne _ (hmem _ List.mem_cons_self)),
      fun x hx => hne x (hmem x (List.mem_cons_of_mem _ hx)), hmem, ?_, sweep_sorted hsorted, ?_⟩
    · have hsame : xs.insertionSort intervalLe = (first, last) :: rest := hsorted
      rw [mergedIntervalBytes, hsame]
    · refine ⟨fun h => h _ hbegins, fun h b hb => ?_⟩
      have := hgreatest b hb
      omega

theorem mergedIntervalBytes_of_fits (hne : ∀ x ∈ xs, x.1 < x.2) (hfits : MergeFits xs) :
    mergedIntervalBytes build xs = some (points xs).card := by
  rcases mergedIntervalBytes_cases build hne with
    ⟨rfl, hmerged⟩ | ⟨first, last, rest, hle, hrest, -, hmerged, hsweep, hiff⟩
  · exact hmerged
  · rw [hmerged, mergeIntervals_of_lt hle hrest (by rw [Nat.zero_add, hsweep]; exact hiff.mp hfits),
      Nat.zero_add, hsweep]

theorem mergeFits_of_debug (hne : ∀ x ∈ xs, x.1 < x.2)
    (h : mergedIntervalBytes .debug xs = some value) : MergeFits xs := by
  rcases mergedIntervalBytes_cases .debug hne with
    ⟨rfl, -⟩ | ⟨first, last, rest, hle, hrest, -, hmerged, hsweep, hiff⟩
  · exact fun b hb => absurd hb.1 (Finset.notMem_empty b)
  · rw [hmerged] at h
    have hlt := lt_of_mergeIntervals_debug hle hrest h
    rw [Nat.zero_add, hsweep] at hlt
    exact hiff.mpr hlt

theorem mergedIntervalBytes_eq (hne : ∀ x ∈ xs, x.1 < x.2) (hends : ∀ x ∈ xs, x.2 < u64Bound)
    (h : mergedIntervalBytes build xs = some value) : value = (points xs).card := by
  rcases mergedIntervalBytes_cases build hne with
    ⟨rfl, hmerged⟩ | ⟨first, last, rest, hle, hrest, hmem, hmerged, hsweep, -⟩
  · rw [hmerged] at h
    cases h
    rfl
  · have hcard : (points xs).card < u64Bound := card_points_lt (by decide) hends
    rw [hmerged] at h
    have hvalue := mergeIntervals_eq hle hrest (hends _ (hmem _ List.mem_cons_self))
      (fun x hx => hends x (hmem x (List.mem_cons_of_mem _ hx)))
      (by rw [Nat.zero_add, hsweep]; exact hcard) h
    rw [hvalue, Nat.zero_add, hsweep]

theorem exists_mergedIntervalBytes_release (xs : List (Nat × Nat)) :
    ∃ value, mergedIntervalBytes .release xs = some value := by
  rw [mergedIntervalBytes]
  cases xs.insertionSort intervalLe with
  | nil => exact ⟨0, rfl⟩
  | cons head rest => exact exists_mergeIntervals_release rest 0 head.1 head.2

end merge

end ResourceInventory

/-! ## The family of page ranges -/

/-- The bytes of the page range of a file-backed resource, each with its mapping. -/
def TensorResource.filePages (r : TensorResource) : Finset (Option Nat × Nat) :=
  if r.fileBacked then cell r.mappingIndex r.pageStart r.pageEnd else ∅

theorem TensorResource.mem_filePages {r : TensorResource} {key : Option Nat × Nat} :
    key ∈ r.filePages ↔
      r.fileBacked = true ∧ key.1 = r.mappingIndex ∧ r.pageStart ≤ key.2 ∧ key.2 < r.pageEnd := by
  rw [filePages]
  cases r.fileBacked with
  | false => simp
  | true => simp [mem_cell]

namespace ResourceInventory

def pagesAt (resources : List TensorResource) (i : Fin resources.length) :
    Finset (Option Nat × Nat) :=
  (resources.get i).filePages

/-- The page bytes are those of the range, and an anonymous resource has none. -/
structure Cut (r : TensorResource) : Prop where
  pageBytes : r.pageBytes = r.pageEnd - r.pageStart
  anonymous : r.fileBacked = false → r.pageBytes = 0

theorem Cut.card_filePages {r : TensorResource} (h : Cut r) : r.filePages.card = r.pageBytes := by
  rw [TensorResource.filePages]
  cases hfile : r.fileBacked with
  | false => rw [if_neg (by decide), Finset.card_empty, h.anonymous hfile]
  | true => rw [if_pos rfl, card_cell, h.pageBytes]

section overlaps

variable {β : Type} {all : List TensorResource} {l : List β} {f : β → Finset (Option Nat × Nat)}
  {index : Nat} {r : TensorResource}

theorem mem_overlaps {x : Nat × Nat} :
    x ∈ overlaps all index r ↔ ∃ j other, all[j]? = some other ∧ index ≠ j ∧
      other.fileBacked = true ∧ other.mappingIndex = r.mappingIndex ∧ other.pageBytes ≠ 0 ∧
      x = (max r.pageStart other.pageStart, min r.pageEnd other.pageEnd) ∧ x.1 < x.2 := by
  rw [overlaps, List.mem_filterMap]
  constructor
  · rintro ⟨⟨other, j⟩, hmem, hsome⟩
    simp only at hsome
    split at hsome
    next => cases hsome
    next hnot =>
      simp only [not_or, not_not] at hnot
      obtain ⟨hindex, hfile, hmapping, hpages⟩ := hnot
      obtain ⟨hlt, hx⟩ := Option.ite_none_right_eq_some.mp hsome
      cases hx
      exact ⟨j, other, List.mem_zipIdx_iff_getElem?.mp hmem, hindex, hfile, hmapping, hpages, rfl,
        hlt⟩
  · rintro ⟨j, other, hj, hindex, hfile, hmapping, hpages, rfl, hlt⟩
    refine ⟨(other, j), List.mem_zipIdx_iff_getElem?.mpr hj, ?_⟩
    simp only
    rw [if_neg (by simp only [not_or, not_not]; exact ⟨hindex, hfile, hmapping, hpages⟩)]
    exact if_pos hlt

theorem overlaps_nonempty : ∀ x ∈ overlaps all index r, x.1 < x.2 := by
  intro x hx
  obtain ⟨_, _, _, _, _, _, _, _, hlt⟩ := mem_overlaps.mp hx
  exact hlt

theorem overlaps_lt (h : r.pageEnd < u64Bound) : ∀ x ∈ overlaps all index r, x.2 < u64Bound := by
  intro x hx
  obtain ⟨_, _, _, _, _, _, _, rfl, -⟩ := mem_overlaps.mp hx
  exact Nat.lt_of_le_of_lt (Nat.min_le_left _ _) h

theorem pages_of_map_eq (hsame : l.map f = all.map TensorResource.filePages) {i : Fin l.length}
    (hr : all[i.val]? = some r) : f (l.get i) = r.filePages := by
  have h := congrArg (fun sets : List (Finset (Option Nat × Nat)) => sets[i.val]?) hsame
  simp only [List.getElem?_map, hr, List.getElem?_eq_getElem i.isLt, Option.map_some,
    Option.some.injEq] at h
  exact h

/-- The bytes that a resource has in common with the others are the points of its overlaps.
The resources may be given by any list that has their pages. -/
theorem shared_eq_image (hcut : ∀ other ∈ all, Cut other)
    (hsame : l.map f = all.map TensorResource.filePages) {i : Fin l.length}
    (hr : all[i.val]? = some r) (hfile : r.fileBacked = true) :
    SetFamily.shared (fun j => f (l.get j)) i =
      (points (overlaps all i r)).image (Prod.mk r.mappingIndex) := by
  ext ⟨mapping, n⟩
  rw [SetFamily.mem_shared_get, hsame, pages_of_map_eq hsame hr, TensorResource.mem_filePages,
    Finset.mem_image]
  simp only [mem_points, mem_overlaps, Prod.mk.injEq]
  constructor
  · rintro ⟨⟨-, rfl, hbegin, hend⟩, j, A, hne, hj, hA⟩
    obtain ⟨other, hother, rfl⟩ := Option.map_eq_some_iff.mp ((List.getElem?_map ..).symm.trans hj)
    obtain ⟨hfile', hmapping, hbegin', hend'⟩ := TensorResource.mem_filePages.mp hA
    have hpages := (hcut other (List.mem_of_getElem? hother)).pageBytes
    refine ⟨n, ⟨_, ⟨j, other, hother, Ne.symm hne, hfile', hmapping.symm, ?_, rfl, ?_⟩, ?_, ?_⟩, rfl, rfl⟩
    · omega
    · show max r.pageStart other.pageStart < min r.pageEnd other.pageEnd
      omega
    · exact Nat.max_le.mpr ⟨hbegin, hbegin'⟩
    · exact Nat.lt_min.mpr ⟨hend, hend'⟩
  · rintro ⟨m, ⟨_, ⟨j, other, hother, hne, hfile', hmapping, -, rfl, -⟩, hbegin, hend⟩, rfl, rfl⟩
    obtain ⟨hbegin, hbegin'⟩ := Nat.max_le.mp hbegin
    obtain ⟨hend, hend'⟩ := Nat.lt_min.mp hend
    refine ⟨⟨hfile, rfl, hbegin, hend⟩, j, other.filePages, Ne.symm hne, ?_, ?_⟩
    · rw [List.getElem?_map, hother, Option.map_some]
    · exact TensorResource.mem_filePages.mpr ⟨hfile', hmapping.symm, hbegin', hend'⟩

/-- A resource without pages shares none. -/
theorem shared_eq_empty (hcut : ∀ other ∈ all, Cut other)
    (hsame : l.map f = all.map TensorResource.filePages) {i : Fin l.length}
    (hr : all[i.val]? = some r) (hnone : ¬r.fileBacked ∨ r.pageBytes = 0) :
    SetFamily.shared (fun j => f (l.get j)) i = ∅ := by
  have hcutr := hcut r (List.mem_of_getElem? hr)
  have hzero : r.pageBytes = 0 := by
    rcases hnone with hnot | hzero
    · exact hcutr.anonymous (Bool.not_eq_true _ ▸ hnot)
    · exact hzero
  have hempty : r.filePages = ∅ := Finset.card_eq_zero.mp (hcutr.card_filePages.trans hzero)
  rw [← pages_of_map_eq hsame hr] at hempty
  exact Finset.subset_empty.mp (hempty ▸ SetFamily.shared_subset)

/-- The entry of a resource is the number of bytes that it shares. -/
theorem sharedEntry_getD {build : Build} {entry : Option Nat} (hcut : ∀ other ∈ all, Cut other)
    (hsame : l.map f = all.map TensorResource.filePages) {i : Fin l.length}
    (hr : all[i.val]? = some r) (hend : r.pageEnd < u64Bound)
    (h : sharedEntry build all i r = some entry) :
    entry.getD 0 = (SetFamily.shared (fun j => f (l.get j)) i).card := by
  rw [sharedEntry] at h
  split at h
  next hnone =>
    cases h
    rw [shared_eq_empty hcut hsame hr hnone]
    rfl
  next hsome =>
    obtain ⟨hfile, -⟩ := not_or.mp hsome
    obtain ⟨bytes, hmerged, rfl⟩ := Option.map_eq_some_iff.mp h
    rw [shared_eq_image hcut hsame hr (not_not.mp hfile),
      Finset.card_image_of_injective _ (Prod.mk_right_injective _), Option.getD_some]
    exact mergedIntervalBytes_eq overlaps_nonempty (overlaps_lt hend) hmerged

end overlaps

/-! ## The inventory -/

section inventory

variable {build : Build} {generation : ModelGeneration} {position : Nat}
  {mapping : TensorMappingInfo} {mappings : List TensorMappingInfo} {inventory : ResourceInventory}

theorem cut_scanned : Cut (scanned generation position mapping) := by
  rw [scanned]
  split
  next hfile => exact ⟨rfl, fun h => absurd (hfile.symm.trans h) (by decide)⟩
  next => exact ⟨rfl, fun _ => rfl⟩

theorem pageEnd_scanned_lt (h : mapping.mappingSize < u64Bound) :
    (scanned generation position mapping).pageEnd < u64Bound := by
  rw [scanned]
  split
  next => exact Nat.lt_of_le_of_lt (Nat.min_le_right _ _) h
  next => exact (by decide : 0 < u64Bound)

theorem sharedPageBytes_scanned : (scanned generation position mapping).sharedPageBytes = 0 := by
  rw [scanned]
  split <;> rfl

theorem mem_scannedFrom {r : TensorResource} (h : r ∈ scannedFrom generation position mappings) :
    ∃ index, ∃ mapping ∈ mappings, r = scanned generation index mapping := by
  obtain ⟨⟨mapping, index⟩, hmem, rfl⟩ := List.mem_map.mp h
  exact ⟨index, mapping, List.fst_mem_of_mem_zipIdx hmem, rfl⟩

/-- What the shared bytes of an inventory say. -/
structure SharesExactly (inventory : ResourceInventory) : Prop where
  shared_eq : ∀ i : Fin inventory.resources.length, (inventory.resources.get i).fileBacked = true →
    (inventory.resources.get i).sharedPageBytes =
      (SetFamily.shared (pagesAt inventory.resources) i).card
  shared_le : ∀ i : Fin inventory.resources.length, (inventory.resources.get i).fileBacked = true →
    (inventory.resources.get i).sharedPageBytes ≤ (inventory.resources.get i).pageBytes
  reclaimable_le : ∀ S : Finset (Fin inventory.resources.length),
    ∑ i ∈ S, (inventory.resources.get i).uniqueReclaimableBytes ≤
      (SetFamily.owned (pagesAt inventory.resources) S).card

/-- Exact shared bytes bound what a group of resources can give back. -/
theorem SharesExactly.of_shared (hcut : ∀ r ∈ inventory.resources, Cut r)
    (hshared : ∀ i : Fin inventory.resources.length, (inventory.resources.get i).sharedPageBytes =
      (SetFamily.shared (pagesAt inventory.resources) i).card) : SharesExactly inventory where
  shared_eq i _ := hshared i
  shared_le i _ := by
    rw [hshared i, ← (hcut _ (List.get_mem _ i)).card_filePages]
    exact SetFamily.card_shared_le
  reclaimable_le S := by
    have hunique : ∀ i ∈ S, (inventory.resources.get i).uniqueReclaimableBytes =
        (pagesAt inventory.resources i).card -
          (SetFamily.shared (pagesAt inventory.resources) i).card := by
      intro i _
      rw [TensorResource.uniqueReclaimableBytes, hshared i,
        ← (hcut _ (List.get_mem _ i)).card_filePages]
      rfl
    rw [Finset.sum_congr rfl hunique]
    exact SetFamily.sum_unshared_le _ S

theorem filePages_withShared (r : TensorResource) (entry : Option Nat) :
    (withShared r entry).filePages = r.filePages := rfl

theorem sharesExactly_of_ok {modelId : ModelId}
    (hsize : ∀ mapping ∈ mappings, mapping.mappingSize < u64Bound)
    (h : (fromTensorMappings build modelId generation mappings ()).1 = .ok inventory) :
    SharesExactly inventory := by
  obtain ⟨-, summary, entries, -, hentries, hresources, -⟩ := fromTensorMappings_ok (Prod.ext h rfl)
  have hlength := hentries.length_eq
  have hat : ∀ i : Fin inventory.resources.length, ∃ r entry,
      (scannedFrom generation 0 mappings)[i.val]? = some r ∧
        sharedEntry build (scannedFrom generation 0 mappings) i r = some entry ∧
        inventory.resources.get i = withShared r entry := by
    rintro ⟨i, hi⟩
    have hi₀ : i < (scannedFrom generation 0 mappings).length := by
      rw [hresources, List.length_zipWith] at hi
      omega
    have hr := List.getElem?_eq_getElem hi₀
    obtain ⟨entry, hentry, hshared⟩ := hentries.exists_of_getElem? hr
    refine ⟨_, entry, hr, hshared, ?_⟩
    have hget : inventory.resources[i]? =
        some (withShared (scannedFrom generation 0 mappings)[i] entry) := by
      rw [hresources, List.getElem?_zipWith, hr, hentry]
    rw [List.getElem?_eq_getElem hi] at hget
    exact Option.some.inj hget
  have hcut : ∀ r ∈ scannedFrom generation 0 mappings, Cut r := by
    intro r hr
    obtain ⟨index, mapping, -, rfl⟩ := mem_scannedFrom hr
    exact cut_scanned
  have hsame : inventory.resources.map TensorResource.filePages =
      (scannedFrom generation 0 mappings).map TensorResource.filePages := by
    rw [hresources, map_withShared filePages_withShared hlength]
  refine SharesExactly.of_shared (fun r hr => ?_) fun i => ?_
  · obtain ⟨i, hi, rfl⟩ := List.getElem_of_mem hr
    obtain ⟨r, entry, hr, -, hwith⟩ := hat ⟨i, hi⟩
    have hr := hcut r (List.mem_of_getElem? hr)
    have hget : inventory.resources[i] = withShared r entry := hwith
    rw [hget]
    exact ⟨hr.pageBytes, hr.anonymous⟩
  · obtain ⟨r, entry, hr, hentry, hwith⟩ := hat i
    obtain ⟨index, mapping, hmem, hscanned⟩ := mem_scannedFrom (List.mem_of_getElem? hr)
    have hend : r.pageEnd < u64Bound := hscanned ▸ pageEnd_scanned_lt (hsize mapping hmem)
    have hzero : r.sharedPageBytes = 0 := hscanned ▸ sharedPageBytes_scanned
    have hcard := sharedEntry_getD hcut hsame hr hend hentry
    rw [hwith]
    refine Eq.trans ?_ hcard
    rw [← hzero]
    rfl

theorem exists_tally_release (summary : InventorySummary) (mapping : TensorMappingInfo) :
    ∃ summary', tally .release summary mapping = some summary' := by
  rw [tally]
  split
  next =>
    obtain ⟨logical, hlogical⟩ :=
      Build.exists_release_add summary.logicalFileBackedBytes mapping.size
    obtain ⟨length, hlength⟩ := Build.exists_release_sub mapping.last mapping.first
    obtain ⟨pages, hpages⟩ := Build.exists_release_add summary.pageBytes length
    rw [hlogical, Option.bind_some, hlength, Option.bind_some, hpages]
    exact ⟨_, rfl⟩
  next =>
    obtain ⟨logical, hlogical⟩ :=
      Build.exists_release_add summary.logicalAnonymousBytes mapping.size
    rw [hlogical]
    exact ⟨_, rfl⟩

theorem computes_release (generation : ModelGeneration) (mappings : List TensorMappingInfo) :
    Computes .release generation mappings where
  counters := by
    generalize Scan.start.summary = summary
    induction taken 0 mappings generalizing summary with
    | nil => exact ⟨summary, rfl⟩
    | cons mapping rest ih =>
      obtain ⟨next, hnext⟩ := exists_tally_release summary mapping
      rw [List.foldlM_cons, hnext]
      exact ih next
  shared _ := by
    rcases sharedEntries_cases .release (scannedFrom generation 0 mappings) 0
        (scannedFrom generation 0 mappings) () with ⟨entries, -, hall⟩ | ⟨-, e, -, hnone⟩
    · obtain ⟨total, htotal⟩ := Build.exists_foldlM_release_add (entries.filterMap id) 0
      exact ⟨entries, total, hall, htotal⟩
    · rw [sharedEntry] at hnone
      split at hnone
      next => cases hnone
      next =>
        obtain ⟨value, hvalue⟩ := exists_mergedIntervalBytes_release
          (overlaps (scannedFrom generation 0 mappings) e.2 e.1)
        rw [hvalue] at hnone
        cases hnone

/-- The shared bytes of every inventory are the exact unions, and a release build always
comes to an inventory or to an error. -/
theorem shared_pages_exact (modelId : ModelId) (generation : ModelGeneration)
    (mappings : List TensorMappingInfo)
    (hsize : ∀ mapping ∈ mappings, mapping.mappingSize < u64Bound) :
    ¬(fromTensorMappings .release modelId generation mappings ()).1.IsPanic ∧
      ∀ build inventory, (fromTensorMappings build modelId generation mappings ()).1 = .ok inventory →
        SharesExactly inventory :=
  ⟨not_isPanic_iff.mpr (computes_release generation mappings),
    fun _ _ h => sharesExactly_of_ok hsize h⟩

end inventory

/-! ## Nested and overlapping ranges -/

def rangeMapping (first last : Nat) : TensorMappingInfo where
  name := "blk.0.a"
  fileBacked := true
  mappingIndex := some 0
  mappingId := none
  mappingGeneration := none
  filePath := none
  fileSize := none
  mappingSize := 2 ^ 20
  offset := 4096 * first
  size := 4096
  pageSize := 4096
  pageStart := 4096 * first
  pageEnd := 4096 * last

/-- A range of four pages, two that overlap inside it, and one behind. -/
def overlappingMappings : List TensorMappingInfo :=
  [rangeMapping 0 4, rangeMapping 0 2, rangeMapping 1 3, rangeMapping 4 5]

theorem shared_pages_exact_overlapping : ∃ inventory,
    (fromTensorMappings .debug ⟨"m"⟩ ⟨1⟩ overlappingMappings ()).1 = .ok inventory ∧
      SharesExactly inventory ∧
      inventory.resources.map TensorResource.sharedPageBytes = [12288, 8192, 8192, 0] :=
  ⟨_, rfl, (shared_pages_exact ⟨"m"⟩ ⟨1⟩ overlappingMappings (by decide)).2 .debug _ rfl,
    by decide⟩

end ResourceInventory
end Ramforge
