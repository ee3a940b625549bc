/-
The accounts of a page snapshot: what it counts as inspected, unknown and covered is what
the run has asked the kernel for, out of the pages that the ranges touch.
-/
import Ramforge.Runtime.PageObservation

namespace Ramforge
namespace PageResidency

open Std Rust Rust.Exec

/-- The account of one resource, over the pages inspected in the whole run. -/
structure ResourceAccount (selected : ExtTreeSet String) (inspected : List (Nat × Nat))
    (range : PageRange) (r : ResourcePageResidency) : Prop where
  describes : Describes selected range r
  split : r.residentPages + r.nonresidentPages = r.inspectedPages
  total : r.inspectedPages + r.unknownPages = r.totalPages
  complete : r.unknownPages = 0 → ∀ key, range.Touches key → key ∈ inspected

/-- The accounts of a snapshot, over the pages inspected in the run that took it. -/
structure Accounts (config : PageObservationConfig) (selected : ExtTreeSet String) (bases : Bases)
    (ranges : List PageRange) (inspected : List (Nat × Nat)) (snapshot : PageResidencySnapshot) :
    Prop where
  nodup : inspected.Nodup
  budget : inspected.length ≤ config.maxPages
  available : ∀ key ∈ inspected, key ∈ availablePages bases ranges
  inspectedPages : snapshot.inspectedPages = inspected.length
  split : snapshot.residentPages + snapshot.nonresidentPages = snapshot.inspectedPages
  union : ∃ unknown, snapshot.uniqueUnknownPages = some unknown ∧
    snapshot.inspectedPages + unknown = min (availablePages bases ranges).ncard (u64Bound - 1)
  resources : ∃ order, order.Perm ranges ∧
    List.Forall₂ (ResourceAccount selected inspected) order snapshot.resources
  targeted : ∀ c, snapshot.targeted = some c →
    Covered config.maxPages (availablePages bases ranges) (targetPages bases selected ranges) c
  selectedFirst : (∃ key ∈ inspected, key ∉ targetPages bases selected ranges) →
    ∀ r ∈ snapshot.resources, r.targeted = true → r.error = none → r.unknownPages = 0

section accounts

variable {build : Build} {config : PageObservationConfig} {selected : ExtTreeSet String}
  {bases : Bases} {ranges : List PageRange} {s : Sampling}

theorem Accounted.account {range : PageRange} {r : ResourcePageResidency} (hgood : s.Good config)
    (h : Accounted config selected range s r) : ResourceAccount selected s.inspected range r where
  describes := h.describes
  split := h.split
  total := h.total
  complete hzero key hkey := (hgood.mem key).mpr (h.complete hzero key hkey)

theorem availablePages_perm {ranges' : List PageRange} (h : ranges.Perm ranges') :
    availablePages bases ranges = availablePages bases ranges' :=
  (availablePages_subset fun _ hrange => h.mem_iff.mp hrange).antisymm
    (availablePages_subset fun _ hrange => h.mem_iff.mpr hrange)

theorem covers_order (bases : Bases) (selected : ExtTreeSet String) (ranges : List PageRange) :
    covers (populationOf bases selected (orderOf selected ranges)).all =
        availablePages bases ranges ∧
      covers (populationOf bases selected (orderOf selected ranges)).target =
        targetPages bases selected ranges := by
  obtain ⟨hall, htarget⟩ := covers_populationOf bases selected (orderOf selected ranges)
  rw [hall, htarget]
  exact ⟨availablePages_perm (orderOf_perm ranges),
    availablePages_perm ((orderOf_perm ranges).filter _)⟩

theorem targetPages_subset : targetPages bases selected ranges ⊆ availablePages bases ranges :=
  availablePages_subset fun _ h => (List.mem_filter.mp h).1

/-- The answers are resident or not. -/
theorem resident_add_nonresident (values : List Bool) :
    (values.filter id).length + (values.filter not).length = values.length :=
  (List.length_eq_length_filter_add id).symm

/-- The resources that are left out keep all their pages unknown. -/
theorem accounts_omitted (selected : ExtTreeSet String) (inspected : List (Nat × Nat)) {omitted : List PageRange}
    (haligned : ∀ range ∈ omitted, Aligned range) :
    List.Forall₂ (ResourceAccount selected inspected) omitted
      (omitted.map (omittedResource selected)) := by
  rw [List.forall₂_map_right_iff]
  refine List.forall₂_same.mpr fun range hrange => ?_
  refine ⟨⟨rfl, rfl, rfl, rfl, rfl, rfl⟩, rfl, Nat.zero_add _, fun hzero key hkey => ?_⟩
  obtain ⟨i, hi, -⟩ := exists_pageKey (haligned range hrange) hkey
  have hzero : pageCount range = 0 := hzero
  omega

theorem whenTargeted_ends {coverage : Exec Sampling Empty TargetedObservationCoverage}
    {p : TargetedObservationCoverage → Prop} {onErr : Empty → Sampling → Prop}
    {onPanic : String → Sampling → Prop} (targetedMode : Bool)
    (h : Ends coverage s (fun c t => t = s ∧ p c) onErr onPanic) :
    Ends (whenTargeted targetedMode coverage) s
      (fun targeted t => t = s ∧ ∀ c, targeted = some c → p c) onErr onPanic := by
  cases targetedMode with
  | false => exact ⟨rfl, fun _ hnone => by cases hnone⟩
  | true =>
    refine h.bind fun c t hc => ?_
    exact ⟨hc.1, fun _ heq => Option.some.inj heq ▸ hc.2⟩

theorem observeMappings_ends (build : Build) (kernel : Kernel) (bases : Bases)
    (selected : ExtTreeSet String) (config : PageObservationConfig) (targetedMode : Bool)
    (haligned : ∀ range ∈ ranges, Aligned range) :
    Ends (observeMappings build kernel bases ranges selected config targetedMode) Sampling.start
      (fun snapshot s => Accounts config selected bases ranges s.inspected snapshot)
      (fun e _ => e.elim) (fun _ _ => u64Bound ≤ config.maxPages * 10000) := by
  obtain ⟨hall, htarget⟩ := covers_order bases selected ranges
  have hmax := config.maxPages_lt
  unfold observeMappings
  refine ((processed_ends config selected bases kernel kernel.pageSize.toNat haligned).mono
    (fun _ _ h => h) (fun _ _ h => h) fun _ _ h => ?_).bind fun processed s hprocessed => ?_
  · have hbound : u64Bound ≤ isizeBound * 10000 := by decide
    exact hbound.trans (Nat.mul_le_mul_right _ h)
  obtain ⟨hextends, hresources, hfirst⟩ := hprocessed
  have hgood := hextends.good
  rw [ends_bind, ends_self]
  have hnew : ∀ key ∈ s.observed, key ∈ availablePages bases ranges := by
    intro key hkey
    rcases hextends.new key hkey with hstart | hpages
    · cases ExtTreeMap.not_mem_empty hstart
    · exact hpages
  have hinspected : ∀ key ∈ s.inspected, key ∈ availablePages bases ranges :=
    fun key hkey => hnew key ((hgood.mem key).mp hkey)
  have hcount : s.observed.size ≤ (availablePages bases ranges).ncard := by
    rw [hgood.size]
    exact ncard_le_of_keys hgood.nodup (hall ▸ finite_covers _) hinspected
  simp only
  have hcoverage := targetedCoverage_ends build selected
    (populationOf bases selected (orderOf selected ranges)).target
    (processed ++ ((orderOf selected ranges).drop config.maxResources).map
      (omittedResource selected)) hgood (hall ▸ hnew) (by rw [hall, htarget]; exact targetPages_subset)
  rw [hall, htarget] at hcoverage
  refine (whenTargeted_ends targetedMode hcoverage).bind fun targeted t htargeted => ?_
  obtain ⟨rfl, hcovered⟩ := htargeted
  refine
    { nodup := hgood.nodup
      budget := hgood.size ▸ hgood.le
      available := hinspected
      inspectedPages := hgood.size
      split := ?_
      union := ⟨_, rfl, ?_⟩
      resources := ⟨orderOf selected ranges, orderOf_perm ranges, ?_⟩
      targeted := hcovered
      selectedFirst := ?_ }
  · show _ + _ = t.observed.size
    rw [resident_add_nonresident, List.length_map, ExtTreeMap.length_toList]
  · show t.observed.size + saturatingSub (intervalUnionCount _) t.observed.size = _
    rw [intervalUnionCount_eq, hall]
    have hle := hgood.le
    unfold saturatingSub
    omega
  · have homitted := accounts_omitted selected t.inspected
      fun range (h : range ∈ (orderOf selected ranges).drop config.maxResources) =>
        haligned range ((orderOf_perm ranges).mem_iff.mp (List.mem_of_mem_drop h))
    have hboth := List.rel_append (hresources.imp fun _ _ h => h.account hgood) homitted
    rwa [show (fun x y : List PageRange => x ++ y) (List.take config.maxResources _) _ = _ from
      List.take_append_drop _ _] at hboth
  · rintro ⟨key, hkey, houtside⟩ r hr htargeted hnone
    rcases List.mem_append.mp hr with hr | hr
    · exact hfirst ⟨key, (hgood.mem key).mp hkey, houtside⟩ r hr htargeted hnone
    · obtain ⟨range, -, rfl⟩ := List.mem_map.mp hr
      cases hnone

theorem aligned_pageRanges (inventory : BuiltInventory) (shardPaths : List String) :
    ∀ range ∈ inventory.val.pageRanges shardPaths, Aligned range := by
  intro range hrange
  obtain ⟨resource, hresource, rfl⟩ := List.mem_map.mp hrange
  exact inventory.aligned resource hresource

end accounts

/-- Every observation either says that it is unsupported, and has asked for no page, or
accounts for the pages it has asked for. -/
theorem observePageResidencyInternal_accounts (inventory : BuiltInventory)
    (shardPaths : List String) (build : Build) (kernel : Kernel) (selected : ExtTreeSet String)
    (config : PageObservationConfig) (targetedMode : Bool) :
    (config.maxPages * 10000 < u64Bound → ∃ snapshot s,
      observePageResidencyInternal build kernel (inventory.val.pageRanges shardPaths) selected config
        targetedMode Sampling.start = (.ok snapshot, s)) ∧
    ∀ snapshot s,
      observePageResidencyInternal build kernel (inventory.val.pageRanges shardPaths) selected config
        targetedMode Sampling.start = (.ok snapshot, s) →
      (∃ reason, snapshot = .unsupported reason ∧ s.inspected = []) ∨
        ∃ maps, kernel.maps = .ok maps ∧ Accounts config selected (basesOf maps)
          (inventory.val.pageRanges shardPaths) s.inspected snapshot := by
  have hends : Ends (observePageResidencyInternal build kernel
      (inventory.val.pageRanges shardPaths) selected config targetedMode) Sampling.start
      (fun snapshot s => (∃ reason, snapshot = .unsupported reason ∧ s.inspected = []) ∨
        ∃ maps, kernel.maps = .ok maps ∧ Accounts config selected (basesOf maps)
          (inventory.val.pageRanges shardPaths) s.inspected snapshot)
      (fun e _ => e.elim) (fun _ _ => u64Bound ≤ config.maxPages * 10000) := by
    unfold observePageResidencyInternal
    cases hmaps : kernel.maps with
    | error text => exact .inl ⟨_, rfl, rfl⟩
    | ok maps =>
      simp only
      split
      next => exact .inl ⟨_, rfl, rfl⟩
      next =>
        exact (observeMappings_ends build kernel (basesOf maps) selected config targetedMode
          (aligned_pageRanges inventory shardPaths)).mono
            (fun _ _ haccounts => .inr ⟨maps, rfl, haccounts⟩) (fun e _ _ => e.elim) fun _ _ h => h
  refine ⟨fun hsmall => ?_, fun snapshot s hrun => hends.of_ok hrun⟩
  rcases hrun : observePageResidencyInternal build kernel (inventory.val.pageRanges shardPaths)
    selected config targetedMode Sampling.start with ⟨snapshot | e | message, s⟩
  · exact ⟨snapshot, s, rfl⟩
  · exact e.elim
  · exact absurd (hends.of_panic hrun) (Nat.not_le.mpr hsmall)

/-! ## More pages than a count holds -/

def wideMapping (name : String) (index : Nat) : TensorMappingInfo where
  name := name
  fileBacked := true
  mappingIndex := some index
  mappingId := none
  mappingGeneration := none
  filePath := none
  fileSize := none
  mappingSize := u64Bound - 1
  offset := 0
  size := 0
  pageSize := 1
  pageStart := 0
  pageEnd := u64Bound - 1

def wideInventory : ResourceInventory where
  modelId := ⟨"model"⟩
  generation := ⟨1⟩
  nativeModelInstance := none
  nativeContractVersion := none
  resources :=
    [ResourceInventory.resourceOf ⟨1, 0⟩ (wideMapping "a" 0) 0 (u64Bound - 1) (.ok ()) .native,
      ResourceInventory.resourceOf ⟨1, 1⟩ (wideMapping "b" 1) 0 (u64Bound - 1) (.ok ()) .native]
  byIndex := ((∅ : ExtTreeMap Int Nat compare).insert 0 0).insert 1 1
  summary :=
    { tensors := 2, fileBackedTensors := 2, anonymousTensors := 0, unknownTensors := 0, mappings := 2,
      logicalFileBackedBytes := 0, logicalAnonymousBytes := 0, pageBytes := u64Bound - 2,
      sharedPageBytes := 0 }

def wideBuilt : BuiltInventory :=
  ⟨wideInventory, .release, ⟨"model"⟩, ⟨1⟩, [wideMapping "a" 0, wideMapping "b" 1], rfl⟩

def widePaths : List String := ["/a", "/b"]

def wideMaps : String := "10-20 r 0 0 0 /a\n30-40 r 0 0 0 /b\n"

def noPages : PageObservationConfig where
  maxPages := 0
  maxResources := 2
  maxPages_lt := by decide

def wideKernel : Kernel where
  maps := .ok wideMaps
  pageSize := 1
  mincore _ _ _ := .error "not asked"
  elapsedNs := 0

/-- The pages of one of the two mappings. -/
theorem wide_touched {range : PageRange} {page : Nat} (index : Nat)
    (hrange : range ∈ wideBuilt.val.pageRanges widePaths)
    (havailable : availableFor (basesOf wideMaps) range = true)
    (hfields : range.mappingIndex = some index ∧ range.pageStart = 0 ∧
      range.pageEnd = u64Bound - 1 ∧ range.pageSize = 1) (hpage : page < u64Bound - 1) :
    (index, page) ∈ availablePages (basesOf wideMaps) (wideBuilt.val.pageRanges widePaths) := by
  obtain ⟨hmapping, hstart, hend, hsize⟩ := hfields
  refine ⟨range, hrange, havailable, ?_⟩
  exact
    { mapping := hmapping
      nonempty := by rw [hstart, hend]; decide
      pageSize := by rw [hsize]; decide
      before_end := by rw [hsize, hend, Nat.mul_one]; exact hpage
      behind_start := by rw [hstart, hsize, Nat.mul_one]; exact Nat.succ_pos _ }

theorem wide_ncard :
    u64Bound ≤ (availablePages (basesOf wideMaps) (wideBuilt.val.pageRanges widePaths)).ncard := by
  have hfinite : (availablePages (basesOf wideMaps) (wideBuilt.val.pageRanges widePaths)).Finite := by
    rw [← (covers_populationOf _ ∅ _).1]
    exact finite_covers _
  have hsubset : (↑(Finset.range 2 ×ˢ Finset.range (u64Bound - 1)) : Set (Nat × Nat)) ⊆
      availablePages (basesOf wideMaps) (wideBuilt.val.pageRanges widePaths) := by
    rintro ⟨index, page⟩ hkey
    obtain ⟨hindex, hpage⟩ := Finset.mem_product.mp hkey
    have hpage := Finset.mem_range.mp hpage
    have hindex := Finset.mem_range.mp hindex
    obtain rfl | rfl : index = 0 ∨ index = 1 := by
      have hindex : index < 2 := hindex
      omega
    · exact wide_touched 0 List.mem_cons_self (by decide +kernel) ⟨rfl, rfl, rfl, rfl⟩ hpage
    · exact wide_touched 1 (List.mem_cons_of_mem _ List.mem_cons_self) (by decide +kernel)
        ⟨rfl, rfl, rfl, rfl⟩ hpage
  have hcard := Set.ncard_le_ncard hsubset hfinite
  rw [Set.ncard_coe_finset, Finset.card_product, Finset.card_range, Finset.card_range] at hcard
  exact Nat.le_trans (by decide) hcard

/-- Two mappings can have more pages than the count of their union can say. -/
theorem union_count_saturates :
    ¬∀ (inventory : BuiltInventory) (shardPaths : List String) (build : Build) (kernel : Kernel)
      (selected : ExtTreeSet String) (config : PageObservationConfig) (targetedMode : Bool)
      (maps : String) (snapshot : PageResidencySnapshot) (s : Sampling) (unknown : Nat),
      kernel.maps = .ok maps →
      observePageResidencyInternal build kernel (inventory.val.pageRanges shardPaths) selected config
        targetedMode Sampling.start = (.ok snapshot, s) →
      snapshot.uniqueUnknownPages = some unknown →
        snapshot.inspectedPages + unknown =
          (availablePages (basesOf maps) (inventory.val.pageRanges shardPaths)).ncard := by
  intro hall
  have hends := observeMappings_ends .release wideKernel (basesOf wideMaps) ∅ noPages false
    (aligned_pageRanges wideBuilt widePaths)
  rcases hrun : observeMappings .release wideKernel (basesOf wideMaps)
    (wideBuilt.val.pageRanges widePaths) ∅ noPages false Sampling.start with ⟨snapshot | e | p, s⟩
  · have haccounts := hends.of_ok hrun
    obtain ⟨unknown, hunknown, hsum⟩ := haccounts.union
    have hclaimed := hall wideBuilt widePaths .release wideKernel ∅ noPages false wideMaps snapshot s
      unknown rfl hrun hunknown
    have hcount := wide_ncard
    rw [← hclaimed, hsum] at hcount
    exact absurd (hcount.trans (Nat.min_le_right _ _)) (by decide)
  · exact e.elim
  · exact absurd (hends.of_panic hrun) (by decide)

end PageResidency
end Ramforge
