/-
The pages that a plan asks for.

A plan names resources by their keys.  Its pages are the union of their page ranges, each
byte of a mapping once.
-/
import Ramforge.Runtime.ResidencyManager
import Ramforge.Runtime.SharedPages
import Ramforge.Rust.KeyMove

namespace Ramforge

open Std Rust Rust.Exec Rust.Interval

/-- An inventory of mappings whose sizes are machine integers. -/
def NativeInventory : Type :=
  { inventory : ResourceInventory // ∃ build modelId generation mappings,
    (∀ mapping ∈ mappings, mapping.mappingSize < u64Bound) ∧
      (ResourceInventory.fromTensorMappings build modelId generation mappings ()).1 = .ok inventory }

namespace NativeInventory

open ResourceInventory

variable {r : TensorResource}

theorem keyed (inventory : NativeInventory) : inventory.val.Keyed := by
  obtain ⟨build, modelId, generation, mappings, -, h⟩ := inventory.property
  exact fromTensorMappings_keyed (Prod.ext h rfl)

theorem key_inj (inventory : NativeInventory) : ∀ r ∈ inventory.val.resources,
    ∀ r' ∈ inventory.val.resources, r.key = r'.key → r = r' := fun _ hr _ hr' hkey =>
  inventory.keyed.key_inj hr hr' (congrArg ResourceKey.tensorIndex hkey)

/-- `get` gives the resource that has the key. -/
theorem of_get (inventory : NativeInventory) {key : ResourceKey}
    (h : inventory.val.get key = some r) : r ∈ inventory.val.resources ∧ r.key = key := by
  obtain ⟨build, modelId, generation, mappings, -, hbuilt⟩ := inventory.property
  exact inventory.keyed.of_get (fun _ _ => fromTensorMappings_byIndex (Prod.ext hbuilt rfl)) h

/-- Each resource is that of a mapping, but for the bytes that it shares. -/
theorem exists_scanned (inventory : NativeInventory) (hr : r ∈ inventory.val.resources) :
    ∃ generation position mapping entry, mapping.mappingSize < u64Bound ∧
      r = withShared (scanned generation position mapping) entry := by
  obtain ⟨build, modelId, generation, mappings, hsize, h⟩ := inventory.property
  obtain ⟨-, summary, entries, -, hentries, hresources, -⟩ := fromTensorMappings_ok (Prod.ext h rfl)
  rw [hresources] at hr
  obtain ⟨i, hi, rfl⟩ := List.getElem_of_mem hr
  rw [List.getElem_zipWith]
  obtain ⟨index, mapping, hmem, hscanned⟩ :=
    mem_scannedFrom (List.getElem_mem (l := scannedFrom generation 0 mappings) (n := i) (by
      rw [List.length_zipWith] at hi
      omega))
  exact ⟨generation, index, mapping, _, hsize mapping hmem, by rw [hscanned]⟩

theorem cut (inventory : NativeInventory) (hr : r ∈ inventory.val.resources) : Cut r := by
  obtain ⟨generation, position, mapping, entry, -, rfl⟩ := inventory.exists_scanned hr
  have h : Cut (scanned generation position mapping) := cut_scanned
  exact ⟨h.pageBytes, h.anonymous⟩

theorem pageEnd_lt (inventory : NativeInventory) (hr : r ∈ inventory.val.resources) :
    r.pageEnd < u64Bound := by
  obtain ⟨generation, position, mapping, entry, hsize, rfl⟩ := inventory.exists_scanned hr
  exact pageEnd_scanned_lt hsize

end NativeInventory

/-! ## The pages of a list of keys -/

/-- The bytes of the page ranges of the resources with the given keys. -/
def keyPages (resources : List TensorResource) (keys : List ResourceKey) :
    Finset (Option Nat × Nat) :=
  (resources.filter fun r => r.key ∈ keys).foldr (fun r pages => r.filePages ∪ pages) ∅

section keyPages

variable {resources : List TensorResource} {keys : List ResourceKey} {r : TensorResource}

theorem mem_keyPages {byte : Option Nat × Nat} :
    byte ∈ keyPages resources keys ↔ ∃ r ∈ resources, r.key ∈ keys ∧ byte ∈ r.filePages := by
  have hfold : ∀ l : List TensorResource,
      byte ∈ l.foldr (fun r pages => r.filePages ∪ pages) ∅ ↔ ∃ r ∈ l, byte ∈ r.filePages := by
    intro l
    induction l with
    | nil => simp
    | cons r rest ih => simp [ih]
  rw [keyPages, hfold]
  simp only [List.mem_filter, decide_eq_true_eq, and_assoc]

@[simp] theorem keyPages_nil : keyPages resources [] = ∅ := by
  refine Finset.eq_empty_of_forall_notMem fun byte h => ?_
  obtain ⟨r, -, hkey, -⟩ := mem_keyPages.mp h
  exact List.not_mem_nil hkey

theorem keyPages_append (keys keys' : List ResourceKey) :
    keyPages resources (keys ++ keys') = keyPages resources keys ∪ keyPages resources keys' := by
  ext byte
  simp only [mem_keyPages, Finset.mem_union, List.mem_append]
  constructor
  · rintro ⟨r, hr, hkey | hkey, hbyte⟩
    · exact .inl ⟨r, hr, hkey, hbyte⟩
    · exact .inr ⟨r, hr, hkey, hbyte⟩
  · rintro (⟨r, hr, hkey, hbyte⟩ | ⟨r, hr, hkey, hbyte⟩)
    · exact ⟨r, hr, .inl hkey, hbyte⟩
    · exact ⟨r, hr, .inr hkey, hbyte⟩

/-- One key names one resource. -/
theorem keyPages_singleton (hinj : ∀ r ∈ resources, ∀ r' ∈ resources, r.key = r'.key → r = r')
    (hr : r ∈ resources) : keyPages resources [r.key] = r.filePages := by
  ext byte
  rw [mem_keyPages]
  constructor
  · rintro ⟨r', hr', hkey, hbyte⟩
    rwa [hinj r' hr' r hr (List.mem_singleton.mp hkey)] at hbyte
  · exact fun hbyte => ⟨r, hr, List.mem_singleton.mpr rfl, hbyte⟩

end keyPages

/-! ## Taking a resource -/

/-- What a planner may take: a file-backed resource of an inventory with one key for each. -/
structure Stageable (resources : List TensorResource) (r : TensorResource) : Prop where
  mem : r ∈ resources
  fileBacked : r.fileBacked = true
  cut : ResourceInventory.Cut r
  pageEnd_lt : r.pageEnd < u64Bound
  key_inj : ∀ r ∈ resources, ∀ r' ∈ resources, r.key = r'.key → r = r'

theorem NativeInventory.stageable (inventory : NativeInventory) {r : TensorResource}
    (hr : r ∈ inventory.val.resources) (hfile : r.fileBacked = true) :
    Stageable inventory.val.resources r :=
  ⟨hr, hfile, inventory.cut hr, inventory.pageEnd_lt hr, inventory.key_inj⟩

namespace Stageable

variable {resources : List TensorResource} {keys : List ResourceKey} {r : TensorResource}
  {mapping : Nat} {ranges : ExtTreeMap Nat (List (Nat × Nat)) compare}
  {A : Finset (Option Nat × Nat)}

theorem filePages_eq (h : Stageable resources r) (hmapping : r.mappingIndex = some mapping) :
    r.filePages = cell (some mapping) r.pageStart r.pageEnd := by
  rw [TensorResource.filePages, if_pos h.fileBacked, hmapping]

/-- The new bytes of a resource are those that the ranges do not have. -/
theorem newBytes_eq (h : Stageable resources r) (hmapping : r.mappingIndex = some mapping)
    (hranges : Holds some ranges A) :
    saturatingSub r.pageBytes (covered (ranges[mapping]?.getD []) r.pageStart r.pageEnd) =
      (r.filePages \ A).card := by
  rw [h.filePages_eq hmapping, ← hranges.sub_covered mapping h.pageEnd_lt, h.cut.pageBytes]
  rfl

/-- Inserting its range takes its pages. -/
theorem insert (h : Stageable resources r) (hmapping : r.mappingIndex = some mapping)
    (hranges : Holds some ranges A) :
    Holds some (ranges.insert mapping
      (insertRange (ranges[mapping]?.getD []) r.pageStart r.pageEnd)) (A ∪ r.filePages) := by
  rw [h.filePages_eq hmapping]
  exact hranges.insert (Option.some_injective _) mapping _ _

theorem keyPages_concat (h : Stageable resources r) (keys : List ResourceKey) :
    keyPages resources (keys ++ [r.key]) = keyPages resources keys ∪ r.filePages := by
  rw [keyPages_append, keyPages_singleton h.key_inj h.mem]

theorem card_union : (A ∪ r.filePages).card = A.card + (r.filePages \ A).card := by
  rw [Finset.union_comm, ← Finset.card_sdiff_add_card, Nat.add_comm]

end Stageable

end Ramforge

/-!
The staging plan of the residency manager.

The candidates are taken while they fit the limit, and a page range that several of them
share is counted once.  The plan is a hint: it reserves nothing.
-/

namespace Ramforge

open Std Rust Rust.Interval

structure StagingPlan where
  selected : List ResourceKey
  /-- Union of selected page ranges, not the sum of tensor sizes. -/
  selectedBytes : Nat
  skippedBytes : Nat
  overlapBytesAvoided : Nat
  notes : List String
deriving DecidableEq, Repr

namespace ResidencyManager

def coveredBytes (ranges : List (Nat × Nat)) (start stop : Nat) : Nat := covered ranges start stop

def insertInterval (ranges : List (Nat × Nat)) (start stop : Nat) : List (Nat × Nat) :=
  insertRange ranges start stop

/-! ## The plan -/

/-- The comparison of `sort_by`: the most recently used first. -/
def stagingOrder (profile : Option ExecutionProfile) (a b : TensorResource) : Ordering :=
  let recent := fun r : TensorResource => (profile.bind fun profile => profile.lastOrder r.name).getD 0
  (compare (recent b) (recent a)).then <|
  (compare a.layer.sortKey.1 b.layer.sortKey.1).then <|
  (compare a.layer.sortKey.2 b.layer.sortKey.2).then <|
  compare a.key.tensorIndex b.key.tensorIndex

def stagingLe (profile : Option ExecutionProfile) (a b : TensorResource) : Prop :=
  (stagingOrder profile a b).isLE = true

instance (profile : Option ExecutionProfile) : DecidableRel (stagingLe profile) := fun a b =>
  inferInstanceAs (Decidable ((stagingOrder profile a b).isLE = true))

def stagingCandidates (manager : ResidencyManager) (profile : Option ExecutionProfile) :
    List TensorResource :=
  (manager.inventory.resources.filter fun resource =>
    resource.fileBacked ∧ 0 < resource.pageBytes).insertionSort (stagingLe profile)

/-- The locals of the loop. -/
structure Staging where
  selected : List ResourceKey
  selectedBytes : Nat
  skipped : Nat
  overlapAvoided : Nat
  requestedRanges : ExtTreeMap Nat (List (Nat × Nat)) compare
  budgetOverflow : Bool

def Staging.start : Staging where
  selected := []
  selectedBytes := 0
  skipped := 0
  overlapAvoided := 0
  requestedRanges := ∅
  budgetOverflow := false

def Staging.skip (st : Staging) (bytes : Nat) : Staging :=
  { st with skipped := saturatingAdd st.skipped bytes }

/-- What a candidate would add to the ranges. -/
def Staging.newBytes (st : Staging) (resource : TensorResource) (mapping : Nat) : Nat :=
  saturatingSub resource.pageBytes
    (coveredBytes (st.requestedRanges[mapping]?.getD []) resource.pageStart resource.pageEnd)

/-- The ranges of the mapping are looked up, which leaves an entry behind. -/
def Staging.look (st : Staging) (resource : TensorResource) (mapping : Nat) : Staging :=
  { st with
    requestedRanges :=
      st.requestedRanges.insert mapping (st.requestedRanges[mapping]?.getD [])
    overlapAvoided := saturatingAdd st.overlapAvoided
      (coveredBytes (st.requestedRanges[mapping]?.getD []) resource.pageStart resource.pageEnd) }

def Staging.select (st : Staging) (resource : TensorResource) (mapping nextTotal : Nat) : Staging :=
  { st with
    requestedRanges := st.requestedRanges.insert mapping
      (insertInterval (st.requestedRanges[mapping]?.getD []) resource.pageStart resource.pageEnd)
    selected := st.selected ++ [resource.key]
    selectedBytes := nextTotal }

def stagingRound (maxBytes : Nat) (st : Staging) (resource : TensorResource) : Staging :=
  match resource.mappingIndex with
  | none => st.skip resource.pageBytes
  | some mapping =>
    let newBytes := st.newBytes resource mapping
    let st := st.look resource mapping
    if maxBytes = 0 ∨ newBytes = 0 then st.skip newBytes
    else
      match checkedAdd st.selectedBytes newBytes with
      | none => { st.skip newBytes with budgetOverflow := true }
      | some nextTotal =>
        if maxBytes < nextTotal then st.skip newBytes else st.select resource mapping nextTotal

def stagingNotes (st : Staging) : List String :=
  ["prefetch is a MADV_WILLNEED hint, not a synchronous load or residency guarantee"] ++
  (if 0 < st.skipped then ["some eligible pages exceeded the staging limit"] else []) ++
  (if 0 < st.overlapAvoided then ["overlapping/shared page ranges were requested once"] else []) ++
  (if st.budgetOverflow then ["staging byte arithmetic overflowed"] else [])

def stagingPlanWithProfile (manager : ResidencyManager) (maxBytes : Nat)
    (profile : Option ExecutionProfile) : StagingPlan :=
  let st := (manager.stagingCandidates profile).foldl (stagingRound maxBytes) Staging.start
  { selected := st.selected
    selectedBytes := st.selectedBytes
    skippedBytes := st.skipped
    overlapBytesAvoided := st.overlapAvoided
    notes := stagingNotes st }

def stagingPlan (manager : ResidencyManager) (maxBytes : Nat) : StagingPlan :=
  manager.stagingPlanWithProfile maxBytes none

/-! ## A round -/

variable {resources : List TensorResource} {maxBytes mapping : Nat} {st : Staging}
  {resource : TensorResource}

/-- The ranges are those of the keys selected, and the bytes are their size. -/
structure Staged (resources : List TensorResource) (maxBytes : Nat) (st : Staging) : Prop where
  ranges : Holds some st.requestedRanges (keyPages resources st.selected)
  bytes : st.selectedBytes = (keyPages resources st.selected).card
  le_max : st.selectedBytes ≤ maxBytes

/-- The new bytes are the pages that the keys selected so far do not have. -/
theorem Staged.newBytes_eq (h : Staged resources maxBytes st) (hr : Stageable resources resource)
    (hmapping : resource.mappingIndex = some mapping) :
    st.newBytes resource mapping = (resource.filePages \ keyPages resources st.selected).card :=
  hr.newBytes_eq hmapping h.ranges

theorem Staged.look (h : Staged resources maxBytes st) :
    Staged resources maxBytes (st.look resource mapping) :=
  ⟨h.ranges.touch mapping, h.bytes, h.le_max⟩

theorem Staged.skip (h : Staged resources maxBytes st) (bytes : Nat) :
    Staged resources maxBytes (st.skip bytes) :=
  ⟨h.ranges, h.bytes, h.le_max⟩

/-- How a round ends: a candidate is left out for one of the reasons, or selected. -/
inductive Round (resources : List TensorResource) (maxBytes : Nat) (st : Staging)
    (resource : TensorResource) (st' : Staging) : Prop where
  | left (selected : st'.selected = st.selected)
      (reason : resource.mappingIndex = none ∨
        resource.filePages ⊆ keyPages resources st.selected ∨
        maxBytes < st.selectedBytes + (resource.filePages \ keyPages resources st.selected).card)
  | selected (selected : st'.selected = st.selected ++ [resource.key])

theorem Staged.select (h : Staged resources maxBytes st) (hr : Stageable resources resource)
    (hmapping : resource.mappingIndex = some mapping)
    (hle : st.selectedBytes + (resource.filePages \ keyPages resources st.selected).card ≤ maxBytes) :
    Staged resources maxBytes (st.select resource mapping
      (st.selectedBytes + (resource.filePages \ keyPages resources st.selected).card)) where
  ranges := by
    show Holds some _ (keyPages resources (st.selected ++ [resource.key]))
    rw [hr.keyPages_concat]
    exact hr.insert hmapping h.ranges
  bytes := by
    show _ = (keyPages resources (st.selected ++ [resource.key])).card
    rw [hr.keyPages_concat, Stageable.card_union, ← h.bytes]
    rfl
  le_max := hle

theorem stagingRound_staged (hmax : maxBytes < u64Bound) (h : Staged resources maxBytes st)
    (hr : Stageable resources resource) :
    Staged resources maxBytes (stagingRound maxBytes st resource) ∧
      Round resources maxBytes st resource (stagingRound maxBytes st resource) := by
  rw [stagingRound]
  cases hmapping : resource.mappingIndex with
  | none => exact ⟨h.skip _, .left rfl (.inl hmapping)⟩
  | some mapping =>
    have hnew := h.newBytes_eq hr hmapping
    simp only
    split
    next hzero =>
      refine ⟨h.look.skip _, .left rfl (.inr ?_)⟩
      rw [hnew] at hzero
      by_cases hempty : (resource.filePages \ keyPages resources st.selected).card = 0
      · exact .inl (Finset.sdiff_eq_empty_iff_subset.mp (Finset.card_eq_zero.mp hempty))
      · have hmax : maxBytes = 0 := hzero.resolve_right hempty
        exact .inr (by omega)
    next hpos =>
      split
      next hnone =>
        have hover := checkedAdd_eq_none.mp hnone
        rw [hnew] at hover
        have hlook : Staged resources maxBytes (st.look resource mapping) := h.look
        exact ⟨⟨hlook.ranges, hlook.bytes, hlook.le_max⟩,
          .left rfl (.inr (.inr (Nat.lt_of_lt_of_le hmax hover)))⟩
      next nextTotal htotal =>
        obtain ⟨-, rfl⟩ := checkedAdd_eq_some.mp htotal
        rw [hnew]
        split
        next hlt => exact ⟨h.look.skip _, .left rfl (.inr (.inr hlt))⟩
        next hle => exact ⟨h.look.select hr hmapping (Nat.not_lt.mp hle), .selected rfl⟩

/-! ## The whole plan -/

section plan

variable {candidates : List TensorResource} {manager : ResidencyManager}
  {profile : Option ExecutionProfile}

theorem staged_start (resources : List TensorResource) (maxBytes : Nat) :
    Staged resources maxBytes Staging.start where
  ranges := by
    show Holds some ∅ (keyPages resources [])
    rw [keyPages_nil]
    exact Holds.empty some
  bytes := by
    show 0 = (keyPages resources []).card
    rw [keyPages_nil, Finset.card_empty]
  le_max := Nat.zero_le _

theorem foldl_staged (hmax : maxBytes < u64Bound) (h : Staged resources maxBytes st)
    (hcandidates : ∀ r ∈ candidates, Stageable resources r) :
    Staged resources maxBytes (candidates.foldl (stagingRound maxBytes) st) := by
  induction candidates generalizing st with
  | nil => exact h
  | cons r rest ih =>
    have hround := stagingRound_staged hmax h (hcandidates r List.mem_cons_self)
    exact ih hround.1 fun r' hr' => hcandidates r' (List.mem_cons_of_mem _ hr')

/-- What is selected stays selected. -/
theorem mem_foldl_selected {key : ResourceKey} (hmax : maxBytes < u64Bound)
    (h : Staged resources maxBytes st) (hcandidates : ∀ r ∈ candidates, Stageable resources r)
    (hkey : key ∈ st.selected) :
    key ∈ (candidates.foldl (stagingRound maxBytes) st).selected := by
  induction candidates generalizing st with
  | nil => exact hkey
  | cons r rest ih =>
    obtain ⟨hstaged, hround⟩ := stagingRound_staged hmax h (hcandidates r List.mem_cons_self)
    refine ih hstaged (fun r' hr' => hcandidates r' (List.mem_cons_of_mem _ hr')) ?_
    cases hround with
    | left hselected _ => exact hselected ▸ hkey
    | selected hselected => exact hselected ▸ List.mem_append_left _ hkey

theorem mem_stagingCandidates {r : TensorResource} :
    r ∈ manager.stagingCandidates profile ↔
      r ∈ manager.inventory.resources ∧ r.fileBacked = true ∧ 0 < r.pageBytes := by
  rw [stagingCandidates, (List.perm_insertionSort _ _).mem_iff, List.mem_filter, decide_eq_true_eq]

/-- The loop when it comes to a candidate. -/
def stagingReached (maxBytes : Nat) (before : List TensorResource) : Staging :=
  before.foldl (stagingRound maxBytes) Staging.start

structure StagesExactly (manager : ResidencyManager) (maxBytes : Nat)
    (profile : Option ExecutionProfile) : Prop where
  bytes : (manager.stagingPlanWithProfile maxBytes profile).selectedBytes =
    (keyPages manager.inventory.resources
      (manager.stagingPlanWithProfile maxBytes profile).selected).card
  le_max : (manager.stagingPlanWithProfile maxBytes profile).selectedBytes ≤ maxBytes
  considered : ∀ r ∈ manager.inventory.resources, r.fileBacked = true → 0 < r.pageBytes →
    r ∈ manager.stagingCandidates profile
  separated : ∀ before after, manager.stagingCandidates profile = before ++ after →
    ∀ mapping : Nat, Separated ((stagingReached maxBytes before).requestedRanges[mapping]?.getD [])
  /-- A candidate left out has no mapping, or nothing to add, or too much. -/
  left_out : ∀ before r after, manager.stagingCandidates profile = before ++ r :: after →
    r.key ∉ (manager.stagingPlanWithProfile maxBytes profile).selected →
    r.mappingIndex = none ∨
      r.filePages ⊆ keyPages manager.inventory.resources (stagingReached maxBytes before).selected ∨
      maxBytes < (stagingReached maxBytes before).selectedBytes +
        (r.filePages \ keyPages manager.inventory.resources
          (stagingReached maxBytes before).selected).card

theorem staging_exact (inventory : NativeInventory) (manager : ResidencyManager) (maxBytes : Nat)
    (profile : Option ExecutionProfile)
    (hinventory : manager.inventory.resources = inventory.val.resources)
    (hmax : maxBytes < u64Bound) : StagesExactly manager maxBytes profile := by
  have hstageable : ∀ r ∈ manager.stagingCandidates profile,
      Stageable manager.inventory.resources r := by
    intro r hr
    obtain ⟨hmem, hfile, -⟩ := mem_stagingCandidates.mp hr
    have hmem' : r ∈ inventory.val.resources := hinventory ▸ hmem
    rw [hinventory]
    exact inventory.stageable hmem' hfile
  have hstart := staged_start manager.inventory.resources maxBytes
  have hreached : ∀ before after, manager.stagingCandidates profile = before ++ after →
      Staged manager.inventory.resources maxBytes (stagingReached maxBytes before) :=
    fun before after hsplit => foldl_staged hmax hstart fun r hr =>
      hstageable r (hsplit ▸ List.mem_append_left _ hr)
  have hwhole := hreached _ [] (List.append_nil _).symm
  refine ⟨hwhole.bytes, hwhole.le_max, fun r hr hfile hpages => ?_, fun before after hsplit mapping => ?_,
    fun before r after hsplit hout => ?_⟩
  · exact mem_stagingCandidates.mpr ⟨hr, hfile, hpages⟩
  · exact (hreached before after hsplit).ranges.separated mapping
  · have hr : r ∈ manager.stagingCandidates profile := by rw [hsplit]; simp
    have hafter : ∀ r' ∈ after, Stageable manager.inventory.resources r' := fun r' hr' =>
      hstageable r' (by rw [hsplit]; simp [hr'])
    obtain ⟨hstaged, hround⟩ :=
      stagingRound_staged hmax (hreached before (r :: after) hsplit) (hstageable r hr)
    cases hround with
    | left _ hreason => exact hreason
    | selected hselected =>
      refine absurd ?_ hout
      show r.key ∈ ((manager.stagingCandidates profile).foldl (stagingRound maxBytes)
        Staging.start).selected
      rw [hsplit, List.foldl_append, List.foldl_cons]
      exact mem_foldl_selected hmax hstaged hafter (hselected ▸ by simp)

end plan

/-! ## Two tensors on the same pages -/

def twinMapping (name : String) : TensorMappingInfo where
  name := name
  fileBacked := true
  mappingIndex := some 0
  mappingId := none
  mappingGeneration := none
  filePath := none
  fileSize := none
  mappingSize := 8
  offset := 0
  size := 2
  pageSize := 2
  pageStart := 0
  pageEnd := 2

def twinResource (index : Nat) (name : String) : TensorResource :=
  { ResourceInventory.resourceOf ⟨1, index⟩ (twinMapping name) 0 2 (.ok ()) .native with
    sharedPageBytes := 2 }

def twinInventory : ResourceInventory where
  modelId := ⟨"m"⟩
  generation := ⟨1⟩
  nativeModelInstance := none
  nativeContractVersion := none
  resources := [twinResource 0 "blk.0.a", twinResource 1 "blk.0.b"]
  byIndex := ((∅ : ExtTreeMap Int Nat compare).insert 0 0).insert 1 1
  summary :=
    { tensors := 2, fileBackedTensors := 2, anonymousTensors := 0, unknownTensors := 0, mappings := 1,
      logicalFileBackedBytes := 4, logicalAnonymousBytes := 0, pageBytes := 4, sharedPageBytes := 4 }

def twinNative : NativeInventory :=
  ⟨twinInventory, .debug, ⟨"m"⟩, ⟨1⟩, [twinMapping "blk.0.a", twinMapping "blk.0.b"], by decide, rfl⟩

def twinManager : ResidencyManager where
  modelId := ⟨"m"⟩
  inventory := twinInventory
  policy := { mode := .active, targetBytes := some 1, safetyReserveBytes := 0 }
  hardLimitBytes := none
  lifecycle := ResidencyLifecycle.default
  attempted := ∅
  lastPlan := none
  application := none
  nativeModelInstance := none
  nativeContractVersion := none
  nativeQuiescent := false
  lastNativeGeneration := none
  lifetimes := trackers twinInventory

theorem staging_exact_twin : StagesExactly twinManager 4 none ∧
    (twinManager.stagingPlan 4).selected = [⟨1, 0⟩] ∧
    (twinManager.stagingPlan 4).selectedBytes = 2 :=
  ⟨staging_exact twinNative twinManager 4 none rfl (by decide), by decide, by decide⟩

/-- The second tensor is left out, and it would have added nothing. -/
theorem twin_left_out : ¬∀ before r after,
    twinManager.stagingCandidates none = before ++ r :: after →
    r.key ∉ (twinManager.stagingPlan 4).selected →
    4 < (stagingReached 4 before).selectedBytes +
      (r.filePages \ keyPages twinManager.inventory.resources
        (stagingReached 4 before).selected).card := by
  intro h
  have hout := h [twinResource 0 "blk.0.a"] (twinResource 1 "blk.0.b") [] rfl (by decide)
  revert hout
  decide

end ResidencyManager
end Ramforge
