/-
When the inventory of a model can be built.

The constructor adds up bytes that the native side reports, and it subtracts the ends of a
page range before anything has made sure of their order.
-/
import Ramforge.Runtime.SharedPages

namespace Ramforge

open Std Rust Rust.Exec Rust.Interval

namespace TensorMappingInfo

/-- The bytes of the page range of a file-backed mapping. -/
def filePages (mapping : TensorMappingInfo) : Finset (Option Nat × Nat) :=
  if mapping.fileBacked then cell mapping.mappingIndex mapping.first mapping.last else ∅

def fileBytes (mapping : TensorMappingInfo) : Nat := if mapping.fileBacked then mapping.size else 0

def anonymousBytes (mapping : TensorMappingInfo) : Nat :=
  if mapping.fileBacked then 0 else mapping.size

def pageBytes (mapping : TensorMappingInfo) : Nat :=
  if mapping.fileBacked then mapping.last - mapping.first else 0

def classify (mapping : TensorMappingInfo) : Except IneligibilityReason Unit :=
  if mapping.fileBacked then
    if mapping.last ≤ mapping.first then .error .emptyPageRange else .ok ()
  else .error .anonymousOrRepacked

/-- A page range that does not end before it begins. -/
def Ordered (mapping : TensorMappingInfo) : Prop :=
  mapping.fileBacked = true → mapping.first ≤ mapping.last

end TensorMappingInfo

open TensorMappingInfo

namespace ResourceInventory

/-! ## The counters -/

section counters

variable {build : Build} {before middle after : InventorySummary} {mapping : TensorMappingInfo}
  {mappings rest : List TensorMappingInfo}

/-- The counters have moved by the bytes of the mappings. -/
structure Counted (before after : InventorySummary) (mappings : List TensorMappingInfo) : Prop where
  file : after.logicalFileBackedBytes =
    before.logicalFileBackedBytes + (mappings.map fileBytes).sum
  anonymous : after.logicalAnonymousBytes =
    before.logicalAnonymousBytes + (mappings.map anonymousBytes).sum
  pages : after.pageBytes = before.pageBytes + (mappings.map TensorMappingInfo.pageBytes).sum

theorem Counted.nil : Counted before before [] := ⟨rfl, rfl, rfl⟩

theorem Counted.cons (h : Counted before middle [mapping]) (h' : Counted middle after rest) :
    Counted before after (mapping :: rest) where
  file := by rw [h'.file, h.file, List.map_singleton, List.sum_singleton, Nat.add_assoc]; rfl
  anonymous := by
    rw [h'.anonymous, h.anonymous, List.map_singleton, List.sum_singleton, Nat.add_assoc]
    rfl
  pages := by rw [h'.pages, h.pages, List.map_singleton, List.sum_singleton, Nat.add_assoc]; rfl

/-- The counters are machine integers. -/
structure Bounded (summary : InventorySummary) : Prop where
  file : summary.logicalFileBackedBytes < u64Bound
  anonymous : summary.logicalAnonymousBytes < u64Bound
  pages : summary.pageBytes < u64Bound

theorem tally_of_fits (hordered : mapping.Ordered)
    (hfile : before.logicalFileBackedBytes + mapping.fileBytes < u64Bound)
    (hanonymous : before.logicalAnonymousBytes + mapping.anonymousBytes < u64Bound)
    (hpages : before.pageBytes + mapping.pageBytes < u64Bound) :
    ∃ after, tally build before mapping = some after ∧ Counted before after [mapping] := by
  unfold fileBytes at hfile
  unfold anonymousBytes at hanonymous
  unfold TensorMappingInfo.pageBytes at hpages
  unfold tally
  by_cases hbacked : mapping.fileBacked = true
  · rw [if_pos hbacked] at hfile hpages ⊢
    rw [Build.add_of_lt hfile, Option.bind_some, Build.sub_of_le (hordered hbacked),
      Option.bind_some, Build.add_of_lt hpages]
    refine ⟨_, rfl, ?_, ?_, ?_⟩
    · simp [fileBytes, hbacked]
    · simp [anonymousBytes, hbacked]
    · simp [TensorMappingInfo.pageBytes, hbacked]
  · rw [if_neg hbacked] at hanonymous ⊢
    rw [Build.add_of_lt hanonymous]
    refine ⟨_, rfl, ?_, ?_, ?_⟩
    · simp [fileBytes, hbacked]
    · simp [anonymousBytes, hbacked]
    · simp [TensorMappingInfo.pageBytes, hbacked]

theorem tallies_of_fits (hordered : ∀ mapping ∈ mappings, mapping.Ordered)
    (hfile : before.logicalFileBackedBytes + (mappings.map fileBytes).sum < u64Bound)
    (hanonymous : before.logicalAnonymousBytes + (mappings.map anonymousBytes).sum < u64Bound)
    (hpages : before.pageBytes + (mappings.map TensorMappingInfo.pageBytes).sum < u64Bound) :
    ∃ after, mappings.foldlM (tally build) before = some after ∧ Counted before after mappings := by
  induction mappings generalizing before with
  | nil => exact ⟨before, rfl, Counted.nil⟩
  | cons mapping rest ih =>
    rw [List.map_cons, List.sum_cons, ← Nat.add_assoc] at hfile hanonymous hpages
    have hstep : ∃ middle, tally build before mapping = some middle ∧
        Counted before middle [mapping] :=
      tally_of_fits (hordered mapping List.mem_cons_self) (by omega) (by omega) (by omega)
    obtain ⟨middle, htally, hcounted⟩ := hstep
    have hmfile : middle.logicalFileBackedBytes =
        before.logicalFileBackedBytes + mapping.fileBytes := by simpa using hcounted.file
    have hmanonymous : middle.logicalAnonymousBytes =
        before.logicalAnonymousBytes + mapping.anonymousBytes := by simpa using hcounted.anonymous
    have hmpages : middle.pageBytes = before.pageBytes + mapping.pageBytes := by
      simpa using hcounted.pages
    obtain ⟨after, hrest, hcountedRest⟩ := ih
      (fun m hm => hordered m (List.mem_cons_of_mem _ hm)) (hmfile ▸ hfile)
      (hmanonymous ▸ hanonymous) (hmpages ▸ hpages)
    refine ⟨after, ?_, hcounted.cons hcountedRest⟩
    rw [List.foldlM_cons, htally]
    exact hrest

/-- A debug build has checked what it has counted. -/
theorem tally_debug (hbefore : Bounded before) (h : tally .debug before mapping = some after) :
    mapping.Ordered ∧ Bounded after ∧ Counted before after [mapping] := by
  rw [tally] at h
  by_cases hbacked : mapping.fileBacked = true
  · rw [if_pos hbacked] at h
    obtain ⟨logical, hlogical, h⟩ := Option.bind_eq_some_iff.mp h
    obtain ⟨length, hlength, h⟩ := Option.bind_eq_some_iff.mp h
    obtain ⟨pages, hpages, rfl⟩ := Option.map_eq_some_iff.mp h
    obtain ⟨hlt, rfl⟩ := checkedAdd_eq_some.mp hlogical
    obtain ⟨hle, rfl⟩ := checkedSub_eq_some.mp hlength
    obtain ⟨hplt, rfl⟩ := checkedAdd_eq_some.mp hpages
    refine ⟨fun _ => hle, ⟨hlt, hbefore.anonymous, hplt⟩, ?_, ?_, ?_⟩
    · simp [fileBytes, hbacked]
    · simp [anonymousBytes, hbacked]
    · simp [TensorMappingInfo.pageBytes, hbacked]
  · rw [if_neg hbacked] at h
    obtain ⟨logical, hlogical, rfl⟩ := Option.map_eq_some_iff.mp h
    obtain ⟨hlt, rfl⟩ := checkedAdd_eq_some.mp hlogical
    refine ⟨fun hfile => absurd hfile hbacked, ⟨hbefore.file, hlt, hbefore.pages⟩, ?_, ?_, ?_⟩
    · simp [fileBytes, hbacked]
    · simp [anonymousBytes, hbacked]
    · simp [TensorMappingInfo.pageBytes, hbacked]

theorem tallies_debug (hbefore : Bounded before)
    (h : mappings.foldlM (tally .debug) before = some after) :
    (∀ mapping ∈ mappings, mapping.Ordered) ∧ Bounded after ∧ Counted before after mappings := by
  induction mappings generalizing before with
  | nil =>
    cases h
    exact ⟨fun _ hm => absurd hm List.not_mem_nil, hbefore, Counted.nil⟩
  | cons mapping rest ih =>
    obtain ⟨middle, htally, h⟩ := Option.bind_eq_some_iff.mp h
    obtain ⟨hordered, hmiddle, hcounted⟩ := tally_debug hbefore htally
    obtain ⟨hrest, hafter, hcountedRest⟩ := ih hmiddle h
    refine ⟨fun m hm => ?_, hafter, hcounted.cons hcountedRest⟩
    rcases List.mem_cons.mp hm with rfl | hm
    · exact hordered
    · exact hrest m hm

end counters

/-! ## The shared bytes -/

section shared

variable {build : Build} {all : List TensorResource} {mappings : List TensorMappingInfo}
  {r : TensorResource}

/-- Where a run of bytes begins, the bytes of the set and the ones in front of the run fit a
`u64` together. -/
def RunsFit (A : Finset (Option Nat × Nat)) : Prop :=
  ∀ key ∈ A, (∀ b, b + 1 = key.2 → (key.1, b) ∉ A) → A.card + key.2 < u64Bound

theorem runsFit_image {mapping : Option Nat} {xs : List (Nat × Nat)} :
    RunsFit ((points xs).image (Prod.mk mapping)) ↔ MergeFits xs := by
  have hmem : ∀ b, (mapping, b) ∈ (points xs).image (Prod.mk mapping) ↔ b ∈ points xs := fun b => by
    rw [Finset.mem_image]
    exact ⟨fun ⟨n, hn, h⟩ => (by cases h; exact hn), fun h => ⟨b, h, rfl⟩⟩
  have hcard : ((points xs).image (Prod.mk mapping)).card = (points xs).card :=
    Finset.card_image_of_injective _ (Prod.mk_right_injective mapping)
  rw [RunsFit, MergeFits, hcard]
  constructor
  · intro h b hb
    refine h (mapping, b) ((hmem b).mpr hb.1) fun c hc hin => ?_
    exact hb.2 c hc ((hmem c).mp hin)
  · rintro h ⟨mapping', b⟩ hkey hbegin
    obtain ⟨n, hn, hpair⟩ := Finset.mem_image.mp hkey
    cases hpair
    exact h b ⟨hn, fun c hc hin => hbegin c hc ((hmem c).mpr hin)⟩

def mappingPages (mappings : List TensorMappingInfo) (i : Fin mappings.length) :
    Finset (Option Nat × Nat) :=
  (mappings.get i).filePages

/-- A resource whose runs fit has an entry in both kinds of build. -/
theorem sharedEntry_of_runsFit (hcut : ∀ other ∈ all, Cut other)
    (hsame : mappings.map filePages = all.map TensorResource.filePages)
    {i : Fin mappings.length} (hr : all[i.val]? = some r)
    (hfits : RunsFit (SetFamily.shared (mappingPages mappings) i)) :
    ∃ entry, sharedEntry build all i r = some entry ∧
      entry.getD 0 = (SetFamily.shared (mappingPages mappings) i).card := by
  unfold mappingPages at hfits ⊢
  rw [sharedEntry]
  split
  next hnone =>
    refine ⟨none, rfl, ?_⟩
    rw [shared_eq_empty hcut hsame hr hnone]
    rfl
  next hsome =>
    obtain ⟨hfile, -⟩ := not_or.mp hsome
    rw [shared_eq_image hcut hsame hr (not_not.mp hfile)] at hfits ⊢
    refine ⟨some (points (overlaps all i r)).card, ?_, ?_⟩
    · rw [mergedIntervalBytes_of_fits overlaps_nonempty (runsFit_image.mp hfits)]
      rfl
    · exact (Finset.card_image_of_injective _ (Prod.mk_right_injective _)).symm

theorem runsFit_of_sharedEntry {entry : Option Nat} (hcut : ∀ other ∈ all, Cut other)
    (hsame : mappings.map filePages = all.map TensorResource.filePages)
    {i : Fin mappings.length} (hr : all[i.val]? = some r)
    (h : sharedEntry .debug all i r = some entry) :
    RunsFit (SetFamily.shared (mappingPages mappings) i) := by
  unfold mappingPages
  rw [sharedEntry] at h
  split at h
  next hnone =>
    rw [shared_eq_empty hcut hsame hr hnone]
    exact fun _ hkey => absurd hkey (Finset.notMem_empty _)
  next hsome =>
    obtain ⟨hfile, -⟩ := not_or.mp hsome
    obtain ⟨bytes, hmerged, -⟩ := Option.map_eq_some_iff.mp h
    rw [shared_eq_image hcut hsame hr (not_not.mp hfile), runsFit_image]
    exact mergeFits_of_debug overlaps_nonempty hmerged

theorem sum_filterMap_id (entries : List (Option Nat)) :
    (entries.filterMap id).sum = (entries.map fun entry => entry.getD 0).sum := by
  induction entries with
  | nil => rfl
  | cons entry rest ih =>
    cases entry with
    | none => simpa using ih
    | some bytes => simpa using ih

/-- Where all runs fit, the entries are the shared bytes of the mappings. -/
theorem exists_entries (build : Build) (hcut : ∀ other ∈ all, Cut other)
    (hsame : mappings.map filePages = all.map TensorResource.filePages)
    (hfits : ∀ i, RunsFit (SetFamily.shared (mappingPages mappings) i)) :
    ∃ entries, Entries build all entries ∧
      (entries.filterMap id).sum = ∑ i, (SetFamily.shared (mappingPages mappings) i).card := by
  have hlength : all.length = mappings.length := by
    simpa using (congrArg List.length hsame).symm
  have hentry : ∀ i r, all[i]? = some r → ∃ hi : i < mappings.length, ∃ entry,
      sharedEntry build all i r = some entry ∧
        entry.getD 0 = (SetFamily.shared (mappingPages mappings) ⟨i, hi⟩).card := by
    intro i r hr
    have hi : i < mappings.length := hlength ▸ (List.getElem?_eq_some_iff.mp hr).1
    exact ⟨hi, sharedEntry_of_runsFit (i := ⟨i, hi⟩) hcut hsame hr (hfits _)⟩
  rcases sharedEntries_cases build all 0 all () with ⟨entries, -, hall⟩ | ⟨-, e, he, hnone⟩
  · have hall : Entries build all entries := hall
    refine ⟨entries, hall, ?_⟩
    rw [sum_filterMap_id, ← List.sum_ofFn]
    congr 1
    refine List.ext_getElem (by rw [List.length_map, List.length_ofFn, hall.length_eq, hlength])
      fun i hi _ => ?_
    have hi₀ : i < all.length := by rwa [List.length_map, hall.length_eq] at hi
    have hr := List.getElem?_eq_getElem hi₀
    obtain ⟨entry, hget, hentry'⟩ := hall.exists_of_getElem? hr
    obtain ⟨hi', entry', hsome, hcard⟩ := hentry i _ hr
    obtain rfl : entry' = entry := Option.some.inj (hsome.symm.trans hentry')
    rw [List.getElem_map, List.getElem_ofFn, ← hcard]
    congr 1
    exact Option.some.inj ((List.getElem?_eq_getElem _).symm.trans hget)
  · obtain ⟨-, entry, hsome, -⟩ := hentry e.2 e.1 (List.mem_zipIdx_iff_getElem?.mp he)
    rw [hnone] at hsome
    cases hsome

end shared

/-! ## The constructor -/

/-- What the constructor does with a list of mappings.  A debug build panics where an
addition or a subtraction leaves the range of a `u64`. -/
structure Constructs (modelId : ModelId) (generation : ModelGeneration)
    (mappings : List TensorMappingInfo) : Prop where
  returns : ∀ build, ¬(fromTensorMappings build modelId generation mappings ()).1.IsPanic
  classified : ∀ build inventory,
    (fromTensorMappings build modelId generation mappings ()).1 = .ok inventory →
      inventory.resources.map TensorResource.eligibility = mappings.map classify
  pageBytes : ∀ build inventory,
    (fromTensorMappings build modelId generation mappings ()).1 = .ok inventory →
      inventory.summary.pageBytes = (inventory.resources.map TensorResource.pageBytes).sum

/-- The mappings in front of the first refused one have page ranges in order, and what the
constructor adds up of them fits a `u64`.  Bytes are shared only where none is refused. -/
structure Adds (mappings : List TensorMappingInfo) : Prop where
  ordered : ∀ mapping ∈ taken 0 mappings, mapping.Ordered
  fileBytes : ((taken 0 mappings).map fileBytes).sum < u64Bound
  anonymousBytes : ((taken 0 mappings).map anonymousBytes).sum < u64Bound
  pageBytes : ((taken 0 mappings).map TensorMappingInfo.pageBytes).sum < u64Bound
  runs : taken 0 mappings = mappings →
    ∀ i, RunsFit (SetFamily.shared (mappingPages mappings) i)
  sharedBytes : taken 0 mappings = mappings →
    ∑ i, (SetFamily.shared (mappingPages mappings) i).card < u64Bound

section construction

variable {build : Build} {modelId : ModelId} {generation : ModelGeneration}
  {mappings : List TensorMappingInfo} {inventory : ResourceInventory}

theorem map_scannedFrom {β : Type} {part : TensorResource → β} {part' : TensorMappingInfo → β}
    (hpart : ∀ position mapping, part (scanned generation position mapping) = part' mapping)
    (position : Nat) :
    (scannedFrom generation position mappings).map part = mappings.map part' := by
  induction mappings generalizing position with
  | nil => rfl
  | cons mapping rest ih =>
    show part (scanned generation position mapping) ::
      (scannedFrom generation (position + 1) rest).map part = _
    rw [hpart, ih, List.map_cons]

theorem filePages_scannedFrom (generation : ModelGeneration) (mappings : List TensorMappingInfo) :
    mappings.map filePages =
      (scannedFrom generation 0 mappings).map TensorResource.filePages := by
  refine (map_scannedFrom (fun position mapping => ?_) 0).symm
  rw [scanned, TensorResource.filePages, filePages]
  cases hfile : mapping.fileBacked with
  | false => simp [resourceOf, hfile]
  | true => simp [resourceOf, hfile]

theorem cut_scannedFrom : ∀ r ∈ scannedFrom generation 0 mappings, Cut r := by
  intro r hr
  obtain ⟨index, mapping, -, rfl⟩ := mem_scannedFrom hr
  exact cut_scanned

/-- The resources of an inventory have what the mappings say, whatever the build. -/
theorem map_resources {β : Type} {part : TensorResource → β} {part' : TensorMappingInfo → β}
    (hpart : ∀ position mapping, part (scanned generation position mapping) = part' mapping)
    (hshared : ∀ r entry, part (withShared r entry) = part r)
    (h : (fromTensorMappings build modelId generation mappings ()).1 = .ok inventory) :
    inventory.resources.map part = mappings.map part' := by
  obtain ⟨-, summary, entries, -, hentries, hresources, -⟩ := fromTensorMappings_ok (Prod.ext h rfl)
  rw [hresources, map_withShared hshared hentries.length_eq, map_scannedFrom hpart]

theorem bounded_start : Bounded Scan.start.summary := ⟨by decide, by decide, by decide⟩

theorem Adds.tallies (h : Adds mappings) (build : Build) : ∃ summary,
    (taken 0 mappings).foldlM (tally build) Scan.start.summary = some summary ∧
      Counted Scan.start.summary summary (taken 0 mappings) :=
  tallies_of_fits h.ordered (by simpa [Scan.start] using h.fileBytes)
    (by simpa [Scan.start] using h.anonymousBytes) (by simpa [Scan.start] using h.pageBytes)

theorem Adds.computes (h : Adds mappings) (build : Build) (generation : ModelGeneration) :
    Computes build generation mappings where
  counters := by
    obtain ⟨summary, hsummary, -⟩ := h.tallies build
    exact ⟨summary, hsummary⟩
  shared htaken := by
    obtain ⟨entries, hentries, hsum⟩ := exists_entries build cut_scannedFrom
      (filePages_scannedFrom generation mappings) (h.runs htaken)
    refine ⟨entries, 0 + (entries.filterMap id).sum, hentries, Build.foldlM_add_of_lt ?_⟩
    rw [Nat.zero_add, hsum]
    exact h.sharedBytes htaken

theorem Adds.of_computes (h : Computes .debug generation mappings) : Adds mappings := by
  obtain ⟨summary, hsummary⟩ := h.counters
  obtain ⟨hordered, hbounded, hcounted⟩ := tallies_debug bounded_start hsummary
  have hfile := hcounted.file
  have hanonymous := hcounted.anonymous
  have hpages := hcounted.pages
  simp only [Scan.start, Nat.zero_add] at hfile hanonymous hpages
  have hruns : taken 0 mappings = mappings →
      ∀ i, RunsFit (SetFamily.shared (mappingPages mappings) i) := by
    intro htaken i
    obtain ⟨entries, total, hentries, -⟩ := h.shared htaken
    have hsame := filePages_scannedFrom generation mappings
    have hi : i.val < (scannedFrom generation 0 mappings).length := by
      rw [← List.length_map TensorResource.filePages, ← hsame, List.length_map]
      exact i.isLt
    have hr := List.getElem?_eq_getElem hi
    obtain ⟨entry, -, hentry⟩ := hentries.exists_of_getElem? hr
    exact runsFit_of_sharedEntry cut_scannedFrom hsame hr hentry
  refine ⟨hordered, hfile ▸ hbounded.file, hanonymous ▸ hbounded.anonymous,
    hpages ▸ hbounded.pages, hruns, fun htaken => ?_⟩
  obtain ⟨entries, total, hentries, htotal⟩ := h.shared htaken
  obtain ⟨entries', hentries', hsum⟩ := exists_entries .debug cut_scannedFrom
    (filePages_scannedFrom generation mappings) (hruns htaken)
  obtain rfl := hentries.unique hentries'
  have hlt := ((Build.foldlM_debug_add_eq_some (by decide)).mp htotal).1
  rwa [Nat.zero_add, hsum] at hlt

/-- The constructor is total exactly where the mappings add up. -/
theorem constructs_iff (modelId : ModelId) (generation : ModelGeneration)
    (mappings : List TensorMappingInfo) :
    Constructs modelId generation mappings ↔ Adds mappings := by
  constructor
  · intro h
    exact Adds.of_computes (not_isPanic_iff.mp (h.returns .debug))
  · intro h
    refine ⟨fun build => not_isPanic_iff.mpr (h.computes build generation), fun build inventory hok => ?_,
      fun build inventory hok => ?_⟩
    · refine map_resources (fun position mapping => ?_) (fun _ _ => rfl) hok
      rw [scanned, classify]
      split <;> rfl
    · have hpart : ∀ position mapping, (scanned generation position mapping).pageBytes =
          mapping.pageBytes := by
        intro position mapping
        rw [scanned, TensorMappingInfo.pageBytes]
        split <;> rfl
      rw [map_resources hpart (fun _ _ => rfl) hok]
      obtain ⟨htaken, summary, -, htally, -, -, hpages⟩ := fromTensorMappings_ok (Prod.ext hok rfl)
      obtain ⟨summary', htally', hcounted⟩ := h.tallies build
      rw [htaken] at htally' hcounted
      obtain rfl : summary' = summary := Option.some.inj (htally'.symm.trans htally)
      rw [hpages, hcounted.pages]
      exact Nat.zero_add _

/-- A page range that ends before it begins. -/
def invertedMapping : TensorMappingInfo := rangeMapping 2 1

/-- A debug build panics on it.  A release build calls the range empty, and counts almost
all of a `u64` as page bytes. -/
theorem inverted_miscounted :
    ¬Constructs ⟨"m"⟩ ⟨1⟩ [invertedMapping] ∧
      (fromTensorMappings .debug ⟨"m"⟩ ⟨1⟩ [invertedMapping] ()).1 = .panic Build.subOverflow ∧
      ∃ inventory, (fromTensorMappings .release ⟨"m"⟩ ⟨1⟩ [invertedMapping] ()).1 = .ok inventory ∧
        inventory.summary.pageBytes = 2 ^ 64 - 4096 ∧
        inventory.resources.map TensorResource.pageBytes = [0] :=
  ⟨fun h => h.returns .debug trivial, rfl, _, rfl, rfl, rfl⟩

end construction

end ResourceInventory
end Ramforge
