/-
The two passes of the inventory's constructor: the loop over the mappings, and the bytes
that each resource shares.

A round of the loop refuses its mapping, or it counts the mapping and adds one resource.
-/
import Ramforge.Rust.Checked
import Ramforge.Runtime.ResidencyInventory

namespace Ramforge

open Std Rust Rust.Exec

namespace TensorMappingInfo

/-- The page range of a mapping, cut at the end of its file. -/
def first (mapping : TensorMappingInfo) : Nat := min mapping.pageStart mapping.mappingSize

def last (mapping : TensorMappingInfo) : Nat := min mapping.pageEnd mapping.mappingSize

/-- The checks of a round. -/
structure Admitted (position : Nat) (mapping : TensorMappingInfo) : Prop where
  position_le : position ≤ ResourceInventory.i32Max
  pageSize : mapping.fileBacked = true → mapping.pageSize ≠ 0
  aligned : mapping.fileBacked = true → mapping.pageStart % mapping.pageSize = 0
  range : mapping.fileBacked = true →
    ¬(checkedAdd mapping.offset mapping.size).all (mapping.mappingSize < ·)

instance (position : Nat) (mapping : TensorMappingInfo) : Decidable (Admitted position mapping) :=
  decidable_of_iff (position ≤ ResourceInventory.i32Max ∧ (mapping.fileBacked = true →
    mapping.pageSize ≠ 0 ∧ mapping.pageStart % mapping.pageSize = 0 ∧
      ¬(checkedAdd mapping.offset mapping.size).all (mapping.mappingSize < ·)))
    ⟨fun ⟨hposition, h⟩ => ⟨hposition, fun hf => (h hf).1, fun hf => (h hf).2.1,
        fun hf => (h hf).2.2⟩,
      fun h => ⟨h.position_le, fun hf => ⟨h.pageSize hf, h.aligned hf, h.range hf⟩⟩⟩

end TensorMappingInfo

open TensorMappingInfo

namespace ResourceInventory

variable {σ : Type} {build : Build} {generation : ModelGeneration} {s s' : σ}

/-! ## The loop over the mappings -/

/-- The resource that a round adds. -/
def scanned (generation : ModelGeneration) (position : Nat) (mapping : TensorMappingInfo) :
    TensorResource :=
  if mapping.fileBacked then
    resourceOf ⟨generation.generation, position⟩ mapping mapping.first mapping.last
      (if mapping.last ≤ mapping.first then .error .emptyPageRange else .ok ()) .native
  else
    resourceOf ⟨generation.generation, position⟩ mapping 0 0 (.error .anonymousOrRepacked) .unknown

def scannedFrom (generation : ModelGeneration) (position : Nat) (mappings : List TensorMappingInfo) :
    List TensorResource :=
  (mappings.zipIdx position).map fun entry => scanned generation entry.2 entry.1

/-- What a round adds to the counters; `none` where it panics. -/
def tally (build : Build) (summary : InventorySummary) (mapping : TensorMappingInfo) :
    Option InventorySummary :=
  if mapping.fileBacked then
    (build.add summary.logicalFileBackedBytes mapping.size).bind fun logical =>
    (build.sub mapping.last mapping.first).bind fun length =>
    (build.add summary.pageBytes length).map fun pages =>
      { summary with
        fileBackedTensors := summary.fileBackedTensors + 1
        logicalFileBackedBytes := logical
        pageBytes := pages }
  else
    (build.add summary.logicalAnonymousBytes mapping.size).map fun logical =>
      { summary with
        anonymousTensors := summary.anonymousTensors + 1
        logicalAnonymousBytes := logical }

/-- The three ways a round ends. -/
theorem scanMapping_cases (build : Build) (generation : ModelGeneration) (st : Scan) (position : Nat)
    (mapping : TensorMappingInfo) (s : σ) :
    (¬mapping.Admitted position ∧
      ∃ e, scanMapping build generation st position mapping s = (.err e, s)) ∨
    (mapping.Admitted position ∧ tally build st.summary mapping = none ∧
      ∃ p, scanMapping build generation st position mapping s = (.panic p, s)) ∨
    (mapping.Admitted position ∧ ∃ summary indices, tally build st.summary mapping = some summary ∧
      scanMapping build generation st position mapping s =
        (.ok (st.push (scanned generation position mapping) indices summary), s)) := by
  rw [scanMapping, failIf_bind_run]
  by_cases hposition : i32Max < position
  · rw [if_pos hposition]
    exact .inl ⟨fun h => Nat.not_lt.mpr h.position_le hposition, _, rfl⟩
  rw [if_neg hposition]
  cases hfile : mapping.fileBacked with
  | false =>
    have hadmitted : mapping.Admitted position :=
      ⟨Nat.not_lt.mp hposition, by simp [hfile], by simp [hfile], by simp [hfile]⟩
    simp only [Bool.false_eq_true, if_false, expect_bind_run, tally, scanned, hfile]
    cases hlogical : build.add st.summary.logicalAnonymousBytes mapping.size with
    | none => exact .inr (.inl ⟨hadmitted, rfl, _, rfl⟩)
    | some logical => exact .inr (.inr ⟨hadmitted, _, st.mappingIndices, rfl, rfl⟩)
  | true =>
    simp only [if_true, failIf_bind_run, expect_bind_run, tally, scanned, hfile]
    by_cases hsize : mapping.pageSize = 0
    · rw [if_pos hsize]
      exact .inl ⟨fun h => h.pageSize hfile hsize, _, rfl⟩
    by_cases haligned : mapping.pageStart % mapping.pageSize = 0
    case neg =>
      rw [if_neg hsize, if_pos haligned]
      exact .inl ⟨fun h => haligned (h.aligned hfile), _, rfl⟩
    by_cases hrange : (checkedAdd mapping.offset mapping.size).all (mapping.mappingSize < ·) = true
    · rw [if_neg hsize, if_neg (not_not.mpr haligned), if_pos hrange]
      exact .inl ⟨fun h => h.range hfile hrange, _, rfl⟩
    have hadmitted : mapping.Admitted position :=
      ⟨Nat.not_lt.mp hposition, fun _ => hsize, fun _ => haligned, fun _ => hrange⟩
    rw [if_neg hsize, if_neg (not_not.mpr haligned), if_neg hrange]
    cases hlogical : build.add st.summary.logicalFileBackedBytes mapping.size with
    | none => exact .inr (.inl ⟨hadmitted, rfl, _, rfl⟩)
    | some logical =>
      rw [first, last]
      cases hlength : build.sub (min mapping.pageEnd mapping.mappingSize)
          (min mapping.pageStart mapping.mappingSize) with
      | none => exact .inr (.inl ⟨hadmitted, rfl, _, rfl⟩)
      | some length =>
        simp only [Option.bind_some]
        cases hpages : build.add st.summary.pageBytes length with
        | none => exact .inr (.inl ⟨hadmitted, rfl, _, rfl⟩)
        | some pages =>
          exact .inr (.inr ⟨hadmitted, _,
            insert (mapping.mappingIndex.getD u32Max) st.mappingIndices, rfl, rfl⟩)

/-- The mappings in front of the first one that the loop refuses. -/
def taken : Nat → List TensorMappingInfo → List TensorMappingInfo
  | _, [] => []
  | position, mapping :: rest =>
    if mapping.Admitted position then mapping :: taken (position + 1) rest else []

/-- The three ways the loop ends.  Where it does not panic, it has counted the mappings it
took. -/
theorem scanMappings_cases (build : Build) (generation : ModelGeneration)
    (mappings : List TensorMappingInfo) (position : Nat) (st : Scan) (s : σ) :
    ((taken position mappings).foldlM (tally build) st.summary = none ∧
      ∃ p, scanMappings build generation mappings position st s = (.panic p, s)) ∨
    ∃ summary, (taken position mappings).foldlM (tally build) st.summary = some summary ∧
      ((taken position mappings ≠ mappings ∧
        ∃ e, scanMappings build generation mappings position st s = (.err e, s)) ∨
      (taken position mappings = mappings ∧ ∃ st',
        scanMappings build generation mappings position st s = (.ok st', s) ∧
        st'.resources = st.resources ++ scannedFrom generation position mappings ∧
        st'.summary = summary)) := by
  induction mappings generalizing position st with
  | nil =>
    refine .inr ⟨st.summary, rfl, .inr ⟨rfl, st, rfl, ?_, rfl⟩⟩
    rw [scannedFrom, List.zipIdx_nil, List.map_nil, List.append_nil]
  | cons mapping rest ih =>
    rw [taken]
    rcases scanMapping_cases build generation st position mapping s with
      ⟨hnot, e, hrun⟩ | ⟨hadmitted, hnone, p, hrun⟩ | ⟨hadmitted, summary, indices, htally, hrun⟩
    · rw [if_neg hnot]
      exact .inr ⟨st.summary, rfl, .inl ⟨by simp, e, bind_of_err hrun⟩⟩
    · rw [if_pos hadmitted, List.foldlM_cons, hnone]
      exact .inl ⟨rfl, p, bind_of_panic hrun⟩
    · have hstep : scanMappings build generation (mapping :: rest) position st s =
          scanMappings build generation rest (position + 1)
            (st.push (scanned generation position mapping) indices summary) s := bind_of_ok hrun
      rw [if_pos hadmitted, List.foldlM_cons, htally, hstep]
      have hfrom : scannedFrom generation position (mapping :: rest) =
          scanned generation position mapping :: scannedFrom generation (position + 1) rest := rfl
      rcases ih (position + 1) (st.push (scanned generation position mapping) indices summary) with
        hpanic | ⟨last, hlast, ⟨hne, herr⟩ | ⟨heq, st', hok, hresources, hsummary⟩⟩
      · exact .inl hpanic
      · exact .inr ⟨last, hlast, .inl ⟨fun h => hne (List.cons.inj h).2, herr⟩⟩
      · refine .inr ⟨last, hlast, .inr ⟨by rw [heq], st', hok, ?_, hsummary⟩⟩
        rw [hresources, hfrom]
        exact List.append_assoc ..

/-! ## The bytes that are shared -/

/-- The entry of one resource in the map `shared`. -/
def sharedEntry (build : Build) (all : List TensorResource) (index : Nat)
    (resource : TensorResource) : Option (Option Nat) :=
  if ¬resource.fileBacked ∨ resource.pageBytes = 0 then some none
  else (mergedIntervalBytes build (overlaps all index resource)).map some

def withShared (resource : TensorResource) (entry : Option Nat) : TensorResource :=
  { resource with sharedPageBytes := entry.getD resource.sharedPageBytes }

section shared

variable {resources : List TensorResource} {entries : List (Option Nat)} {total : Nat}

/-- Every resource has its entry, or the pass panics. -/
theorem sharedEntries_cases (build : Build) (all : List TensorResource) (index : Nat)
    (resources : List TensorResource) (s : σ) :
    (∃ entries, sharedEntries build all index resources s = (.ok entries, s) ∧
      List.Forall₂ (fun e entry => sharedEntry build all e.2 e.1 = some entry)
        (resources.zipIdx index) entries) ∨
    (∃ p, sharedEntries build all index resources s = (.panic p, s)) ∧
      ∃ e ∈ resources.zipIdx index, sharedEntry build all e.2 e.1 = none := by
  induction resources generalizing index with
  | nil => exact .inl ⟨[], rfl, .nil⟩
  | cons resource rest ih =>
    rw [List.zipIdx_cons]
    have hentry : (∃ entry, sharedEntry build all index resource = some entry ∧
          sharedEntries build all index (resource :: rest) s =
            (sharedEntries build all (index + 1) rest >>= fun entries => pure (entry :: entries)) s) ∨
        sharedEntry build all index resource = none ∧
          ∃ p, sharedEntries build all index (resource :: rest) s = (.panic p, s) := by
      rw [sharedEntries, sharedEntry]
      split
      next h => exact .inl ⟨none, rfl, rfl⟩
      next h =>
        cases hmerged : mergedIntervalBytes build (overlaps all index resource) with
        | none => exact .inr ⟨rfl, _, rfl⟩
        | some bytes => exact .inl ⟨some bytes, rfl, rfl⟩
    rcases hentry with ⟨entry, hentry, hrun⟩ | ⟨hnone, p, hrun⟩
    · rw [hrun]
      rcases ih (index + 1) with ⟨entries, hok, hall⟩ | ⟨⟨p, hpanic⟩, e, he, hnone⟩
      · exact .inl ⟨entry :: entries, bind_of_ok hok, .cons hentry hall⟩
      · exact .inr ⟨⟨p, bind_of_panic hpanic⟩, e, List.mem_cons_of_mem _ he, hnone⟩
    · exact .inr ⟨⟨p, hrun⟩, _, List.mem_cons_self, hnone⟩

/-- Each resource gets its own entry, and the entries are added up. -/
theorem setShared_eq (hlength : entries.length = resources.length) :
    setShared build resources entries total s =
      (expect ((entries.filterMap id).foldlM build.add total) Build.addOverflow >>= fun total =>
        pure (List.zipWith withShared resources entries, total)) s := by
  induction resources generalizing entries total with
  | nil =>
    obtain rfl := List.length_eq_zero_iff.mp hlength
    rw [setShared]
    · rfl
    all_goals simp
  | cons resource rest ih =>
    cases entries with
    | nil => cases hlength
    | cons entry entries =>
      cases entry with
      | none =>
        rw [setShared, bind_run, ih (Nat.succ.inj hlength)]
        show _ = (expect ((entries.filterMap id).foldlM build.add total) Build.addOverflow >>= _) s
        cases (entries.filterMap id).foldlM build.add total with
        | none => rfl
        | some sum => rfl
      | some bytes =>
        rw [setShared]
        show _ = (expect ((build.add total bytes).bind ((entries.filterMap id).foldlM build.add))
          Build.addOverflow >>= _) s
        cases build.add total bytes with
        | none => rfl
        | some next =>
          rw [expect_some, pure_bind, bind_run, ih (Nat.succ.inj hlength), Option.bind_some]
          cases (entries.filterMap id).foldlM build.add next with
          | none => rfl
          | some sum => rfl

/-- Only the shared bytes of a resource come from its entry. -/
theorem map_withShared {β : Type} {part : TensorResource → β}
    (hpart : ∀ resource entry, part (withShared resource entry) = part resource)
    (hlength : entries.length = resources.length) :
    (List.zipWith withShared resources entries).map part = resources.map part := by
  induction resources generalizing entries with
  | nil => rfl
  | cons resource rest ih =>
    cases entries with
    | nil => cases hlength
    | cons entry entries =>
      rw [List.zipWith_cons_cons, List.map_cons, List.map_cons, hpart, ih (Nat.succ.inj hlength)]

end shared

/-- The entries of the map `shared`, one for each resource. -/
def Entries (build : Build) (all : List TensorResource) (entries : List (Option Nat)) : Prop :=
  List.Forall₂ (fun e entry => sharedEntry build all e.2 e.1 = some entry) (all.zipIdx 0) entries

namespace Entries

variable {all : List TensorResource} {entries entries' : List (Option Nat)}

theorem length_eq (h : Entries build all entries) : entries.length = all.length := by
  rw [← List.Forall₂.length_eq h, List.length_zipIdx]

theorem unique (h : Entries build all entries) (h' : Entries build all entries') :
    entries = entries' :=
  List.right_unique_forall₂' (fun _ _ _ hab hac => Option.some.inj (hab.symm.trans hac)) h h'

theorem exists_of_getElem? (h : Entries build all entries) {i : Nat} {r : TensorResource}
    (hr : all[i]? = some r) :
    ∃ entry, entries[i]? = some entry ∧ sharedEntry build all i r = some entry := by
  obtain ⟨hi, rfl⟩ := List.getElem?_eq_some_iff.mp hr
  have hi' : i < entries.length := h.length_eq ▸ hi
  have hentry := List.Forall₂.get h (by rwa [List.length_zipIdx]) hi'
  refine ⟨entries[i], List.getElem?_eq_getElem hi', ?_⟩
  simpa using hentry

theorem exists_of_mem (h : Entries build all entries) {e : TensorResource × Nat}
    (he : e ∈ all.zipIdx 0) : ∃ entry, sharedEntry build all e.2 e.1 = some entry := by
  obtain ⟨i, hi, rfl⟩ := List.getElem_of_mem he
  exact ⟨_, List.Forall₂.get h hi (List.Forall₂.length_eq h ▸ hi)⟩

end Entries

/-! ## The constructor -/

section construction

variable {modelId : ModelId} {mappings : List TensorMappingInfo} {inventory : ResourceInventory}

/-- What the constructor returns: the resources of the mappings, each with its own entry. -/
theorem fromTensorMappings_ok
    (h : fromTensorMappings build modelId generation mappings s = (.ok inventory, s')) :
    taken 0 mappings = mappings ∧
      ∃ summary entries, mappings.foldlM (tally build) Scan.start.summary = some summary ∧
        Entries build (scannedFrom generation 0 mappings) entries ∧
        inventory.resources =
          List.zipWith withShared (scannedFrom generation 0 mappings) entries ∧
        inventory.summary.pageBytes = summary.pageBytes := by
  rw [fromTensorMappings] at h
  obtain ⟨-, h⟩ := of_failIf_bind_ok h
  obtain ⟨st, s₁, hscan, h⟩ := of_bind_ok h
  rcases scanMappings_cases build generation mappings 0 Scan.start s with
    ⟨-, p, hpanic⟩ | ⟨summary, htally, ⟨-, e, herr⟩ | ⟨htaken, st', hok, hresources, hsummary⟩⟩
  · rw [hpanic] at hscan
    cases hscan
  · rw [herr] at hscan
    cases hscan
  rw [hok] at hscan
  cases hscan
  obtain ⟨entries, s₂, hentries, h⟩ := of_bind_ok h
  obtain ⟨⟨resources, shared⟩, s₃, hshared, h⟩ := of_bind_ok h
  cases h
  have hst : st.resources = scannedFrom generation 0 mappings := hresources
  rw [hst] at hentries hshared
  rcases sharedEntries_cases build (scannedFrom generation 0 mappings) 0
      (scannedFrom generation 0 mappings) s with ⟨entries', hrun, hall⟩ | ⟨⟨p, hpanic⟩, -⟩
  · rw [hrun] at hentries
    cases hentries
    rw [setShared_eq (Entries.length_eq hall)] at hshared
    obtain ⟨total, -, hshared⟩ := of_expect_bind_ok hshared
    cases hshared
    have hpages : st.summary.pageBytes = summary.pageBytes := by rw [hsummary]
    exact ⟨htaken, summary, entries, htaken ▸ htally, hall, rfl, hpages⟩
  · rw [hpanic] at hentries
    cases hentries

theorem tally_sharedPageBytes {summary summary' : InventorySummary} {mapping : TensorMappingInfo}
    (h : tally build summary mapping = some summary') :
    summary'.sharedPageBytes = summary.sharedPageBytes := by
  rw [tally] at h
  split at h
  next =>
    obtain ⟨logical, -, h⟩ := Option.bind_eq_some_iff.mp h
    obtain ⟨length, -, h⟩ := Option.bind_eq_some_iff.mp h
    obtain ⟨pages, -, rfl⟩ := Option.map_eq_some_iff.mp h
    rfl
  next =>
    obtain ⟨logical, -, rfl⟩ := Option.map_eq_some_iff.mp h
    rfl

theorem foldlM_tally_sharedPageBytes {summary summary' : InventorySummary}
    (h : mappings.foldlM (tally build) summary = some summary') :
    summary'.sharedPageBytes = summary.sharedPageBytes := by
  induction mappings generalizing summary with
  | nil =>
    cases h
    rfl
  | cons mapping rest ih =>
    obtain ⟨next, hnext, h⟩ := Option.bind_eq_some_iff.mp h
    rw [ih h, tally_sharedPageBytes hnext]

/-- The additions and subtractions that a call makes all have a result. -/
structure Computes (build : Build) (generation : ModelGeneration)
    (mappings : List TensorMappingInfo) : Prop where
  counters : ∃ summary, (taken 0 mappings).foldlM (tally build) Scan.start.summary = some summary
  shared : taken 0 mappings = mappings → ∃ entries total,
    Entries build (scannedFrom generation 0 mappings) entries ∧
      (entries.filterMap id).foldlM build.add 0 = some total

/-- A call panics exactly where one of its additions or subtractions does. -/
theorem not_isPanic_iff : ¬(fromTensorMappings build modelId generation mappings s).1.IsPanic ↔
    Computes build generation mappings := by
  rw [fromTensorMappings, failIf_bind_run]
  by_cases hnil : mappings = []
  · subst hnil
    rw [if_pos rfl]
    exact ⟨fun _ => ⟨⟨_, rfl⟩, fun _ => ⟨[], 0, .nil, rfl⟩⟩, fun _ h => h⟩
  rw [if_neg hnil]
  rcases scanMappings_cases build generation mappings 0 Scan.start s with
    ⟨hnone, p, hpanic⟩ | ⟨summary, htally, ⟨hne, e, herr⟩ | ⟨htaken, st, hok, hresources, hsummary⟩⟩
  · rw [bind_of_panic hpanic]
    refine ⟨fun h => absurd trivial h, fun h => ?_⟩
    obtain ⟨summary, hsome⟩ := h.counters
    rw [hnone] at hsome
    cases hsome
  · rw [bind_of_err herr]
    exact ⟨fun _ => ⟨⟨summary, htally⟩, fun h => absurd h hne⟩, fun _ h => h⟩
  have hst : st.resources = scannedFrom generation 0 mappings := hresources
  have hzero : st.summary.sharedPageBytes = 0 := by
    rw [hsummary, foldlM_tally_sharedPageBytes htally]
    rfl
  rw [bind_of_ok hok, hst, hzero]
  rcases sharedEntries_cases build (scannedFrom generation 0 mappings) 0
      (scannedFrom generation 0 mappings) s with ⟨entries, hrun, hall⟩ | ⟨⟨p, hpanic⟩, e, he, hnone⟩
  · rw [bind_of_ok hrun, bind_run, setShared_eq (Entries.length_eq hall)]
    cases htotal : (entries.filterMap id).foldlM build.add 0 with
    | some total => exact ⟨fun _ => ⟨⟨summary, htally⟩, fun _ => ⟨entries, total, hall, htotal⟩⟩,
        fun _ h => h⟩
    | none =>
      refine ⟨fun h => absurd trivial h, fun h => ?_⟩
      obtain ⟨entries', total, hall', hsome⟩ := h.shared htaken
      rw [Entries.unique hall' hall, htotal] at hsome
      cases hsome
  · rw [bind_of_panic hpanic]
    refine ⟨fun h => absurd trivial h, fun h => ?_⟩
    obtain ⟨entries, total, hall, -⟩ := h.shared htaken
    obtain ⟨entry, hsome⟩ := hall.exists_of_mem he
    rw [hnone] at hsome
    cases hsome

/-- A call returns an inventory where it refuses no mapping and every sum has a result. -/
theorem exists_ok_of_computes (hnil : mappings ≠ []) (htaken : taken 0 mappings = mappings)
    (h : Computes build generation mappings) :
    ∃ inventory, (fromTensorMappings build modelId generation mappings s).1 = .ok inventory := by
  obtain ⟨summary, htally⟩ := h.counters
  obtain ⟨entries, total, hall, htotal⟩ := h.shared htaken
  rw [fromTensorMappings, failIf_bind_run, if_neg hnil]
  rcases scanMappings_cases build generation mappings 0 Scan.start s with
    ⟨hnone, -⟩ | ⟨summary', htally', ⟨hne, -⟩ | ⟨-, st, hok, hresources, hsummary⟩⟩
  · rw [htally] at hnone
    cases hnone
  · exact absurd htaken hne
  have hst : st.resources = scannedFrom generation 0 mappings := hresources
  have hzero : st.summary.sharedPageBytes = 0 := by
    rw [hsummary, foldlM_tally_sharedPageBytes htally']
    rfl
  rw [bind_of_ok hok, hst, hzero]
  rcases sharedEntries_cases build (scannedFrom generation 0 mappings) 0
      (scannedFrom generation 0 mappings) s with ⟨entries', hrun, hall'⟩ | ⟨-, e, he, hnone⟩
  · rw [bind_of_ok hrun, bind_run, setShared_eq (Entries.length_eq hall'),
      Entries.unique hall' hall, htotal]
    exact ⟨_, rfl⟩
  · obtain ⟨entry, hsome⟩ := hall.exists_of_mem he
    rw [hnone] at hsome
    cases hsome

end construction

end ResourceInventory
end Ramforge
