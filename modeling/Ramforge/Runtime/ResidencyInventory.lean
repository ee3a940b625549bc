/-
The resources of one loaded model, built from native tensor mappings.

The fields of a mapping come from the native side.  `page_end` may lie below
`page_start`: the code calls such a range empty.
-/
import Ramforge.Rust.Exec
import Ramforge.Rust.Checked
import Ramforge.Rust.Text
import Mathlib.Data.List.Sort
import Std.Data.ExtTreeMap.Lemmas

namespace Ramforge

open Std Rust Rust.Exec

structure ModelId where
  id : String
deriving DecidableEq, Repr

structure ModelGeneration where
  generation : Nat
deriving DecidableEq, Repr

structure ResourceKey where
  generation : Nat
  tensorIndex : Int
deriving DecidableEq, Repr

namespace ResourceKey

/-- The derived order: the generation first. -/
instance : Ord ResourceKey where
  compare := compareLex (compareOn ResourceKey.generation) (compareOn ResourceKey.tensorIndex)

instance : TransOrd ResourceKey :=
  inferInstanceAs (TransCmp (compareLex (compareOn _) (compareOn _)))

instance : LawfulEqOrd ResourceKey where
  eq_of_compare {a b} h := by
    obtain ⟨hgeneration, hindex⟩ := Ordering.then_eq_eq.mp h
    cases a
    cases b
    simp only [compareOn, Std.compare_eq_iff_eq] at hgeneration hindex
    rw [hgeneration, hindex]

end ResourceKey

inductive LayerIdentity where
  | known (layer : Nat)
  | unknown
deriving DecidableEq, Repr

def u32Max : Nat := 2 ^ 32 - 1

def LayerIdentity.sortKey : LayerIdentity → Nat × Nat
  | .known layer => (0, layer)
  | .unknown => (1, u32Max)

inductive MetadataConfidence where
  | native
  | inferred
  | unknown
deriving DecidableEq, Repr

inductive IneligibilityReason where
  | anonymousOrRepacked
  | emptyPageRange
  | invalidMappingMetadata
deriving DecidableEq, Repr

inductive ResourceOwner where
  | modelFileMapping
  | modelAnonymousBuffer
  | contextOwned
  | unknown
deriving DecidableEq, Repr

inductive ResourceLifetime where
  | pageReleaseSafeAfterOperation
  | unsupported
  | unknown
deriving DecidableEq, Repr

/-- What the native side reports about one tensor. -/
structure TensorMappingInfo where
  name : String
  fileBacked : Bool
  mappingIndex : Option Nat
  mappingId : Option Nat
  mappingGeneration : Option Nat
  filePath : Option String
  fileSize : Option Nat
  mappingSize : Nat
  offset : Nat
  size : Nat
  pageSize : Nat
  pageStart : Nat
  pageEnd : Nat
deriving DecidableEq, Repr

structure TensorResource where
  key : ResourceKey
  name : String
  layer : LayerIdentity
  fileBacked : Bool
  mappingIndex : Option Nat
  mappingId : Option Nat
  mappingGeneration : Option Nat
  mappingFilePath : Option String
  mappingFileSize : Option Nat
  mappingSize : Nat
  offset : Nat
  logicalBytes : Nat
  pageSize : Nat
  pageStart : Nat
  pageEnd : Nat
  pageBytes : Nat
  sharedPageBytes : Nat
  owner : ResourceOwner
  lifetime : ResourceLifetime
  eligibility : Except IneligibilityReason Unit
  metadataConfidence : MetadataConfidence

def TensorResource.uniqueReclaimableBytes (r : TensorResource) : Nat :=
  saturatingSub r.pageBytes r.sharedPageBytes

structure InventorySummary where
  tensors : Nat
  fileBackedTensors : Nat
  anonymousTensors : Nat
  unknownTensors : Nat
  mappings : Nat
  logicalFileBackedBytes : Nat
  logicalAnonymousBytes : Nat
  pageBytes : Nat
  sharedPageBytes : Nat
deriving DecidableEq, Repr

structure ResourceInventory where
  modelId : ModelId
  generation : ModelGeneration
  nativeModelInstance : Option Nat
  nativeContractVersion : Option Nat
  resources : List TensorResource
  byIndex : ExtTreeMap Int Nat compare
  summary : InventorySummary

inductive InventoryError where
  | emptyModel
  | invalidPageSize (tensor : String) (pageSize : Nat)
  | unalignedPage (tensor : String) (pageStart pageSize : Nat)
  | invalidRange (tensor : String) (offset size mappingSize : Nat)
deriving DecidableEq, Repr

def InventoryError.display : InventoryError → String
  | .emptyModel => "model exposes no tensor resources"
  | .invalidPageSize tensor pageSize => s!"tensor {tensor} has invalid page size {pageSize}"
  | .unalignedPage tensor pageStart pageSize =>
    s!"tensor {tensor} page start {pageStart} is not aligned to {pageSize}"
  | .invalidRange tensor offset size mappingSize =>
    s!"tensor {tensor} range offset={offset} size={size} exceeds mapping {mappingSize}"

/-! ## Layer names -/

/-- `str::parse::<u32>`: an optional `+`, then digits that fit. -/
def parseU32 (digits : List Char) : Option Nat :=
  let digits := match digits with
    | '+' :: rest => rest
    | l => l
  if digits = [] ∨ ¬digits.all Char.isDigit then none
  else
    let value := digits.foldl (fun n c => 10 * n + (c.toNat - '0'.toNat)) 0
    if value ≤ u32Max then some value else none

def layerFromName (name : String) : LayerIdentity :=
  if Text.startsWith name "blk." then
    let rest := (Text.dropLen name "blk.").toList
    let number := rest.takeWhile (· ≠ '.')
    match rest.drop number.length with
    | [] => .unknown
    | _ :: suffix =>
      if suffix = [] then .unknown
      else
        match parseU32 number with
        | some layer => .known layer
        | none => .unknown
  else .unknown

/-! ## Shared pages -/

def intervalLe (a b : Nat × Nat) : Prop := a.1 < b.1 ∨ a.1 = b.1 ∧ a.2 ≤ b.2

instance : DecidableRel intervalLe := fun a b =>
  inferInstanceAs (Decidable (a.1 < b.1 ∨ a.1 = b.1 ∧ a.2 ≤ b.2))

def mergeIntervals (build : Build) : List (Nat × Nat) → Nat → Nat → Nat → Option Nat
  | [], total, first, last => do
    let total ← build.add total last
    build.sub total first
  | (nextFirst, nextLast) :: rest, total, first, last =>
    if last < nextFirst then do
      let length ← build.sub last first
      let total ← build.add total length
      mergeIntervals build rest total nextFirst nextLast
    else mergeIntervals build rest total first (if last < nextLast then nextLast else last)

/-- `none` where the arithmetic of a debug build panics. -/
def mergedIntervalBytes (build : Build) (intervals : List (Nat × Nat)) : Option Nat :=
  match intervals.insertionSort intervalLe with
  | [] => some 0
  | (first, last) :: rest => mergeIntervals build rest 0 first last

/-- The start of a page range that is not empty is the start of a page. -/
def TensorResource.Aligned (r : TensorResource) : Prop :=
  r.pageStart < r.pageEnd → r.pageStart % r.pageSize = 0

namespace ResourceInventory

variable {σ : Type}

/-- The overlaps of a resource with the other file-backed ones of its mapping. -/
def overlaps (resources : List TensorResource) (index : Nat) (resource : TensorResource) :
    List (Nat × Nat) :=
  resources.zipIdx.filterMap fun (other, otherIndex) =>
    if index = otherIndex ∨ ¬other.fileBacked ∨ other.mappingIndex ≠ resource.mappingIndex ∨
        other.pageBytes = 0 then none
    else
      let first := max resource.pageStart other.pageStart
      let last := min resource.pageEnd other.pageEnd
      if first < last then some (first, last) else none

/-- The entries of the map `shared`, one for each resource from `index` on. -/
def sharedEntries (build : Build) (all : List TensorResource) :
    Nat → List TensorResource → Exec σ InventoryError (List (Option Nat))
  | _, [] => pure []
  | index, resource :: rest => do
    let entry ←
      if ¬resource.fileBacked ∨ resource.pageBytes = 0 then pure none
      else do
        let bytes ← expect (mergedIntervalBytes build (overlaps all index resource))
          Build.addOverflow
        pure (some bytes)
    let entries ← sharedEntries build all (index + 1) rest
    pure (entry :: entries)

def setShared (build : Build) :
    List TensorResource → List (Option Nat) → Nat → Exec σ InventoryError (List TensorResource × Nat)
  | resource :: rest, some bytes :: entries, total => do
    let total ← expect (build.add total bytes) Build.addOverflow
    let (resources, total) ← setShared build rest entries total
    pure ({ resource with sharedPageBytes := bytes } :: resources, total)
  | resource :: rest, none :: entries, total => do
    let (resources, total) ← setShared build rest entries total
    pure (resource :: resources, total)
  | resources, _, total => pure (resources, total)

/-! ## Construction -/

/-- The locals of the loop over the mappings. -/
structure Scan where
  resources : List TensorResource
  byIndex : ExtTreeMap Int Nat compare
  mappingIndices : Finset Nat
  summary : InventorySummary

def Scan.start : Scan where
  resources := []
  byIndex := ∅
  mappingIndices := ∅
  summary :=
    { tensors := 0, fileBackedTensors := 0, anonymousTensors := 0, unknownTensors := 0, mappings := 0,
      logicalFileBackedBytes := 0, logicalAnonymousBytes := 0, pageBytes := 0, sharedPageBytes := 0 }

def i32Max : Nat := 2 ^ 31 - 1

def resourceOf (key : ResourceKey) (mapping : TensorMappingInfo) (pageStart pageEnd : Nat)
    (eligibility : Except IneligibilityReason Unit) (confidence : MetadataConfidence) :
    TensorResource where
  key := key
  name := mapping.name
  layer := layerFromName mapping.name
  fileBacked := mapping.fileBacked
  mappingIndex := mapping.mappingIndex
  mappingId := mapping.mappingId
  mappingGeneration := mapping.mappingGeneration
  mappingFilePath := mapping.filePath
  mappingFileSize := mapping.fileSize
  mappingSize := mapping.mappingSize
  offset := mapping.offset
  logicalBytes := mapping.size
  pageSize := mapping.pageSize
  pageStart := pageStart
  pageEnd := pageEnd
  pageBytes := saturatingSub pageEnd pageStart
  sharedPageBytes := 0
  owner :=
    if mapping.fileBacked then .modelFileMapping
    else if mapping.mappingIndex = none then .modelAnonymousBuffer
    else .unknown
  lifetime :=
    if mapping.fileBacked then .pageReleaseSafeAfterOperation
    else if mapping.mappingIndex = none then .unsupported
    else .unknown
  eligibility := eligibility
  metadataConfidence := confidence

def Scan.push (st : Scan) (resource : TensorResource) (mappingIndices : Finset Nat)
    (summary : InventorySummary) : Scan where
  resources := st.resources ++ [resource]
  byIndex := st.byIndex.insert resource.key.tensorIndex st.resources.length
  mappingIndices := mappingIndices
  summary := summary

/-- One round of the loop, at `position`. -/
def scanMapping (build : Build) (generation : ModelGeneration) (st : Scan) (position : Nat)
    (mapping : TensorMappingInfo) : Exec σ InventoryError Scan := do
  failIf (i32Max < position) .emptyModel
  let key : ResourceKey := { generation := generation.generation, tensorIndex := position }
  if mapping.fileBacked then do
    failIf (mapping.pageSize = 0) (.invalidPageSize mapping.name 0)
    failIf (mapping.pageStart % mapping.pageSize ≠ 0)
      (.unalignedPage mapping.name mapping.pageStart mapping.pageSize)
    failIf ((checkedAdd mapping.offset mapping.size).all (mapping.mappingSize < ·))
      (.invalidRange mapping.name mapping.offset mapping.size mapping.mappingSize)
    let pageStart := min mapping.pageStart mapping.mappingSize
    let pageEnd := min mapping.pageEnd mapping.mappingSize
    let eligibility := if pageEnd ≤ pageStart then .error .emptyPageRange else .ok ()
    let logical ← expect (build.add st.summary.logicalFileBackedBytes mapping.size)
      Build.addOverflow
    let length ← expect (build.sub pageEnd pageStart) Build.subOverflow
    let pages ← expect (build.add st.summary.pageBytes length) Build.addOverflow
    pure (st.push (resourceOf key mapping pageStart pageEnd eligibility .native)
      (insert (mapping.mappingIndex.getD u32Max) st.mappingIndices)
      { st.summary with
        fileBackedTensors := st.summary.fileBackedTensors + 1
        logicalFileBackedBytes := logical
        pageBytes := pages })
  else do
    let logical ← expect (build.add st.summary.logicalAnonymousBytes mapping.size)
      Build.addOverflow
    pure (st.push (resourceOf key mapping 0 0 (.error .anonymousOrRepacked) .unknown)
      st.mappingIndices
      { st.summary with
        anonymousTensors := st.summary.anonymousTensors + 1
        logicalAnonymousBytes := logical })

def scanMappings (build : Build) (generation : ModelGeneration) :
    List TensorMappingInfo → Nat → Scan → Exec σ InventoryError Scan
  | [], _, st => pure st
  | mapping :: rest, position, st => do
    let st ← scanMapping build generation st position mapping
    scanMappings build generation rest (position + 1) st

def fromTensorMappings (build : Build) (modelId : ModelId) (generation : ModelGeneration)
    (mappings : List TensorMappingInfo) : Exec σ InventoryError ResourceInventory := do
  failIf (mappings = []) .emptyModel
  let st ← scanMappings build generation mappings 0 Scan.start
  let entries ← sharedEntries build st.resources 0 st.resources
  let (resources, shared) ← setShared build st.resources entries st.summary.sharedPageBytes
  pure
    { modelId := modelId
      generation := generation
      nativeModelInstance := none
      nativeContractVersion := none
      resources := resources
      byIndex := st.byIndex
      summary :=
        { st.summary with
          sharedPageBytes := shared
          tensors := resources.length
          mappings := st.mappingIndices.card
          unknownTensors := (resources.filter fun resource => !resource.fileBacked).length } }

def get (inventory : ResourceInventory) (key : ResourceKey) : Option TensorResource :=
  if key.generation ≠ inventory.generation.generation then none
  else inventory.byIndex[key.tensorIndex]?.bind fun index => inventory.resources[index]?

/-! ## Keys

The key of a resource is its position, and `get` finds each resource under its key. -/

structure Keyed (inventory : ResourceInventory) : Prop where
  key_eq : ∀ (i : Nat) (r : TensorResource), inventory.resources[i]? = some r →
    r.key = ⟨inventory.generation.generation, i⟩
  byIndex_eq : ∀ i : Nat, i < inventory.resources.length → inventory.byIndex[(i : Int)]? = some i

section keyed

variable {build : Build} {generation : ModelGeneration} {inventory : ResourceInventory}
  {r r' : TensorResource} {s s' : σ}

theorem Keyed.get_eq (h : inventory.Keyed) (hr : r ∈ inventory.resources) :
    inventory.get r.key = some r := by
  obtain ⟨i, hi, rfl⟩ := List.getElem_of_mem hr
  have hget : inventory.resources[i]? = some inventory.resources[i] := List.getElem?_eq_getElem hi
  rw [get, h.key_eq i _ hget, if_neg (not_not.mpr rfl), h.byIndex_eq i hi, Option.bind_some, hget]

/-- `get` gives a resource under its own key only, where no index of the map is wrong. -/
theorem Keyed.of_get (h : inventory.Keyed)
    (hindex : ∀ (k : Int) (index : Nat), inventory.byIndex[k]? = some index → k = index)
    {key : ResourceKey} (hget : inventory.get key = some r) :
    r ∈ inventory.resources ∧ r.key = key := by
  rw [get] at hget
  split at hget
  next => cases hget
  next hgeneration =>
    obtain ⟨index, hk, hr⟩ := Option.bind_eq_some_iff.mp hget
    refine ⟨List.mem_of_getElem? hr, ?_⟩
    rw [h.key_eq index r hr, ← not_not.mp hgeneration, ← hindex _ _ hk]

theorem Keyed.generation_eq (h : inventory.Keyed) (hr : r ∈ inventory.resources) :
    r.key.generation = inventory.generation.generation := by
  obtain ⟨i, hi, rfl⟩ := List.getElem_of_mem hr
  rw [h.key_eq i _ (List.getElem?_eq_getElem hi)]

/-- Resources of one inventory with the same native index are one resource. -/
theorem Keyed.key_inj (h : inventory.Keyed) (hr : r ∈ inventory.resources)
    (hr' : r' ∈ inventory.resources) (hindex : r.key.tensorIndex = r'.key.tensorIndex) : r = r' := by
  obtain ⟨i, hi, rfl⟩ := List.getElem_of_mem hr
  obtain ⟨j, hj, rfl⟩ := List.getElem_of_mem hr'
  rw [h.key_eq i _ (List.getElem?_eq_getElem hi), h.key_eq j _ (List.getElem?_eq_getElem hj)] at hindex
  obtain rfl : i = j := Int.ofNat.inj hindex
  rfl

/-- The invariant of the loop over the mappings. -/
structure Scan.Keyed (generation : ModelGeneration) (st : Scan) : Prop where
  key_eq : ∀ (i : Nat) (r : TensorResource), st.resources[i]? = some r →
    r.key = ⟨generation.generation, i⟩
  byIndex_eq : ∀ i : Nat, i < st.resources.length → st.byIndex[(i : Int)]? = some i

theorem Scan.Keyed.start : Scan.Keyed generation Scan.start where
  key_eq i r h := by simp [Scan.start] at h
  byIndex_eq i h := absurd h (Nat.not_lt_zero i)

theorem Scan.Keyed.push {st : Scan} (h : st.Keyed generation)
    (hkey : r.key = ⟨generation.generation, st.resources.length⟩) (indices : Finset Nat)
    (summary : InventorySummary) : (st.push r indices summary).Keyed generation where
  key_eq i r' hr' := by
    have hi : i < st.resources.length + 1 := by
      simpa [Scan.push] using (List.getElem?_eq_some_iff.mp hr').1
    rcases Nat.lt_succ_iff_lt_or_eq.mp hi with hlt | rfl
    · rw [Scan.push, List.getElem?_append_left hlt] at hr'
      exact h.key_eq i r' hr'
    · simp only [Scan.push, List.getElem?_concat_length, Option.some.injEq] at hr'
      rw [← hr', hkey]
  byIndex_eq i hi := by
    have hi : i < st.resources.length + 1 := by simpa [Scan.push] using hi
    have hindex : r.key.tensorIndex = st.resources.length := by rw [hkey]
    show (st.byIndex.insert r.key.tensorIndex st.resources.length)[(i : Int)]? = some i
    rw [ExtTreeMap.getElem?_insert, hindex]
    rcases Nat.lt_succ_iff_lt_or_eq.mp hi with hlt | rfl
    · rw [if_neg (by rw [Std.compare_eq_iff_eq]; omega)]
      exact h.byIndex_eq i hlt
    · rw [if_pos (by rw [Std.compare_eq_iff_eq])]

/-- What one round of the loop adds. -/
theorem scanMapping_ok {st st' : Scan} {position : Nat} {mapping : TensorMappingInfo}
    (h : scanMapping build generation st position mapping s = (.ok st', s')) :
    position ≤ i32Max ∧ s' = s ∧ ∃ r indices summary,
      r.key = ⟨generation.generation, position⟩ ∧ r.Aligned ∧ st' = st.push r indices summary := by
  rw [scanMapping] at h
  obtain ⟨hposition, h⟩ := of_failIf_bind_ok h
  refine ⟨Nat.not_lt.mp hposition, ?_⟩
  split at h
  · obtain ⟨-, h⟩ := of_failIf_bind_ok h
    obtain ⟨haligned, h⟩ := of_failIf_bind_ok h
    obtain ⟨-, h⟩ := of_failIf_bind_ok h
    obtain ⟨logical, -, h⟩ := of_expect_bind_ok h
    obtain ⟨length, -, h⟩ := of_expect_bind_ok h
    obtain ⟨pages, -, h⟩ := of_expect_bind_ok h
    cases h
    refine ⟨rfl, _, _, _, rfl, fun hlt => ?_, rfl⟩
    have hlt : min mapping.pageStart mapping.mappingSize <
        min mapping.pageEnd mapping.mappingSize := hlt
    show min mapping.pageStart mapping.mappingSize % mapping.pageSize = 0
    rw [Nat.min_eq_left (by omega)]
    exact not_not.mp haligned
  · obtain ⟨logical, -, h⟩ := of_expect_bind_ok h
    cases h
    exact ⟨rfl, _, _, _, rfl, fun hlt => absurd hlt (Nat.lt_irrefl 0), rfl⟩

/-- The induction over the mappings: what every added resource keeps holds at the end. -/
theorem scanMappings_invariant (I : Scan → Prop) {mappings : List TensorMappingInfo} {st st' : Scan}
    (hpush : ∀ (st : Scan) (r : TensorResource) (indices : Finset Nat) (summary : InventorySummary),
      I st → st.resources.length ≤ i32Max →
      r.key = ⟨generation.generation, st.resources.length⟩ → r.Aligned →
      I (st.push r indices summary))
    (hst : I st)
    (h : scanMappings build generation mappings st.resources.length st s = (.ok st', s')) : I st' := by
  induction mappings generalizing st s with
  | nil =>
    cases h
    exact hst
  | cons mapping rest ih =>
    obtain ⟨st₁, s₁, hround, h⟩ := of_bind_ok h
    obtain ⟨hposition, rfl, r, indices, summary, hkey, haligned, rfl⟩ := scanMapping_ok hround
    have hlength : (st.push r indices summary).resources.length = st.resources.length + 1 := by
      simp [Scan.push]
    rw [← hlength] at h
    exact ih (hpush st r indices summary hst hposition hkey haligned) h

/-- Only the shared bytes are set. -/
theorem setShared_map {β : Type} {part : TensorResource → β}
    (hpart : ∀ resource bytes, part { resource with sharedPageBytes := bytes } = part resource)
    {resources resources' : List TensorResource} {entries : List (Option Nat)}
    {total total' : Nat}
    (h : setShared build resources entries total s = (.ok (resources', total'), s')) :
    resources'.map part = resources.map part := by
  induction resources generalizing entries total resources' total' s with
  | nil =>
    rw [setShared] at h
    · cases h
      rfl
    all_goals simp
  | cons resource rest ih =>
    cases entries with
    | nil =>
      rw [setShared] at h
      · cases h
        rfl
      all_goals simp
    | cons entry entries =>
      cases entry with
      | none =>
        obtain ⟨⟨resources₁, total₁⟩, s₁, hrest, h⟩ := of_bind_ok h
        cases h
        rw [List.map_cons, List.map_cons, ih hrest]
      | some bytes =>
        obtain ⟨total₀, -, h⟩ := of_expect_bind_ok h
        obtain ⟨⟨resources₁, total₁⟩, s₁, hrest, h⟩ := of_bind_ok h
        cases h
        rw [List.map_cons, List.map_cons, ih hrest, hpart]

/-- An inventory is what the loop leaves, with the shared bytes set. -/
theorem fromTensorMappings_scan {modelId : ModelId} {mappings : List TensorMappingInfo}
    (h : fromTensorMappings build modelId generation mappings s = (.ok inventory, s')) :
    ∃ st s₁, scanMappings build generation mappings Scan.start.resources.length Scan.start s =
        (.ok st, s₁) ∧
      inventory.generation = generation ∧ inventory.byIndex = st.byIndex ∧
      ∀ (β : Type) (part : TensorResource → β),
        (∀ resource bytes, part { resource with sharedPageBytes := bytes } = part resource) →
        inventory.resources.map part = st.resources.map part := by
  rw [fromTensorMappings] at h
  obtain ⟨-, h⟩ := of_failIf_bind_ok h
  obtain ⟨st, s₁, hscan, h⟩ := of_bind_ok h
  obtain ⟨entries, s₂, -, h⟩ := of_bind_ok h
  obtain ⟨⟨resources, shared⟩, s₃, hshared, h⟩ := of_bind_ok h
  cases h
  exact ⟨st, s₁, hscan, rfl, rfl, fun β part hpart => setShared_map hpart hshared⟩

theorem fromTensorMappings_keyed {modelId : ModelId} {mappings : List TensorMappingInfo}
    (h : fromTensorMappings build modelId generation mappings s = (.ok inventory, s')) :
    inventory.Keyed := by
  obtain ⟨st, s₁, hscan, rfl, hbyIndex, hparts⟩ := fromTensorMappings_scan h
  have hst : st.Keyed inventory.generation :=
    scanMappings_invariant (Scan.Keyed inventory.generation)
      (fun st r indices summary hst _ hkey _ => hst.push hkey indices summary) Scan.Keyed.start hscan
  have hkeys := hparts _ TensorResource.key fun _ _ => rfl
  have hlength : inventory.resources.length = st.resources.length := by
    simpa using congrArg List.length hkeys
  refine ⟨fun i r hr => ?_, fun i hi => hbyIndex ▸ hst.byIndex_eq i (hlength ▸ hi)⟩
  have hi : (inventory.resources.map TensorResource.key)[i]? = some r.key := by
    rw [List.getElem?_map, hr, Option.map_some]
  rw [hkeys, List.getElem?_map] at hi
  obtain ⟨r₀, hr₀, hkey⟩ := Option.map_eq_some_iff.mp hi
  rw [← hkey]
  exact hst.key_eq i r₀ hr₀

theorem fromTensorMappings_aligned {modelId : ModelId} {mappings : List TensorMappingInfo}
    (h : fromTensorMappings build modelId generation mappings s = (.ok inventory, s')) :
    ∀ r ∈ inventory.resources, r.Aligned := by
  obtain ⟨st, s₁, hscan, -, -, hparts⟩ := fromTensorMappings_scan h
  have hst : ∀ r ∈ st.resources, r.Aligned := by
    refine scanMappings_invariant (fun st => ∀ r ∈ st.resources, r.Aligned)
      (fun st r indices summary hst _ _ haligned r' hr' => ?_) (fun r hr => by cases hr) hscan
    rcases List.mem_append.mp hr' with hold | hnew
    · exact hst r' hold
    · rwa [List.mem_singleton.mp hnew]
  have hsame := hparts _ TensorResource.Aligned fun _ _ => rfl
  intro r hr
  have hmem : r.Aligned ∈ st.resources.map TensorResource.Aligned := by
    rw [← hsame]
    exact List.mem_map_of_mem hr
  obtain ⟨r', hr', heq⟩ := List.mem_map.mp hmem
  exact heq ▸ hst r' hr'

/-- The positions of an inventory are native indices. -/
theorem fromTensorMappings_length {modelId : ModelId} {mappings : List TensorMappingInfo}
    (h : fromTensorMappings build modelId generation mappings s = (.ok inventory, s')) :
    inventory.resources.length ≤ i32Max + 1 := by
  obtain ⟨st, s₁, hscan, -, -, hparts⟩ := fromTensorMappings_scan h
  have hst : st.resources.length ≤ i32Max + 1 := by
    refine scanMappings_invariant (fun st => st.resources.length ≤ i32Max + 1)
      (fun st r indices summary _ hlength _ _ => ?_) (Nat.zero_le _) hscan
    have hpush : (st.push r indices summary).resources.length = st.resources.length + 1 := by
      simp [Scan.push]
    omega
  have hkeys := congrArg List.length (hparts _ TensorResource.key fun _ _ => rfl)
  rw [List.length_map, List.length_map] at hkeys
  exact hkeys ▸ hst

/-- No index of the map is wrong. -/
theorem fromTensorMappings_byIndex {modelId : ModelId} {mappings : List TensorMappingInfo}
    (h : fromTensorMappings build modelId generation mappings s = (.ok inventory, s')) {k : Int}
    {index : Nat} (hk : inventory.byIndex[k]? = some index) : k = index := by
  obtain ⟨st, s₁, hscan, -, hbyIndex, -⟩ := fromTensorMappings_scan h
  have hst : ∀ (k : Int) (index : Nat), st.byIndex[k]? = some index → k = index := by
    refine scanMappings_invariant
      (fun st => ∀ (k : Int) (index : Nat), st.byIndex[k]? = some index → k = index)
      (fun st r indices summary hst _ hkey _ k index hk => ?_)
      (fun k index hk => by simp [Scan.start] at hk) hscan
    have hindex : r.key.tensorIndex = st.resources.length := by rw [hkey]
    have hk : (st.byIndex.insert r.key.tensorIndex st.resources.length)[k]? = some index := hk
    rw [ExtTreeMap.getElem?_insert, hindex] at hk
    split at hk
    next heq =>
      cases hk
      exact (Std.compare_eq_iff_eq.mp heq).symm
    next => exact hst k index hk
  rw [hbyIndex] at hk
  exact hst k index hk

end keyed

end ResourceInventory

/-- An inventory as the constructor returns it. -/
def BuiltInventory : Type :=
  { inventory : ResourceInventory // ∃ build modelId generation mappings,
    (ResourceInventory.fromTensorMappings build modelId generation mappings ()).1 = .ok inventory }

theorem BuiltInventory.keyed (inventory : BuiltInventory) : inventory.val.Keyed := by
  obtain ⟨build, modelId, generation, mappings, h⟩ := inventory.property
  exact ResourceInventory.fromTensorMappings_keyed (Prod.ext h rfl)

theorem BuiltInventory.aligned (inventory : BuiltInventory) :
    ∀ r ∈ inventory.val.resources, r.Aligned := by
  obtain ⟨build, modelId, generation, mappings, h⟩ := inventory.property
  exact ResourceInventory.fromTensorMappings_aligned (Prod.ext h rfl)

end Ramforge
