/-
The pages that simulated resources share.

A scenario numbers its mappings in one space: a group under its own number, a resource
without a group under its position.  What is shared in the inventory, and what the
observation counts, follow the groups where the two kinds of number do not meet.
-/
import Ramforge.Runtime.InventoryTotal
import Ramforge.Runtime.PredictionSim

namespace Ramforge

open Std Rust Rust.Outcome Rust.SetFamily Rust.Interval

namespace SimResource

/-- The size that the inventory is given. -/
def size (r : SimResource) : Nat := if r.knownSize then r.bytes else 0

theorem size_lt (r : SimResource) : r.size < u64Bound := by
  rw [size]
  split
  next => exact r.bytes_lt
  next => decide

/-- The number of the mapping of a resource at a position. -/
def group (r : SimResource) (index : Nat) : Nat := r.overlapGroup.getD (SimScenario.asU32 index)

end SimResource

namespace SimScenario

open SimResource ResourceInventory

/-! ## The loop over the resources -/

/-- The offset that a round reads. -/
def InputScan.offset (scan : InputScan) (r : SimResource) (index : Nat) : Nat :=
  if r.overlapGroup.isSome then 0 else scan.offsets[r.group index]?.getD 0

/-- The addition for the end of the page range has a result. -/
def PageFits (offset size : Nat) : Prop := size ≠ 0 → offset + size + pageSize < u64Bound

def mappingAt (r : SimResource) (index offset : Nat) : TensorMappingInfo where
  name := r.name
  fileBacked := r.fileBacked
  mappingIndex := if r.fileBacked then some (r.group index) else none
  mappingSize := max (saturatingAdd offset r.size) 1
  offset := offset
  size := r.size
  pageSize := pageSize
  pageStart := pageFloor offset
  pageEnd := if r.size = 0 then pageFloor offset else pageFloor (offset + r.size + pageSize - 1)
  mappingId := none
  mappingGeneration := none
  filePath := none
  fileSize := none

def InputScan.advance (scan : InputScan) (entry : SimResource × Nat) : InputScan where
  mappings := scan.mappings ++ [mappingAt entry.1 entry.2 (scan.offset entry.1 entry.2)]
  offsets :=
    if 0 < entry.1.size ∧ entry.1.overlapGroup.isNone then
      scan.offsets.insert (entry.1.group entry.2)
        (saturatingAdd (scan.offset entry.1 entry.2) (max entry.1.size 1))
    else scan.offsets

variable {build : Build} {scan : InputScan} {r r' : SimResource} {index offset size : Nat}

theorem pageCeil_of_fits (h : offset + size + pageSize < u64Bound) :
    pageCeil build offset size = some (pageFloor (offset + size + pageSize - 1)) := by
  have hle : 1 ≤ offset + size + pageSize := by
    rw [pageSize]
    omega
  simp only [pageCeil, Build.add_of_lt (show offset + size < u64Bound by omega),
    Build.add_of_lt h, Build.sub_of_le hle, Option.bind_eq_bind, Option.bind_some]
  rfl

theorem pageCeil_debug (h : ¬offset + size + pageSize < u64Bound) :
    pageCeil .debug offset size = none := by
  rw [pageCeil, Build.debug_add, Option.bind_eq_bind]
  cases hfirst : checkedAdd offset size with
  | none => rfl
  | some stop =>
    obtain ⟨-, rfl⟩ := checkedAdd_eq_some.mp hfirst
    rw [Option.bind_some, Build.debug_add, checkedAdd_eq_none.mpr (Nat.not_lt.mp h)]
    rfl

theorem scanResource_of_fits (h : PageFits (scan.offset r index) r.size) :
    scanResource build scan (r, index) = .ok (scan.advance (r, index)) := by
  have hsize : r.size = if r.knownSize then r.bytes else 0 := rfl
  have hoffset : scan.offset r index = if r.overlapGroup.isSome then 0
    else scan.offsets[r.overlapGroup.getD (asU32 index)]?.getD 0 := rfl
  simp only [scanResource, ← hsize, ← hoffset]
  by_cases hzero : r.size = 0
  · simp only [hzero, if_true, pure_eq, ok_bind]
    simp only [InputScan.advance, mappingAt, hzero, if_true]
    rfl
  · rw [if_neg hzero, pageCeil_of_fits (h hzero), expect_some, ok_bind]
    simp only [InputScan.advance, mappingAt, hzero, if_false]
    rfl

theorem scanResource_debug (h : ¬PageFits (scan.offset r index) r.size) :
    scanResource .debug scan (r, index) = .panic Build.addOverflow := by
  have hsize : r.size = if r.knownSize then r.bytes else 0 := rfl
  have hoffset : scan.offset r index = if r.overlapGroup.isSome then 0
    else scan.offsets[r.overlapGroup.getD (asU32 index)]?.getD 0 := rfl
  obtain ⟨hzero, hover⟩ := Classical.not_imp.mp h
  simp only [scanResource, ← hsize, ← hoffset]
  rw [if_neg hzero, pageCeil_debug hover]
  rfl

/-! ## What the loop has read -/

variable {done rest : List (SimResource × Nat)} {scan' : InputScan}

/-- What the resources done leave at a number of the map of offsets. -/
def endOf (done : List (SimResource × Nat)) (key : Nat) : Nat :=
  ((done.filter fun e => e.1.overlapGroup.isNone && asU32 e.2 = key).map fun e => e.1.size).sum

/-- The offset of a resource after those done. -/
def startOf (done : List (SimResource × Nat)) (r : SimResource) (index : Nat) : Nat :=
  if r.overlapGroup.isSome then 0 else endOf done (asU32 index)

/-- The mappings of the resources done, each at the end of those before it. -/
structure Scanned (done : List (SimResource × Nat)) (scan : InputScan) : Prop where
  offsets : ∀ key, scan.offsets[key]?.getD 0 = endOf done key
  length : scan.mappings.length = done.length
  mappings : ∀ (i : Nat) (e : SimResource × Nat), done[i]? = some e →
    scan.mappings[i]? = some (mappingAt e.1 e.2 (startOf (done.take i) e.1 e.2))
  lt : ∀ mapping ∈ scan.mappings, mapping.offset + mapping.size < u64Bound
  endOf_lt : ∀ key, endOf done key < u64Bound

theorem scanned_start : Scanned [] { mappings := [], offsets := ∅ } where
  offsets key := by simp [endOf]
  length := rfl
  lt mapping h := absurd h List.not_mem_nil
  endOf_lt key := by
    show 0 < u64Bound
    decide
  mappings i e h := by simp at h

theorem endOf_concat (e : SimResource × Nat) (key : Nat) :
    endOf (done ++ [e]) key =
      endOf done key + if e.1.overlapGroup.isNone && asU32 e.2 = key then e.1.size else 0 := by
  rw [endOf, List.filter_append, List.map_append, List.sum_append, ← endOf, List.filter_singleton]
  cases e.1.overlapGroup.isNone && decide (asU32 e.2 = key) with
  | true => rw [cond_true, if_pos rfl, List.map_singleton, List.sum_singleton]
  | false => rfl

namespace Scanned

theorem offset_eq (h : Scanned done scan) (r : SimResource) (index : Nat) :
    scan.offset r index = startOf done r index := by
  rw [InputScan.offset, startOf]
  split
  next => rfl
  next hgroup =>
    rw [h.offsets, group, Option.not_isSome_iff_eq_none.mp hgroup]
    rfl

theorem advance (h : Scanned done scan) {e : SimResource × Nat}
    (hfits : PageFits (startOf done e.1 e.2) e.1.size) :
    Scanned (done ++ [e]) (scan.advance e) where
  offsets key := by
    rw [endOf_concat, ← h.offsets]
    by_cases hgroup : e.1.overlapGroup.isNone = true
    · have hkey : e.1.group e.2 = asU32 e.2 := by
        rw [group, Option.isNone_iff_eq_none.mp hgroup]
        rfl
      have hstart : scan.offset e.1 e.2 = scan.offsets[asU32 e.2]?.getD 0 := by
        rw [InputScan.offset, Option.isNone_iff_eq_none.mp hgroup, hkey]
        rfl
      rw [← h.offset_eq, hstart] at hfits
      rw [InputScan.advance, hgroup]
      simp only [hkey, hstart, Bool.true_and, decide_eq_true_eq, and_true]
      split
      next hsize =>
        have hsum : saturatingAdd (scan.offsets[asU32 e.2]?.getD 0) (max e.1.size 1) =
            scan.offsets[asU32 e.2]?.getD 0 + e.1.size := by
          have hlt := hfits (Nat.ne_of_gt hsize)
          rw [Nat.max_eq_left hsize, saturatingAdd_of_lt (by omega)]
        rw [ExtTreeMap.getElem?_insert, hsum]
        by_cases heq : asU32 e.2 = key
        · rw [if_pos (by rw [heq]; exact ReflCmp.compare_self), if_pos heq, heq]
          rfl
        · rw [if_neg (fun hcmp => heq (LawfulEqCmp.eq_of_compare hcmp)), if_neg heq, Nat.add_zero]
      next hsize =>
        have hzero : e.1.size = 0 := by omega
        rw [hzero, ite_self, Nat.add_zero]
    · rw [InputScan.advance, if_neg fun h => hgroup h.2, if_neg (by simp [hgroup]), Nat.add_zero]
  length := by
    rw [InputScan.advance, List.length_append, List.length_append, h.length]
    rfl
  mappings i e' he' := by
    have hlt := (List.getElem?_eq_some_iff.mp he').1
    rw [List.length_append, List.length_singleton] at hlt
    rcases Nat.lt_succ_iff_lt_or_eq.mp hlt with hlt | rfl
    · rw [List.getElem?_append_left hlt] at he'
      rw [InputScan.advance, List.getElem?_append_left (h.length ▸ hlt), h.mappings i e' he',
        List.take_append_of_le_length (Nat.le_of_lt hlt)]
    · rw [List.getElem?_concat_length] at he'
      cases he'
      rw [InputScan.advance, ← h.length, List.getElem?_concat_length, h.length, List.take_left,
        h.offset_eq]
  lt mapping hmapping := by
    rcases List.mem_append.mp hmapping with hold | hnew
    · exact h.lt mapping hold
    · rw [List.mem_singleton.mp hnew, h.offset_eq]
      show startOf done e.1 e.2 + e.1.size < u64Bound
      by_cases hzero : e.1.size = 0
      · rw [hzero, Nat.add_zero, startOf]
        split
        next => decide
        next => exact h.endOf_lt _
      · have hlt := hfits hzero
        omega
  endOf_lt key := by
    rw [endOf_concat]
    split
    next hkey =>
      rw [Bool.and_eq_true, decide_eq_true_eq] at hkey
      by_cases hzero : e.1.size = 0
      · rw [hzero]
        exact h.endOf_lt key
      · have hlt := hfits hzero
        rw [startOf, Option.isNone_iff_eq_none.mp hkey.1, hkey.2] at hlt
        simp only [Option.isSome_none, Bool.false_eq_true, if_false] at hlt
        omega
    next => exact h.endOf_lt key

end Scanned

/-- Each round of the loop has a result. -/
def RoundsFit (done rest : List (SimResource × Nat)) : Prop :=
  ∀ (k : Nat) (e : SimResource × Nat), rest[k]? = some e →
    PageFits (startOf (done ++ rest.take k) e.1 e.2) e.1.size

theorem RoundsFit.tail {e : SimResource × Nat} (h : RoundsFit done (e :: rest)) :
    RoundsFit (done ++ [e]) rest := by
  intro k e' he'
  have hnext := h (k + 1) e' he'
  rwa [List.take_succ_cons, ← List.singleton_append, ← List.append_assoc] at hnext

theorem foldlM_scanResource (build : Build) (hscan : Scanned done scan) (hfits : RoundsFit done rest) :
    ∃ scan', rest.foldlM (scanResource build) scan = .ok scan' ∧ Scanned (done ++ rest) scan' := by
  induction rest generalizing done scan with
  | nil => exact ⟨scan, rfl, (List.append_nil done).symm ▸ hscan⟩
  | cons e rest ih =>
    have hfirst := hfits 0 e rfl
    rw [List.take_zero, List.append_nil] at hfirst
    obtain ⟨scan', hrest, hscan'⟩ := ih (hscan.advance hfirst) hfits.tail
    refine ⟨scan', ?_, ?_⟩
    · rw [List.foldlM_cons, scanResource_of_fits (hscan.offset_eq e.1 e.2 ▸ hfirst), ok_bind]
      exact hrest
    · rwa [List.append_assoc, List.singleton_append] at hscan'

theorem foldlM_scanResource_debug (hscan : Scanned done scan) (hover : ¬RoundsFit done rest) :
    rest.foldlM (scanResource .debug) scan = .panic Build.addOverflow := by
  induction rest generalizing done scan with
  | nil => exact absurd (fun k e h => by simp at h) hover
  | cons e rest ih =>
    rw [List.foldlM_cons]
    by_cases hfirst : PageFits (startOf done e.1 e.2) e.1.size
    · rw [scanResource_of_fits (hscan.offset_eq e.1 e.2 ▸ hfirst), ok_bind]
      refine ih (hscan.advance hfirst) fun hrest => hover fun k e' he' => ?_
      cases k with
      | zero =>
        cases he'
        rw [List.take_zero, List.append_nil]
        exact hfirst
      | succ k =>
        have hnext := hrest k e' he'
        rwa [List.append_assoc, List.singleton_append, ← List.take_succ_cons] at hnext
    · rw [scanResource_debug (hscan.offset_eq e.1 e.2 ▸ hfirst)]
      rfl

/-! ## The mappings of a scenario -/

variable {scenario : SimScenario} {mapping : TensorMappingInfo}

theorem pageFloor_mod (value : Nat) : pageFloor value % pageSize = 0 := by
  rw [pageFloor]
  exact Nat.sub_mod_eq_zero_of_mod_eq (Nat.mod_mod _ _).symm

theorem pageFloor_zero : pageFloor 0 = 0 := rfl

theorem admitted_mappingAt (hlt : offset + r.size < u64Bound) {position : Nat}
    (hposition : position ≤ i32Max) : (mappingAt r index offset).Admitted position where
  position_le := hposition
  pageSize _ := by
    show SimScenario.pageSize ≠ 0
    decide
  aligned _ := pageFloor_mod offset
  range _ := by
    show ¬(checkedAdd offset r.size).all (max (saturatingAdd offset r.size) 1 < ·) = true
    rw [checkedAdd_of_lt hlt, Option.all_some, saturatingAdd_of_lt hlt, decide_eq_true_eq]
    omega

theorem taken_eq_take {mappings : List TensorMappingInfo} {position : Nat}
    (h : ∀ mapping ∈ mappings, ∀ position ≤ i32Max, mapping.Admitted position) :
    taken position mappings = mappings.take (i32Max + 1 - position) := by
  induction mappings generalizing position with
  | nil => rw [taken, List.take_nil]
  | cons mapping rest ih =>
    rw [taken]
    split
    next hadmitted =>
      have hle := hadmitted.position_le
      have hcount : i32Max + 1 - position = i32Max + 1 - (position + 1) + 1 := by omega
      rw [hcount, List.take_succ_cons, ih fun m hm => h m (List.mem_cons_of_mem _ hm)]
    next hnot =>
      have hlt : ¬position ≤ i32Max := fun hle => hnot (h mapping List.mem_cons_self position hle)
      rw [show i32Max + 1 - position = 0 by omega, List.take_zero]

section scanned

variable (hscan : Scanned scenario.resources.zipIdx scan)

include hscan

theorem getElem?_mappings {i : Nat} (hr : scenario.resources[i]? = some r) :
    scan.mappings[i]? =
      some (mappingAt r i (startOf (scenario.resources.zipIdx.take i) r i)) := by
  refine hscan.mappings i (r, i) ?_
  rw [List.getElem?_zipIdx, hr, Option.map_some, Nat.zero_add]

theorem length_mappings : scan.mappings.length = scenario.resources.length := by
  rw [hscan.length, List.length_zipIdx]

theorem exists_mappingAt (hmapping : mapping ∈ scan.mappings) : ∃ (i : Nat) (r : SimResource),
    scenario.resources[i]? = some r ∧
      mapping = mappingAt r i (startOf (scenario.resources.zipIdx.take i) r i) := by
  obtain ⟨i, hi, rfl⟩ := List.getElem_of_mem hmapping
  have hlt : i < scenario.resources.length := length_mappings hscan ▸ hi
  have hr := List.getElem?_eq_getElem hlt
  refine ⟨i, _, hr, ?_⟩
  have hget := getElem?_mappings hscan hr
  rw [List.getElem?_eq_getElem hi] at hget
  exact Option.some.inj hget

theorem taken_mappings : taken 0 scan.mappings = scan.mappings.take (i32Max + 1) := by
  refine taken_eq_take fun mapping hmapping position hposition => ?_
  have hlt := hscan.lt mapping hmapping
  obtain ⟨i, r, -, rfl⟩ := exists_mappingAt hscan hmapping
  exact admitted_mappingAt hlt hposition

omit hscan in
/-- No two of the positions of an inventory have the same `u32`. -/
theorem startOf_eq_zero {i : Nat} (hi : i ≤ i32Max) (r : SimResource) :
    startOf (scenario.resources.zipIdx.take i) r i = 0 := by
  rw [startOf]
  split
  next => rfl
  next =>
    rw [endOf, List.filter_eq_nil_iff.mpr]
    · rfl
    · rintro ⟨r', j⟩ hmem hkey
      obtain ⟨k, hk, hget⟩ := List.getElem_of_mem hmem
      rw [List.length_take] at hk
      rw [List.getElem_take, List.getElem_zipIdx, Prod.mk.injEq] at hget
      have hj : j < i := by omega
      rw [Bool.and_eq_true, decide_eq_true_eq, asU32, asU32, i32Max] at *
      omega

omit hscan in
theorem first_mappingAt (r : SimResource) (index : Nat) : (mappingAt r index 0).first = 0 :=
  Nat.min_eq_left (Nat.zero_le _)

omit hscan in
/-- The page range of a resource is cut at the end of its mapping, which is its size. -/
theorem last_mappingAt (r : SimResource) (index : Nat) : (mappingAt r index 0).last = r.size := by
  have hlt := r.size_lt
  show min (if r.size = 0 then pageFloor 0 else pageFloor (0 + r.size + pageSize - 1))
    (max (saturatingAdd 0 r.size) 1) = r.size
  rw [saturatingAdd]
  split
  next hzero => rw [hzero, pageFloor_zero, Nat.zero_min]
  next hne =>
    rw [pageFloor, pageSize]
    omega

/-- The part of a mapping that a sum adds up, over the mappings of an inventory. -/
theorem map_take_mappings {part : TensorMappingInfo → Nat} {part' : SimResource → Nat}
    (hpart : ∀ r index, part (mappingAt r index 0) = part' r) :
    (scan.mappings.take (i32Max + 1)).map part =
      (scenario.resources.take (i32Max + 1)).map part' := by
  refine List.ext_getElem? fun i => ?_
  rw [List.getElem?_map, List.getElem?_map, List.getElem?_take, List.getElem?_take]
  split
  next hi =>
    cases hr : scenario.resources[i]? with
    | none =>
      have hge := List.getElem?_eq_none_iff.mp hr
      rw [List.getElem?_eq_none (length_mappings hscan ▸ hge)]
      rfl
    | some r =>
      rw [getElem?_mappings hscan hr, startOf_eq_zero (Nat.lt_succ_iff.mp hi)]
      exact congrArg some (hpart r i)
  next => rfl

omit hscan in
theorem fileBytes_mappingAt (r : SimResource) (index : Nat) :
    (mappingAt r index 0).fileBytes = if r.fileBacked then r.size else 0 := rfl

omit hscan in
theorem anonymousBytes_mappingAt (r : SimResource) (index : Nat) :
    (mappingAt r index 0).anonymousBytes = if r.fileBacked then 0 else r.size := rfl

omit hscan in
theorem pageBytes_mappingAt (r : SimResource) (index : Nat) :
    (mappingAt r index 0).pageBytes = if r.fileBacked then r.size else 0 := by
  rw [TensorMappingInfo.pageBytes, first_mappingAt, last_mappingAt]
  rfl

omit hscan in
theorem filePages_mappingAt (r : SimResource) (index : Nat) :
    (mappingAt r index 0).filePages =
      if r.fileBacked then cell (some (r.group index)) 0 r.size else ∅ := by
  rw [TensorMappingInfo.filePages, first_mappingAt, last_mappingAt]
  show (if r.fileBacked then
    cell (if r.fileBacked then some (r.group index) else none) 0 r.size else ∅) = _
  split
  next => rfl
  next => rfl

end scanned

/-- What a range that begins at zero shares begins at zero too. -/
theorem runsFit_shared {ι : Type} [Fintype ι] [DecidableEq ι]
    {family : ι → Finset (Option Nat × Nat)} (stop : ι → Nat)
    (hfamily : ∀ i, family i = ∅ ∨ ∃ n, family i = cell n 0 (stop i)) (i : ι)
    (hstop : stop i < u64Bound) : RunsFit (shared family i) := by
  have hdown : ∀ j m b, (m, b + 1) ∈ family j → (m, b) ∈ family j := by
    intro j m b hmem
    rcases hfamily j with hnone | ⟨n, hcell⟩
    · rw [hnone] at hmem
      exact absurd hmem (Finset.notMem_empty _)
    · rw [hcell, mem_cell] at hmem ⊢
      exact ⟨hmem.1, Nat.zero_le _, by omega⟩
  have hcard : (shared family i).card ≤ stop i := by
    refine Nat.le_trans card_shared_le ?_
    rcases hfamily i with hnone | ⟨n, hcell⟩
    · rw [hnone]
      exact Nat.zero_le _
    · rw [hcell, card_cell]
      exact Nat.sub_le _ _
  rintro ⟨m, b⟩ hkey hfirst
  cases b with
  | zero => exact Nat.lt_of_le_of_lt hcard hstop
  | succ b =>
    obtain ⟨hmem, j, hne, hj⟩ := mem_shared.mp hkey
    exact absurd (mem_shared.mpr ⟨hdown i m b hmem, j, hne, hdown j m b hj⟩) (hfirst b rfl)

section adds

variable (hscan : Scanned scenario.resources.zipIdx scan)

def fileBytes (scenario : SimScenario) : Nat :=
  ((scenario.resources.take (i32Max + 1)).map fun r => if r.fileBacked then r.size else 0).sum

def anonymousBytes (scenario : SimScenario) : Nat :=
  ((scenario.resources.take (i32Max + 1)).map fun r => if r.fileBacked then 0 else r.size).sum

include hscan

/-- An inventory adds up where the sizes of its two kinds of resources do. -/
theorem adds_iff : Adds scan.mappings ↔
    scenario.fileBytes < u64Bound ∧ scenario.anonymousBytes < u64Bound := by
  have hfile : ((taken 0 scan.mappings).map TensorMappingInfo.fileBytes).sum =
      scenario.fileBytes := by
    rw [taken_mappings hscan, map_take_mappings hscan fileBytes_mappingAt, fileBytes]
  have hanonymous : ((taken 0 scan.mappings).map TensorMappingInfo.anonymousBytes).sum =
      scenario.anonymousBytes := by
    rw [taken_mappings hscan, map_take_mappings hscan anonymousBytes_mappingAt, anonymousBytes]
  have hpages : ((taken 0 scan.mappings).map TensorMappingInfo.pageBytes).sum =
      scenario.fileBytes := by
    rw [taken_mappings hscan, map_take_mappings hscan pageBytes_mappingAt, fileBytes]
  constructor
  · exact fun h => ⟨hfile ▸ h.fileBytes, hanonymous ▸ h.anonymousBytes⟩
  · rintro ⟨hfileLt, hanonymousLt⟩
    have hat : taken 0 scan.mappings = scan.mappings → ∀ i : Fin scan.mappings.length,
        ∃ r index, scan.mappings.get i = mappingAt r index 0 := by
      intro htaken i
      obtain ⟨index, r, hr, hmapping⟩ := exists_mappingAt hscan (List.get_mem scan.mappings i)
      have hlength := congrArg List.length htaken
      rw [taken_mappings hscan, List.length_take, length_mappings hscan] at hlength
      have hindex := (List.getElem?_eq_some_iff.mp hr).1
      refine ⟨r, index, ?_⟩
      rw [hmapping, startOf_eq_zero (by omega)]
    refine
      { ordered := fun mapping hmapping _ => ?_
        fileBytes := hfile ▸ hfileLt
        anonymousBytes := hanonymous ▸ hanonymousLt
        pageBytes := hpages ▸ hfileLt
        runs := fun htaken i => ?_
        sharedBytes := fun htaken => ?_ }
    · rw [taken_mappings hscan] at hmapping
      obtain ⟨i, hi, rfl⟩ := List.getElem_of_mem hmapping
      rw [List.length_take, length_mappings hscan] at hi
      rw [List.getElem_take]
      have hr := List.getElem?_eq_getElem (l := scenario.resources) (i := i) (by omega)
      have hget := getElem?_mappings hscan hr
      rw [startOf_eq_zero (by omega), List.getElem?_eq_getElem (by
        rw [length_mappings hscan]
        omega)] at hget
      rw [Option.some.inj hget, first_mappingAt]
      exact Nat.zero_le _
    · refine runsFit_shared (fun i => (scan.mappings.get i).last) (fun i => ?_) i ?_
      · obtain ⟨r, index, hget⟩ := hat htaken i
        rw [mappingPages, hget, filePages_mappingAt, last_mappingAt]
        split
        next => exact .inr ⟨_, rfl⟩
        next => exact .inl rfl
      · obtain ⟨r, index, hget⟩ := hat htaken i
        rw [hget, last_mappingAt]
        exact r.size_lt
    · have hsum : ∑ i, (mappingPages scan.mappings i).card =
          (scan.mappings.map TensorMappingInfo.pageBytes).sum := by
        rw [← Fin.sum_univ_fun_getElem]
        refine Finset.sum_congr rfl fun i _ => ?_
        rw [mappingPages, TensorMappingInfo.filePages, TensorMappingInfo.pageBytes]
        split
        next hbacked =>
          rw [card_cell]
          exact (if_pos hbacked).symm
        next hbacked => exact (if_neg hbacked).symm
      refine Nat.lt_of_le_of_lt (Finset.sum_le_sum fun i _ => card_shared_le) ?_
      rw [hsum, ← htaken, hpages]
      exact hfileLt

end adds

/-! ## The inventory of a scenario -/

/-- The additions for a scenario all have a result. -/
structure AddsUp (scenario : SimScenario) : Prop where
  rounds : ∀ (i : Nat) (r : SimResource), scenario.resources[i]? = some r →
    PageFits (startOf (scenario.resources.zipIdx.take i) r i) r.size
  file : scenario.fileBytes < u64Bound
  anonymous : scenario.anonymousBytes < u64Bound

theorem roundsFit_iff : RoundsFit [] scenario.resources.zipIdx ↔
    ∀ (i : Nat) (r : SimResource), scenario.resources[i]? = some r →
      PageFits (startOf (scenario.resources.zipIdx.take i) r i) r.size := by
  constructor
  · intro h i r hr
    refine h i (r, i) ?_
    rw [List.getElem?_zipIdx, hr, Option.map_some, Nat.zero_add]
  · intro h i e he
    rw [List.getElem?_zipIdx, Nat.zero_add] at he
    obtain ⟨r, hr, rfl⟩ := Option.map_eq_some_iff.mp he
    exact h i r hr

theorem exists_scan (build : Build) (h : RoundsFit [] scenario.resources.zipIdx) :
    ∃ scan, Scanned scenario.resources.zipIdx scan ∧
      scenarioInputs build scenario =
        (Outcome.mapErr InventoryError.display
          (fromTensorMappings build ⟨scenario.name⟩ ⟨1⟩ scan.mappings ()).1).map fun inventory =>
            (inventory,
              { ExecutionProfile.new ⟨scenario.name⟩ ⟨1⟩ with
                completeObservations := 1
                access := scenario.trainingSequence.zipIdx.foldl countAccess ∅ }) := by
  obtain ⟨scan, hfold, hscan⟩ := foldlM_scanResource build scanned_start h
  refine ⟨scan, hscan, ?_⟩
  rw [scenarioInputs, hfold, ok_bind]
  cases (fromTensorMappings build ⟨scenario.name⟩ ⟨1⟩ scan.mappings ()).1 with
  | ok inventory => rfl
  | err e => rfl
  | panic p => rfl

/-- The inputs of a scenario are built without an overflow exactly where everything adds up. -/
theorem not_isPanic_iff_addsUp : ¬(scenarioInputs .debug scenario).IsPanic ↔ AddsUp scenario := by
  by_cases hrounds : RoundsFit [] scenario.resources.zipIdx
  · obtain ⟨scan, hscan, hinputs⟩ := exists_scan .debug hrounds
    have hadds : ¬(fromTensorMappings .debug ⟨scenario.name⟩ ⟨1⟩ scan.mappings ()).1.IsPanic ↔
        scenario.fileBytes < u64Bound ∧ scenario.anonymousBytes < u64Bound := by
      rw [ResourceInventory.not_isPanic_iff, ← adds_iff hscan]
      exact ⟨Adds.of_computes, fun h => h.computes _ _⟩
    have hpanic : (scenarioInputs .debug scenario).IsPanic ↔
        (fromTensorMappings .debug ⟨scenario.name⟩ ⟨1⟩ scan.mappings ()).1.IsPanic := by
      rw [hinputs]
      cases (fromTensorMappings .debug ⟨scenario.name⟩ ⟨1⟩ scan.mappings ()).1 with
      | ok inventory => exact Iff.rfl
      | err e => exact Iff.rfl
      | panic p => exact Iff.rfl
    rw [hpanic, hadds]
    exact ⟨fun h => ⟨roundsFit_iff.mp hrounds, h.1, h.2⟩, fun h => ⟨h.file, h.anonymous⟩⟩
  · have hpanic : scenarioInputs .debug scenario = .panic Build.addOverflow := by
      rw [scenarioInputs, foldlM_scanResource_debug scanned_start hrounds]
      rfl
    rw [hpanic]
    exact ⟨fun h => absurd trivial h, fun h => absurd (roundsFit_iff.mpr h.rounds) hrounds⟩

/-- What the inventory says of the resource at a position. -/
structure Listed (r : SimResource) (index : Nat) (resource : TensorResource) : Prop where
  name : resource.name = r.name
  fileBacked : resource.fileBacked = r.fileBacked
  mappingIndex : resource.mappingIndex = if r.fileBacked then some (r.group index) else none
  pageSize : resource.pageSize = pageSize
  pageStart : resource.pageStart = 0
  pageEnd : resource.pageEnd = if r.fileBacked then r.size else 0

/-- The parts of a resource and of a mapping that `Listed` is about. -/
def outline (resource : TensorResource) : String × Bool × Option Nat × Nat × Nat × Nat :=
  (resource.name, resource.fileBacked, resource.mappingIndex, resource.pageSize, resource.pageStart,
    resource.pageEnd)

def outlineOf (mapping : TensorMappingInfo) : String × Bool × Option Nat × Nat × Nat × Nat :=
  (mapping.name, mapping.fileBacked, mapping.mappingIndex, mapping.pageSize,
    if mapping.fileBacked then mapping.first else 0,
    if mapping.fileBacked then mapping.last else 0)

theorem outline_scanned (generation : ModelGeneration) (position : Nat)
    (mapping : TensorMappingInfo) :
    outline (scanned generation position mapping) = outlineOf mapping := by
  rw [scanned]
  split
  next hbacked => simp [outline, outlineOf, resourceOf, hbacked]
  next hbacked => simp [outline, outlineOf, resourceOf, hbacked]

variable {inventory : ResourceInventory} {profile : ExecutionProfile}

theorem listed_of_ok (h : scenarioInputs .debug scenario = .ok (inventory, profile)) :
    AddsUp scenario ∧ scenario.resources.length ≤ i32Max + 1 ∧
      List.Forall₂ (fun e resource => Listed e.1 e.2 resource) scenario.resources.zipIdx
        inventory.resources := by
  have hadds : AddsUp scenario := not_isPanic_iff_addsUp.mp (by rw [h]; exact id)
  obtain ⟨scan, hscan, hinputs⟩ := exists_scan .debug (roundsFit_iff.mpr hadds.rounds)
  rw [hinputs] at h
  obtain ⟨inventory', hinventory, hpair⟩ := of_map_ok h
  obtain rfl : inventory = inventory' := (congrArg Prod.fst hpair).symm
  have hok := of_mapErr_ok hinventory
  have htaken := (fromTensorMappings_ok (Prod.ext hok rfl)).1
  have hlength := congrArg List.length htaken
  rw [taken_mappings hscan, List.length_take, length_mappings hscan] at hlength
  refine ⟨hadds, by omega, ?_⟩
  have houtlines : inventory.resources.map outline = scan.mappings.map outlineOf :=
    map_resources (outline_scanned _) (fun _ _ => rfl) hok
  have hcount : inventory.resources.length = scenario.resources.length := by
    rw [← List.length_map (f := outline), houtlines, List.length_map, length_mappings hscan]
  refine List.forall₂_iff_get.mpr ⟨by rw [List.length_zipIdx, hcount], fun i hi hi' => ?_⟩
  rw [List.length_zipIdx] at hi
  have hget := getElem?_mappings hscan (List.getElem?_eq_getElem hi)
  rw [startOf_eq_zero (by omega)] at hget
  have hsame : outline inventory.resources[i] = outlineOf (mappingAt scenario.resources[i] i 0) := by
    have hentry := congrArg (fun entries => entries[i]?) houtlines
    simp only [List.getElem?_map, hget, List.getElem?_eq_getElem hi', Option.map_some] at hentry
    exact Option.some.inj hentry
  simp only [outline, outlineOf, first_mappingAt, last_mappingAt, Prod.mk.injEq] at hsame
  obtain ⟨hname, hbacked, hindex, hsize, hstart, hend⟩ := hsame
  simp only [List.get_eq_getElem, List.getElem_zipIdx, Nat.zero_add]
  refine ⟨hname, hbacked, hindex, hsize, hstart.trans ?_, hend⟩
  exact ite_self 0

theorem listed_at (hlisted : List.Forall₂ (fun e resource => Listed e.1 e.2 resource)
      scenario.resources.zipIdx inventory.resources) {i : Nat}
    (hr : scenario.resources[i]? = some r) :
    ∃ resource, inventory.resources[i]? = some resource ∧ Listed r i resource := by
  obtain ⟨hcount, hat⟩ := List.forall₂_iff_get.mp hlisted
  obtain ⟨hi, rfl⟩ := List.getElem?_eq_some_iff.mp hr
  have hi' : i < scenario.resources.zipIdx.length := by
    rw [List.length_zipIdx]
    exact hi
  have hentry := hat i hi' (hcount ▸ hi')
  rw [List.get_eq_getElem, List.getElem_zipIdx, Nat.zero_add] at hentry
  exact ⟨_, List.getElem?_eq_getElem (hcount ▸ hi'), hentry⟩

/-- A scenario whose inputs are built. -/
structure Accepted (scenario : SimScenario) : Prop where
  addsUp : AddsUp scenario
  nonempty : scenario.resources ≠ []
  length : scenario.resources.length ≤ i32Max + 1

theorem accepted_iff : Accepted scenario ↔ ∃ inputs, scenarioInputs .debug scenario = .ok inputs := by
  constructor
  · intro h
    obtain ⟨scan, hscan, hinputs⟩ := exists_scan .debug (roundsFit_iff.mpr h.addsUp.rounds)
    have hcomputes := ((adds_iff hscan).mpr ⟨h.addsUp.file, h.addsUp.anonymous⟩).computes .debug ⟨1⟩
    have hlength := length_mappings hscan
    have hnil : scan.mappings ≠ [] := fun hnil =>
      h.nonempty (List.length_eq_zero_iff.mp (by rw [← hlength, hnil]; rfl))
    have htaken : taken 0 scan.mappings = scan.mappings := by
      rw [taken_mappings hscan, List.take_of_length_le (hlength ▸ h.length)]
    obtain ⟨inventory, hok⟩ : ∃ inventory,
        (fromTensorMappings .debug ⟨scenario.name⟩ ⟨1⟩ scan.mappings ()).1 = .ok inventory :=
      exists_ok_of_computes hnil htaken hcomputes
    rw [hinputs, hok]
    exact ⟨_, rfl⟩
  · rintro ⟨⟨inventory, profile⟩, h⟩
    obtain ⟨hadds, hlength, hlisted⟩ := listed_of_ok h
    refine ⟨hadds, fun hnil => ?_, hlength⟩
    rw [scenarioInputs, hnil] at h
    cases h

/-! ## Sharing -/

/-- Two distinct resources that are file-backed and of known nonzero size share bytes of a
mapping exactly where they are of one group. -/
def SharesByGroup (scenario : SimScenario) (inventory : ResourceInventory) : Prop :=
  ∀ (i j : Nat) (r r' : SimResource) (resource resource' : TensorResource), i ≠ j →
    scenario.resources[i]? = some r → scenario.resources[j]? = some r' →
    inventory.resources[i]? = some resource → inventory.resources[j]? = some resource' →
    r.fileBacked ∧ r.knownSize ∧ r.bytes ≠ 0 → r'.fileBacked ∧ r'.knownSize ∧ r'.bytes ≠ 0 →
    (resource.mappingIndex = resource'.mappingIndex ∧
        max resource.pageStart resource'.pageStart < min resource.pageEnd resource'.pageEnd ↔
      ∃ g, r.overlapGroup = some g ∧ r'.overlapGroup = some g)

/-- The pages that the range of a resource touches. -/
def pagesOf (resource : TensorResource) : Finset (Option Nat × Nat) :=
  if resource.fileBacked then
    cell resource.mappingIndex (resource.pageStart / resource.pageSize)
      ((resource.pageEnd + resource.pageSize - 1) / resource.pageSize)
  else ∅

def inventoryPages (inventory : ResourceInventory) (selected : Names) :
    Finset (Option Nat × Nat) :=
  (inventory.resources.filter fun resource => selected.contains resource.name).foldr
    (fun resource pages => pagesOf resource ∪ pages) ∅

/-- Sharing follows the groups, in the inventory and in the observation, and no addition
overflows for sizes within the budget. -/
structure FollowsGroups (scenario : SimScenario) : Prop where
  total : (∀ r ∈ scenario.resources, r.bytes ≤ scenario.budgetBytes) →
    ¬(scenarioInputs .debug scenario).IsPanic
  sharing : ∀ inventory profile, scenarioInputs .debug scenario = .ok (inventory, profile) →
    SharesByGroup scenario inventory
  pages : ∀ inventory profile, scenarioInputs .debug scenario = .ok (inventory, profile) →
    ∀ selected, (observationPages scenario selected).1 = (inventoryPages inventory selected).card

/-- The group of a resource meets the number of no resource without a group, in neither of the
two ways that those are numbered; and what has bytes has pages. -/
structure NumbersApart (scenario : SimScenario) : Prop where
  pages : ∀ r ∈ scenario.resources, r.bytes ≠ 0 → r.fileBacked = true ∧ r.knownSize = true
  groups : ∀ (i j : Nat) (r r' : SimResource) (g : Nat),
    scenario.resources[i]? = some r → scenario.resources[j]? = some r' →
    r.overlapGroup = some g → r'.overlapGroup = none → r.bytes ≠ 0 → r'.bytes ≠ 0 →
    g ≠ j ∧ g ≠ 1000000 + j

theorem group_of_some {g : Nat} (h : r.overlapGroup = some g) : r.group index = g := by
  rw [group, h]
  rfl

theorem group_of_none (h : r.overlapGroup = none) (hindex : index ≤ i32Max) :
    r.group index = index := by
  rw [group, h]
  show index % 2 ^ 32 = index
  rw [i32Max] at hindex
  omega

theorem pageGroup_of_some {g : Nat} (h : r.overlapGroup = some g) : pageGroup r index = g := by
  rw [pageGroup, h]
  rfl

theorem pageGroup_of_none (h : r.overlapGroup = none) (hindex : index ≤ i32Max) :
    pageGroup r index = 1000000 + index := by
  rw [pageGroup, h]
  show 1000000 + index % 2 ^ 32 = 1000000 + index
  rw [i32Max] at hindex
  omega

theorem Listed.shares_iff {resource resource' : TensorResource} {i j : Nat}
    (h : Listed r i resource) (h' : Listed r' j resource')
    (hr : r.fileBacked ∧ r.knownSize ∧ r.bytes ≠ 0)
    (hr' : r'.fileBacked ∧ r'.knownSize ∧ r'.bytes ≠ 0) :
    (resource.mappingIndex = resource'.mappingIndex ∧
        max resource.pageStart resource'.pageStart < min resource.pageEnd resource'.pageEnd) ↔
      r.group i = r'.group j := by
  have hsize : r.size = r.bytes := if_pos hr.2.1
  have hsize' : r'.size = r'.bytes := if_pos hr'.2.1
  rw [h.mappingIndex, h'.mappingIndex, h.pageStart, h'.pageStart, h.pageEnd, h'.pageEnd,
    if_pos hr.1, if_pos hr'.1, if_pos hr.1, if_pos hr'.1, hsize, hsize', Option.some.injEq]
  refine and_iff_left ?_
  have hne := hr.2.2
  have hne' := hr'.2.2
  omega

/-- The numbers of two resources agree exactly where their groups do, unless a group meets a
position. -/
theorem group_eq_iff {i j : Nat} (hi : i ≤ i32Max) (hj : j ≤ i32Max) (hne : i ≠ j)
    (hij : ∀ g, r.overlapGroup = some g → r'.overlapGroup = none → g ≠ j)
    (hji : ∀ g, r'.overlapGroup = some g → r.overlapGroup = none → g ≠ i) :
    r.group i = r'.group j ↔ ∃ g, r.overlapGroup = some g ∧ r'.overlapGroup = some g := by
  cases hgroup : r.overlapGroup with
  | none =>
    rw [group_of_none hgroup hi]
    cases hgroup' : r'.overlapGroup with
    | none =>
      rw [group_of_none hgroup' hj]
      exact ⟨fun h => absurd h hne, fun ⟨g, h, _⟩ => by cases h⟩
    | some g' =>
      rw [group_of_some hgroup']
      exact ⟨fun h => absurd h.symm (hji g' hgroup' hgroup), fun ⟨g, h, _⟩ => by cases h⟩
  | some g =>
    rw [group_of_some hgroup]
    cases hgroup' : r'.overlapGroup with
    | none =>
      rw [group_of_none hgroup' hj]
      exact ⟨fun h => absurd h (hij g hgroup hgroup'), fun ⟨_, _, h⟩ => by cases h⟩
    | some g' =>
      rw [group_of_some hgroup']
      constructor
      · rintro rfl
        exact ⟨g, rfl, rfl⟩
      · rintro ⟨n, hn, hn'⟩
        exact (Option.some.inj hn).trans (Option.some.inj hn').symm

/-! ## The pages counted -/

variable {selected : Names}

/-- The selected resources, with their positions. -/
def chosen (scenario : SimScenario) (selected : Names) : Finset (SimResource × Nat) :=
  (scenario.resources.zipIdx.filter fun e => selected.contains e.1.name).toFinset

theorem mem_chosen {e : SimResource × Nat} : e ∈ chosen scenario selected ↔
    scenario.resources[e.2]? = some e.1 ∧ e.1.name ∈ selected := by
  rw [chosen, List.mem_toFinset, List.mem_filter, List.mem_zipIdx_iff_getElem?]
  exact Iff.rfl

theorem mem_foldl_observe (entries : List (SimResource × Nat)) (sets : PageSets) (x : Nat × Nat) :
    x ∈ (entries.foldl (PageSets.observe selected) sets).targeted ↔
      x ∈ sets.targeted ∨
        ∃ e ∈ entries, selected.contains e.1.name = true ∧ x ∈ resourcePages e.1 e.2 := by
  induction entries generalizing sets with
  | nil => simp
  | cons e rest ih =>
    rw [List.foldl_cons, ih, PageSets.observe]
    cases hselected : selected.contains e.1.name with
    | true =>
      simp only [List.mem_cons, exists_eq_or_imp, hselected, true_and, if_true, Finset.mem_union,
        or_assoc]
    | false =>
      simp only [List.mem_cons, exists_eq_or_imp, hselected, Bool.false_eq_true, false_and, false_or,
        if_false]

theorem targeted_eq_segments (scenario : SimScenario) (selected : Names) :
    (observedPages scenario selected).targeted =
      segments (chosen scenario selected) (fun e => pageGroup e.1 e.2)
        (fun e => pageCount e.1.bytes) := by
  ext x
  rw [observedPages, mem_foldl_observe, mem_segments]
  simp only [Finset.notMem_empty, false_or, resourcePages, Finset.mem_image, Finset.mem_range]
  constructor
  · rintro ⟨e, he, hselected, page, hpage, rfl⟩
    exact ⟨e, mem_chosen.mpr ⟨List.mem_zipIdx_iff_getElem?.mp he, hselected⟩, rfl, hpage⟩
  · rintro ⟨e, he, hgroup, hpage⟩
    obtain ⟨hget, hselected⟩ := mem_chosen.mp he
    exact ⟨e, List.mem_zipIdx_iff_getElem?.mpr hget, hselected, x.2, hpage,
      Prod.ext hgroup.symm rfl⟩

/-- The pages of a resource in the inventory. -/
def filedPages (r : SimResource) : Nat := if r.fileBacked then pageCount r.size else 0

theorem Listed.mem_pagesOf {resource : TensorResource} (h : Listed r index resource)
    {x : Option Nat × Nat} :
    x ∈ pagesOf resource ↔
      x.1 = (if r.fileBacked then some (r.group index) else none) ∧ x.2 < filedPages r := by
  rw [pagesOf, h.fileBacked, filedPages]
  cases hbacked : r.fileBacked with
  | false =>
    rw [if_neg Bool.false_ne_true, if_neg Bool.false_ne_true]
    exact ⟨fun hx => absurd hx (Finset.notMem_empty _), fun hx => absurd hx.2 (Nat.not_lt_zero _)⟩
  | true =>
    have hindex := h.mappingIndex
    have hend := h.pageEnd
    rw [hbacked, if_pos rfl] at hindex hend
    rw [if_pos rfl, if_pos rfl, if_pos rfl, mem_cell, hindex, h.pageStart, hend, h.pageSize,
      Nat.zero_div]
    exact and_congr_right fun _ => ⟨fun hx => hx.2, fun hx => ⟨Nat.zero_le _, hx⟩⟩

theorem mem_inventoryPages {x : Option Nat × Nat} : x ∈ inventoryPages inventory selected ↔
    ∃ resource ∈ inventory.resources, resource.name ∈ selected ∧ x ∈ pagesOf resource := by
  have hfold : ∀ resources : List TensorResource,
      x ∈ resources.foldr (fun resource pages => pagesOf resource ∪ pages) ∅ ↔
        ∃ resource ∈ resources, x ∈ pagesOf resource := by
    intro resources
    induction resources with
    | nil => simp
    | cons resource rest ih => simp [ih]
  rw [inventoryPages, hfold]
  simp only [List.mem_filter, and_assoc]
  exact Iff.rfl

theorem inventoryPages_eq_segments (hlisted : List.Forall₂
      (fun e resource => Listed e.1 e.2 resource) scenario.resources.zipIdx inventory.resources) :
    inventoryPages inventory selected =
      segments (chosen scenario selected)
        (fun e => if e.1.fileBacked then some (e.1.group e.2) else none)
        (fun e => filedPages e.1) := by
  obtain ⟨hlength, hat⟩ := List.forall₂_iff_get.mp hlisted
  ext x
  rw [mem_inventoryPages, mem_segments]
  constructor
  · rintro ⟨resource, hmem, hselected, hx⟩
    obtain ⟨i, hi, rfl⟩ := List.getElem_of_mem hmem
    have hi' : i < scenario.resources.zipIdx.length := hlength ▸ hi
    have hentry := hat i hi' hi
    refine ⟨scenario.resources.zipIdx[i], mem_chosen.mpr ⟨?_, ?_⟩, ?_⟩
    · exact List.mem_zipIdx_iff_getElem?.mp (List.getElem_mem hi')
    · have hname : inventory.resources[i].name = scenario.resources.zipIdx[i].1.name := hentry.name
      rw [← hname]
      exact hselected
    · exact hentry.mem_pagesOf.mp hx
  · rintro ⟨e, he, hx⟩
    obtain ⟨hget, hselected⟩ := mem_chosen.mp he
    have hi' : e.2 < scenario.resources.zipIdx.length := by
      rw [List.length_zipIdx]
      exact (List.getElem?_eq_some_iff.mp hget).1
    have hentry := hat e.2 hi' (hlength ▸ hi')
    have heq : scenario.resources.zipIdx.get ⟨e.2, hi'⟩ = e := by
      rw [List.get_eq_getElem, List.getElem_zipIdx]
      exact Prod.ext (List.getElem?_eq_some_iff.mp hget).2 (Nat.zero_add _)
    rw [heq] at hentry
    exact ⟨_, List.get_mem inventory.resources ⟨e.2, hlength ▸ hi'⟩, hentry.name.symm ▸ hselected,
      hentry.mem_pagesOf.mpr hx⟩

/-! ## The condition -/

theorem filedPages_of_pages (h : r.bytes ≠ 0 → r.fileBacked = true ∧ r.knownSize = true) :
    filedPages r = pageCount r.bytes := by
  by_cases hzero : r.bytes = 0
  · have hsize : r.size = 0 := by
      rw [size, hzero, ite_self]
    rw [filedPages, hsize, hzero]
    exact ite_self _
  · obtain ⟨hbacked, hknown⟩ := h hzero
    rw [filedPages, if_pos hbacked, size, if_pos hknown]

theorem pageCount_pos {bytes : Nat} : 0 < pageCount bytes ↔ bytes ≠ 0 := by
  rw [pageCount]
  omega

theorem getElem?_le (hlength : scenario.resources.length ≤ i32Max + 1) {i : Nat}
    (hr : scenario.resources[i]? = some r) : i ≤ i32Max := by
  have hlt := (List.getElem?_eq_some_iff.mp hr).1
  omega

/-- Where the numbers are apart, the two ways to number agree on which resources are one. -/
theorem NumbersApart.pageGroup_iff (h : NumbersApart scenario) {i j : Nat} (hi : i ≤ i32Max)
    (hj : j ≤ i32Max) (hr : scenario.resources[i]? = some r)
    (hr' : scenario.resources[j]? = some r') (hne : r.bytes ≠ 0) (hne' : r'.bytes ≠ 0) :
    pageGroup r i = pageGroup r' j ↔ r.group i = r'.group j := by
  cases hgroup : r.overlapGroup with
  | none =>
    rw [pageGroup_of_none hgroup hi, group_of_none hgroup hi]
    cases hgroup' : r'.overlapGroup with
    | none =>
      rw [pageGroup_of_none hgroup' hj, group_of_none hgroup' hj]
      omega
    | some g =>
      have hapart := h.groups j i r' r g hr' hr hgroup' hgroup hne' hne
      rw [pageGroup_of_some hgroup', group_of_some hgroup']
      omega
  | some g =>
    rw [pageGroup_of_some hgroup, group_of_some hgroup]
    cases hgroup' : r'.overlapGroup with
    | none =>
      have hapart := h.groups i j r r' g hr hr' hgroup hgroup' hne hne'
      rw [pageGroup_of_none hgroup' hj, group_of_none hgroup' hj]
      omega
    | some g' => rw [pageGroup_of_some hgroup', group_of_some hgroup']

theorem NumbersApart.sharing (h : NumbersApart scenario)
    (hinputs : scenarioInputs .debug scenario = .ok (inventory, profile)) :
    SharesByGroup scenario inventory := by
  obtain ⟨-, hlength, hlisted⟩ := listed_of_ok hinputs
  have hentry : ∀ {i r resource}, scenario.resources[i]? = some r →
      inventory.resources[i]? = some resource → Listed r i resource := by
    intro i r resource hr hresource
    obtain ⟨resource', hresource', hentry⟩ := listed_at hlisted hr
    rw [hresource] at hresource'
    cases hresource'
    exact hentry
  intro i j r r' resource resource' hne hr hr' hresource hresource' hknown hknown'
  rw [(hentry hr hresource).shares_iff (hentry hr' hresource') hknown hknown']
  exact group_eq_iff (getElem?_le hlength hr) (getElem?_le hlength hr') hne
    (fun g hg hnone => (h.groups i j r r' g hr hr' hg hnone hknown.2.2 hknown'.2.2).1)
    (fun g hg hnone => (h.groups j i r' r g hr' hr hg hnone hknown'.2.2 hknown.2.2).1)

theorem NumbersApart.pages_eq (h : NumbersApart scenario)
    (hinputs : scenarioInputs .debug scenario = .ok (inventory, profile)) (selected : Names) :
    (observationPages scenario selected).1 = (inventoryPages inventory selected).card := by
  obtain ⟨-, hlength, hlisted⟩ := listed_of_ok hinputs
  have hpages : ∀ e ∈ chosen scenario selected, filedPages e.1 = pageCount e.1.bytes :=
    fun e he => filedPages_of_pages
      (h.pages e.1 (List.mem_of_getElem? (mem_chosen.mp he).1))
  show (observedPages scenario selected).targeted.card = _
  rw [targeted_eq_segments, inventoryPages_eq_segments hlisted, segments_congr hpages]
  refine card_segments_eq fun e he e' he' hpos hpos' => ?_
  have hr := (mem_chosen.mp he).1
  have hr' := (mem_chosen.mp he').1
  have hne := pageCount_pos.mp hpos
  have hne' := pageCount_pos.mp hpos'
  rw [if_pos (h.pages e.1 (List.mem_of_getElem? hr) hne).1,
    if_pos (h.pages e'.1 (List.mem_of_getElem? hr') hne').1, Option.some.injEq]
  exact h.pageGroup_iff (getElem?_le hlength hr) (getElem?_le hlength hr') hr hr' hne hne'

theorem mem_namesOf {name : String} {names : List String} : name ∈ namesOf names ↔ name ∈ names := by
  rw [namesOf, ExtTreeSet.mem_ofList, List.contains_iff_mem]

/-- Under distinct names a position is chosen by its name. -/
theorem position_eq (hnames : (scenario.resources.map SimResource.name).Nodup) {i j : Nat}
    (hr : scenario.resources[i]? = some r) (hr' : scenario.resources[j]? = some r')
    (hname : r.name = r'.name) : i = j := by
  have hi : (scenario.resources.map SimResource.name)[i]? = some r.name := by
    rw [List.getElem?_map, hr]
    rfl
  have hj : (scenario.resources.map SimResource.name)[j]? = some r.name := by
    rw [List.getElem?_map, hr', hname]
    rfl
  obtain ⟨hi, hieq⟩ := List.getElem?_eq_some_iff.mp hi
  obtain ⟨hj, hjeq⟩ := List.getElem?_eq_some_iff.mp hj
  exact (hnames.getElem_inj_iff).mp (hieq.trans hjeq.symm)

theorem chosen_singleton (hnames : (scenario.resources.map SimResource.name).Nodup) {i : Nat}
    (hr : scenario.resources[i]? = some r) : chosen scenario (namesOf [r.name]) = {(r, i)} := by
  ext e
  rw [mem_chosen, mem_namesOf, List.mem_singleton, Finset.mem_singleton]
  constructor
  · rintro ⟨hget, hname⟩
    have hindex := position_eq hnames hget hr hname
    rw [hindex, hr] at hget
    exact Prod.ext (Option.some.inj hget).symm hindex
  · rintro rfl
    exact ⟨hr, rfl⟩

theorem chosen_pair (hnames : (scenario.resources.map SimResource.name).Nodup) {i j : Nat}
    (hr : scenario.resources[i]? = some r) (hr' : scenario.resources[j]? = some r') :
    chosen scenario (namesOf [r.name, r'.name]) = {(r, i), (r', j)} := by
  ext e
  rw [Finset.mem_insert, Finset.mem_singleton]
  have hfirst : e ∈ chosen scenario (namesOf [r.name]) ↔ e = (r, i) := by
    rw [chosen_singleton hnames hr, Finset.mem_singleton]
  have hsecond : e ∈ chosen scenario (namesOf [r'.name]) ↔ e = (r', j) := by
    rw [chosen_singleton hnames hr', Finset.mem_singleton]
  rw [← hfirst, ← hsecond, mem_chosen, mem_chosen, mem_chosen, mem_namesOf, mem_namesOf, mem_namesOf,
    List.mem_cons, List.mem_singleton, List.mem_singleton, ← and_or_left]

theorem FollowsGroups.numbersApart (h : FollowsGroups scenario)
    (hnames : (scenario.resources.map SimResource.name).Nodup)
    (hinputs : scenarioInputs .debug scenario = .ok (inventory, profile)) :
    NumbersApart scenario := by
  obtain ⟨-, hlength, hlisted⟩ := listed_of_ok hinputs
  have hcounts : ∀ selected, (segments (chosen scenario selected) (fun e => pageGroup e.1 e.2)
      (fun e => pageCount e.1.bytes)).card = (segments (chosen scenario selected)
        (fun e => if e.1.fileBacked then some (e.1.group e.2) else none)
        (fun e => filedPages e.1)).card := by
    intro selected
    rw [← targeted_eq_segments, ← inventoryPages_eq_segments hlisted]
    exact h.pages inventory profile hinputs selected
  have hfiled : ∀ r ∈ scenario.resources, filedPages r = pageCount r.bytes := by
    intro r hmem
    obtain ⟨i, hi, rfl⟩ := List.getElem_of_mem hmem
    have hcount := hcounts (namesOf [scenario.resources[i].name])
    rw [chosen_singleton hnames (List.getElem?_eq_getElem hi), card_segments_singleton,
      card_segments_singleton] at hcount
    exact hcount.symm
  have hpages : ∀ r ∈ scenario.resources, r.bytes ≠ 0 →
      r.fileBacked = true ∧ r.knownSize = true := by
    intro r hmem hne
    have hpos : 0 < filedPages r := by
      rw [hfiled r hmem]
      exact pageCount_pos.mpr hne
    rw [filedPages] at hpos
    split at hpos
    next hbacked =>
      refine ⟨hbacked, ?_⟩
      have hsize := pageCount_pos.mp hpos
      rw [size] at hsize
      split at hsize
      next hknown => exact hknown
      next => exact absurd rfl hsize
    next => exact absurd hpos (Nat.lt_irrefl 0)
  refine ⟨hpages, fun i j r r' g hr hr' hgroup hgroup' hne hne' => ?_⟩
  have hi := getElem?_le hlength hr
  have hj := getElem?_le hlength hr'
  have hij : i ≠ j := by
    rintro rfl
    rw [hr] at hr'
    cases hr'
    rw [hgroup] at hgroup'
    cases hgroup'
  have hbacked := hpages r (List.mem_of_getElem? hr) hne
  have hbacked' := hpages r' (List.mem_of_getElem? hr') hne'
  have hnumber : g ≠ j := by
    intro heq
    obtain ⟨resource, hresource, hentry⟩ := listed_at hlisted hr
    obtain ⟨resource', hresource', hentry'⟩ := listed_at hlisted hr'
    have hsame : r.group i = r'.group j := by
      rw [group_of_some hgroup, group_of_none hgroup' hj, heq]
    have hshares := (hentry.shares_iff hentry' ⟨hbacked.1, hbacked.2, hne⟩
      ⟨hbacked'.1, hbacked'.2, hne'⟩).mpr hsame
    obtain ⟨_, -, hnone⟩ := (h.sharing inventory profile hinputs i j r r' resource resource' hij hr
      hr' hresource hresource' ⟨hbacked.1, hbacked.2, hne⟩ ⟨hbacked'.1, hbacked'.2, hne'⟩).mp hshares
    rw [hgroup'] at hnone
    cases hnone
  refine ⟨hnumber, fun heq => ?_⟩
  have hcount := hcounts (namesOf [r.name, r'.name])
  have hsame : pageGroup r i = pageGroup r' j := by
    rw [pageGroup_of_some hgroup, pageGroup_of_none hgroup' hj, heq]
  have hapart : (if r.fileBacked then some (r.group i) else none) ≠
      if r'.fileBacked then some (r'.group j) else none := by
    rw [if_pos hbacked.1, if_pos hbacked'.1, group_of_some hgroup, group_of_none hgroup' hj]
    exact fun heq => hnumber (Option.some.inj heq)
  rw [chosen_pair hnames hr hr',
    card_segments_pair_of_eq (i := (r, i)) (j := (r', j)) hsame,
    card_segments_pair_of_ne (i := (r, i)) (j := (r', j)) hapart] at hcount
  have hcount : max (pageCount r.bytes) (pageCount r'.bytes) = filedPages r + filedPages r' := hcount
  rw [hfiled r (List.mem_of_getElem? hr), hfiled r' (List.mem_of_getElem? hr')] at hcount
  have hpos := pageCount_pos.mpr hne
  have hpos' := pageCount_pos.mpr hne'
  omega

/-- The condition: what is read from a scenario within its budget adds up, and where the
inputs are built, no group meets a position. -/
structure KeepsApart (scenario : SimScenario) : Prop where
  addsUp : (∀ r ∈ scenario.resources, r.bytes ≤ scenario.budgetBytes) → AddsUp scenario
  apart : Accepted scenario → NumbersApart scenario

/-- Where names are distinct, the condition is exact. -/
theorem followsGroups_of_keepsApart (scenario : SimScenario) :
    (KeepsApart scenario → FollowsGroups scenario) ∧
      ((scenario.resources.map SimResource.name).Nodup → FollowsGroups scenario →
        KeepsApart scenario) := by
  constructor
  · intro h
    have hapart : ∀ inventory profile,
        scenarioInputs .debug scenario = .ok (inventory, profile) → NumbersApart scenario :=
      fun inventory profile hinputs => h.apart (accepted_iff.mpr ⟨_, hinputs⟩)
    exact
      { total := fun hbudget => not_isPanic_iff_addsUp.mpr (h.addsUp hbudget)
        sharing := fun inventory profile hinputs => (hapart _ _ hinputs).sharing hinputs
        pages := fun inventory profile hinputs => (hapart _ _ hinputs).pages_eq hinputs }
  · intro hnames h
    refine ⟨fun hbudget => not_isPanic_iff_addsUp.mp (h.total hbudget), fun haccepted => ?_⟩
    obtain ⟨⟨inventory, profile⟩, hinputs⟩ := accepted_iff.mp haccepted
    exact h.numbersApart hnames hinputs

theorem onePage_lt : 4096 < u64Bound := by decide

theorem groupOne_lt : ∀ group ∈ some 1, group < 2 ^ 32 := by decide

theorem noGroup_lt : ∀ group ∈ (none : Option Nat), group < 2 ^ 32 := by decide

/-- A resource of group 1, and a resource without a group at position 1. -/
def meetingGroup : SimScenario where
  name := "meeting-group"
  budgetBytes := 8192
  stagingWindowBytes := 4096
  speculativeBudgetBytes := 4096
  minConfidenceBps := 5000
  predictionHorizon := 8
  resources :=
    [{ name := "a"
       bytes := 4096
       fileBacked := true
       knownSize := true
       initial := .nonResident
       overlapGroup := some 1
       bytes_lt := onePage_lt
       overlapGroup_lt := groupOne_lt },
     { name := "b"
       bytes := 4096
       fileBacked := true
       knownSize := true
       initial := .nonResident
       overlapGroup := none
       bytes_lt := onePage_lt
       overlapGroup_lt := noGroup_lt }]
  trainingSequence := ["a"]
  testSequence := ["a", "b"]
  prefetchEffect := .makesResident
  prefetchTiming := .onTime
  observationMode := .targeted
  observationPageBudget := 0
  beforeAccessObservation := false
  cacheCondition := .uncontrolled
  costs := {}

/-- The inventory puts both into mapping 1, and they share its first page. -/
theorem not_followsGroups_meetingGroup :
    (meetingGroup.resources.map SimResource.name).Nodup ∧ ¬FollowsGroups meetingGroup := by
  refine ⟨by decide, fun h => ?_⟩
  obtain ⟨⟨inventory, profile⟩, hinputs⟩ :=
    exists_of_isOk (m := scenarioInputs .debug meetingGroup) (by decide +kernel)
  have hapart := h.numbersApart (by decide) hinputs
  exact (hapart.groups 0 1 _ _ 1 rfl rfl rfl rfl (by decide) (by decide)).1 rfl

end SimScenario
end Ramforge
