/-
What a read plan says: each tensor once, in ranges that are disjoint, bounded and as
few as the limits of a range allow.

The sort puts tensors that begin at one offset in the order of the list.  A tensor
without bytes that comes behind another one there is taken for an overlap.
-/
import Ramforge.Rust.Checked
import Ramforge.Rust.Intervals
import Ramforge.Runtime.LayerRead

namespace Ramforge

open Rust Rust.Outcome

namespace LayerReadPlan

/-! ## Entries -/

def lengthOf (descriptor : TensorDescriptor) : Nat := descriptor.byteLength.getD 0

def entryOf (descriptor : TensorDescriptor) (index : Nat) : ReadEntry where
  start := descriptor.fileOffset
  stop := descriptor.fileOffset + lengthOf descriptor
  byteLength := lengthOf descriptor
  index := index

def entriesFrom (descriptors : List TensorDescriptor) (index : Nat) : List ReadEntry :=
  (descriptors.zipIdx index).map fun x => entryOf x.1 x.2

/-- The byte length is known, and the end fits. -/
def InFile (descriptor : TensorDescriptor) : Prop :=
  ∃ bytes, descriptor.byteLength = some bytes ∧ descriptor.fileOffset + bytes < u64Bound

def logicalSum (descriptors : List TensorDescriptor) : Nat := (descriptors.map lengthOf).sum

theorem entriesFrom_cons (descriptor : TensorDescriptor) (rest : List TensorDescriptor)
    (index : Nat) :
    entriesFrom (descriptor :: rest) index = entryOf descriptor index :: entriesFrom rest (index + 1) :=
  rfl

theorem logicalSum_cons (descriptor : TensorDescriptor) (rest : List TensorDescriptor) :
    logicalSum (descriptor :: rest) = lengthOf descriptor + logicalSum rest :=
  List.sum_cons

theorem collectEntries_eq_ok {descriptors : List TensorDescriptor} {index logicalBytes : Nat}
    {ordered : List ReadEntry} {r : List ReadEntry × Nat} (hlogical : logicalBytes < u64Bound) :
    collectEntries descriptors index ordered logicalBytes = .ok r ↔
      (∀ descriptor ∈ descriptors, InFile descriptor) ∧
        logicalBytes + logicalSum descriptors < u64Bound ∧
        r = (ordered ++ entriesFrom descriptors index, logicalBytes + logicalSum descriptors) := by
  induction descriptors generalizing index logicalBytes ordered with
  | nil =>
    have hnil : ordered ++ entriesFrom [] index = ordered := List.append_nil ordered
    rw [hnil]
    exact ⟨fun h => ⟨fun _ hmem => absurd hmem List.not_mem_nil, hlogical, (Outcome.ok.inj h).symm⟩,
      fun h => congrArg Outcome.ok h.2.2.symm⟩
  | cons descriptor rest ih =>
    rw [collectEntries, TensorDescriptor.knownBytes, List.forall_mem_cons, logicalSum_cons,
      entriesFrom_cons, ← Nat.add_assoc]
    cases hlength : descriptor.byteLength with
    | none =>
      refine ⟨fun h => (by cases h), fun h => ?_⟩
      obtain ⟨bytes, hbytes, -⟩ := h.1.1
      cases hlength.symm.trans hbytes
    | some bytes =>
      have hof : lengthOf descriptor = bytes := by rw [lengthOf, hlength, Option.getD_some]
      have hentry : entryOf descriptor index =
          { start := descriptor.fileOffset
            stop := descriptor.fileOffset + bytes
            byteLength := bytes
            index := index } := by
        rw [entryOf, hof]
      rw [hof, hentry, okOr_some, ok_bind]
      cases hstop : checkedAdd descriptor.fileOffset bytes with
      | none =>
        refine ⟨fun h => (by cases h), fun h => ?_⟩
        obtain ⟨bytes', hbytes, hlt⟩ := h.1.1
        cases hlength.symm.trans hbytes
        exact absurd hlt (Nat.not_lt.mpr (checkedAdd_eq_none.mp hstop))
      | some stop =>
        obtain ⟨hlt, rfl⟩ := checkedAdd_eq_some.mp hstop
        rw [okOr_some, ok_bind]
        cases hsum : checkedAdd logicalBytes bytes with
        | none =>
          have hge := checkedAdd_eq_none.mp hsum
          exact ⟨fun h => (by cases h), fun h => by omega⟩
        | some logicalBytes' =>
          obtain ⟨hfits, rfl⟩ := checkedAdd_eq_some.mp hsum
          rw [okOr_some, ok_bind, ih hfits, List.append_assoc]
          exact ⟨fun h => ⟨⟨⟨bytes, hlength, hlt⟩, h.1⟩, h.2⟩, fun h => ⟨h.1.2, h.2⟩⟩

end LayerReadPlan

/-! ## The merge -/

namespace PlannedReadRange

def stop (range : PlannedReadRange) : Nat := range.fileOffset + range.byteLength

/-- The tensor of the entry in a range from `fileOffset`. -/
def placed (fileOffset : Nat) (entry : ReadEntry) : PlannedTensor where
  descriptorIndex := entry.index
  offsetInRange := entry.start - fileOffset

/-- The entry is within the limits of the range. -/
def Joins (current : PlannedReadRange) (entry : ReadEntry) : Prop :=
  entry.start - current.stop ≤ maxCoalescedGapBytes ∧
    entry.stop - current.fileOffset ≤ maxCoalescedSpanBytes

instance (current : PlannedReadRange) (entry : ReadEntry) : Decidable (current.Joins entry) :=
  inferInstanceAs (Decidable (_ ∧ _))

def joined (current : PlannedReadRange) (entry : ReadEntry) : PlannedReadRange where
  fileOffset := current.fileOffset
  byteLength := entry.stop - current.fileOffset
  logicalBytes := current.logicalBytes + entry.byteLength
  gapBytes := current.gapBytes + (entry.start - current.stop)
  tensors := current.tensors ++ [placed current.fileOffset entry]

/-- The ranges of the entries behind `current`, without the checks. -/
def sweep : PlannedReadRange → List ReadEntry → List PlannedReadRange
  | current, [] => [current]
  | current, entry :: rest =>
    if current.Joins entry then sweep (current.joined entry) rest
    else current :: sweep (.single entry) rest

def rangesOf : List ReadEntry → List PlannedReadRange
  | [] => []
  | entry :: rest => sweep (.single entry) rest

end PlannedReadRange

namespace ReadEntry

structure Sized (entry : ReadEntry) : Prop where
  stop_eq : entry.stop = entry.start + entry.byteLength
  stop_lt : entry.stop < u64Bound

/-- No entry begins before `last` or before the end of the one in front of it. -/
def Clear : Nat → List ReadEntry → Prop
  | _, [] => True
  | last, entry :: rest => last ≤ entry.start ∧ Clear entry.stop rest

end ReadEntry

namespace LayerReadPlan

open PlannedReadRange ReadEntry

/-- The range of the entries `seen`. -/
structure Describes (seen : List ReadEntry) (range : PlannedReadRange) : Prop where
  tensors : range.tensors = seen.map (placed range.fileOffset)
  within : ∀ entry ∈ seen, range.fileOffset ≤ entry.start ∧ entry.stop ≤ range.stop
  first : seen.head?.map ReadEntry.start = some range.fileOffset
  last : seen.getLast?.map ReadEntry.stop = some range.stop
  stop_lt : range.stop < u64Bound
  logical : range.logicalBytes = (seen.map ReadEntry.byteLength).sum
  total : range.byteLength = range.logicalBytes + range.gapBytes
  gaps : seen.IsChain fun a b => b.start - a.stop ≤ maxCoalescedGapBytes
  span : 1 < seen.length → range.byteLength ≤ maxCoalescedSpanBytes

variable {seen entries : List ReadEntry} {current : PlannedReadRange} {entry : ReadEntry}
  {done ranges : List PlannedReadRange}

theorem stop_single (hsized : entry.Sized) : (PlannedReadRange.single entry).stop = entry.stop :=
  hsized.stop_eq.symm

theorem describes_single (hsized : entry.Sized) : Describes [entry] (.single entry) where
  tensors := by
    rw [List.map_singleton, placed]
    simp [PlannedReadRange.single]
  within := by
    intro e he
    obtain rfl := List.mem_singleton.mp he
    exact ⟨Nat.le_refl _, Nat.le_of_eq (stop_single hsized).symm⟩
  first := rfl
  last := congrArg some (stop_single hsized).symm
  stop_lt := by
    rw [stop_single hsized]
    exact hsized.stop_lt
  logical := (Nat.add_zero _).symm
  total := (Nat.add_zero _).symm
  gaps := List.isChain_singleton _
  span := fun h => absurd h (Nat.lt_irrefl 1)

theorem fileOffset_le (range : PlannedReadRange) : range.fileOffset ≤ range.stop :=
  Nat.le_add_right _ _

theorem stop_joined (hstart : current.fileOffset ≤ entry.start) (hsized : entry.Sized) :
    (current.joined entry).stop = entry.stop := by
  have := hsized.stop_eq
  show current.fileOffset + (entry.stop - current.fileOffset) = entry.stop
  omega

theorem Describes.joined (h : Describes seen current) (hclear : current.stop ≤ entry.start)
    (hsized : entry.Sized) (hjoins : current.Joins entry) :
    Describes (seen ++ [entry]) (current.joined entry) := by
  have hstart : current.fileOffset ≤ entry.start := Nat.le_trans (fileOffset_le current) hclear
  have hstop := stop_joined hstart hsized
  have hsize := hsized.stop_eq
  have htotal := h.total
  refine
    { tensors := ?_
      within := ?_
      first := ?_
      last := ?_
      stop_lt := by rw [hstop]; exact hsized.stop_lt
      logical := ?_
      total := ?_
      gaps := ?_
      span := fun _ => hjoins.2 }
  · rw [List.map_append, List.map_singleton]
    exact congrArg (· ++ _) h.tensors
  · intro e he
    rw [hstop]
    rcases List.mem_append.mp he with he | he
    · obtain ⟨hfirst, hlast⟩ := h.within e he
      exact ⟨hfirst, by omega⟩
    · obtain rfl := List.mem_singleton.mp he
      exact ⟨hstart, Nat.le_refl _⟩
  · have hfirst := h.first
    cases seen with
    | nil => cases hfirst
    | cons head rest => exact hfirst
  · rw [List.getLast?_concat, hstop]
    rfl
  · rw [List.map_append, List.sum_append, List.map_singleton, List.sum_singleton, ← h.logical]
    rfl
  · show entry.stop - current.fileOffset =
      current.logicalBytes + entry.byteLength + (current.gapBytes + (entry.start - current.stop))
    unfold PlannedReadRange.stop at hclear ⊢
    omega
  · refine List.isChain_append.mpr ⟨h.gaps, List.isChain_singleton _, fun a ha b hb => ?_⟩
    cases hb
    have hlast := h.last
    rw [ha, Option.map_some] at hlast
    rw [Option.some.inj hlast]
    exact hjoins.1

theorem okOr_checkedAdd {ε : Type} {a b : Nat} (e : ε) (h : a + b < u64Bound) :
    okOr (checkedAdd a b) e = .ok (a + b) := by
  rw [checkedAdd_eq_some.mpr ⟨h, rfl⟩, okOr_some]

/-- A round behind entries that the last range describes. -/
theorem planEntry_of_clear (h : Describes seen current) (hclear : current.stop ≤ entry.start)
    (hsized : entry.Sized) :
    planEntry (done ++ [current]) entry = .ok
      (if current.Joins entry then done ++ [current.joined entry]
      else done ++ [current, .single entry]) := by
  have hsize := hsized.stop_eq
  have hspan : checkedSub entry.stop current.fileOffset =
      some (entry.stop - current.fileOffset) := by
    have := Nat.le_trans (fileOffset_le current) hclear
    exact checkedSub_eq_some.mpr ⟨by omega, rfl⟩
  rw [planEntry, List.getLast?_concat]
  simp only
  have hend := okOr_checkedAdd "planned range end overflow" h.stop_lt
  change _ = ok current.stop at hend
  rw [hend, ok_bind, failIf_of_not (Nat.not_lt.mpr hclear), ok_bind, hspan,
    okOr_some, ok_bind]
  by_cases hjoins : current.Joins entry
  · have hjoined := h.joined hclear hsized hjoins
    have htotal := hjoined.total
    have hlt : (current.joined entry).byteLength < u64Bound :=
      Nat.lt_of_le_of_lt (Nat.le_add_left _ _) hjoined.stop_lt
    have hlogical : current.logicalBytes + entry.byteLength < u64Bound :=
      Nat.lt_of_le_of_lt (htotal ▸ Nat.le_add_right _ _) hlt
    have hgap : current.gapBytes + (entry.start - current.stop) < u64Bound :=
      Nat.lt_of_le_of_lt (htotal ▸ Nat.le_add_left _ _) hlt
    have hlimits : entry.start - current.stop ≤ maxCoalescedGapBytes ∧
        entry.stop - current.fileOffset ≤ maxCoalescedSpanBytes := hjoins
    rw [if_pos hjoins, if_pos hlimits, PlannedReadRange.extend, okOr_checkedAdd _ hlogical, ok_bind,
      okOr_checkedAdd _ hgap, ok_bind, pure_eq, ok_bind, List.dropLast_concat]
    rfl
  · have hlimits : ¬(entry.start - current.stop ≤ maxCoalescedGapBytes ∧
        entry.stop - current.fileOffset ≤ maxCoalescedSpanBytes) := hjoins
    rw [if_neg hjoins, if_neg hlimits, List.append_assoc]
    rfl

theorem planEntry_of_overlap (h : Describes seen current) (hoverlap : entry.start < current.stop) :
    planEntry (done ++ [current]) entry =
      .err ("tensor ranges overlap at descriptor index " ++ toString entry.index) := by
  rw [planEntry, List.getLast?_concat]
  simp only
  have hend := okOr_checkedAdd "planned range end overflow" h.stop_lt
  change _ = ok current.stop at hend
  rw [hend, ok_bind, failIf, if_pos hoverlap, err_bind]

/-- The second loop gives the ranges of clear entries, and fails on others. -/
theorem foldlM_planEntry (h : Describes seen current) (hsized : ∀ entry ∈ entries, entry.Sized) :
    (Clear current.stop entries ∧
        entries.foldlM planEntry (done ++ [current]) = .ok (done ++ sweep current entries)) ∨
      (¬Clear current.stop entries ∧
        ∃ message, entries.foldlM planEntry (done ++ [current]) = .err message) := by
  induction entries generalizing seen current done with
  | nil => exact .inl ⟨trivial, rfl⟩
  | cons entry rest ih =>
    obtain ⟨hentry, hrest⟩ := List.forall_mem_cons.mp hsized
    rw [List.foldlM_cons]
    by_cases hclear : current.stop ≤ entry.start
    · rw [planEntry_of_clear h hclear hentry, ok_bind, Clear, sweep]
      by_cases hjoins : current.Joins entry
      · have hround := @ih _ _ done (h.joined hclear hentry hjoins) hrest
        rw [stop_joined (Nat.le_trans (fileOffset_le current) hclear) hentry] at hround
        rw [if_pos hjoins, if_pos hjoins]
        exact hround.imp (fun hok => ⟨⟨hclear, hok.1⟩, hok.2⟩)
          fun herr => ⟨fun hboth => herr.1 hboth.2, herr.2⟩
      · have hround := @ih _ _ (done ++ [current]) (describes_single hentry) hrest
        rw [stop_single hentry, List.append_assoc, List.append_assoc] at hround
        rw [if_neg hjoins, if_neg hjoins]
        exact hround.imp (fun hok => ⟨⟨hclear, hok.1⟩, hok.2⟩)
          fun herr => ⟨fun hboth => herr.1 hboth.2, herr.2⟩
    · rw [planEntry_of_overlap h (Nat.lt_of_not_le hclear), err_bind, Clear]
      exact .inr ⟨fun hboth => hclear hboth.1, _, rfl⟩

/-! ## The ranges -/

/-- The two ranges could have been one. -/
def Mergeable (a b : PlannedReadRange) : Prop :=
  b.fileOffset - a.stop ≤ maxCoalescedGapBytes ∧ b.stop - a.fileOffset ≤ maxCoalescedSpanBytes

/-- The induction over the ranges of clear entries: an entry joins the range before it, or
starts a range of its own. -/
theorem sweep_rule {P : PlannedReadRange → List ReadEntry → List PlannedReadRange → Prop}
    (hlast : ∀ current, P current [] [current])
    (hjoined : ∀ current entry rest ranges, entry.Sized → current.stop ≤ entry.start →
      current.Joins entry → P (current.joined entry) rest ranges → P current (entry :: rest) ranges)
    (happart : ∀ current entry rest, entry.Sized → current.stop ≤ entry.start →
      ¬current.Joins entry → Clear (PlannedReadRange.single entry).stop rest →
      (∀ entry ∈ rest, entry.Sized) → P (.single entry) rest (sweep (.single entry) rest) →
      P current (entry :: rest) (current :: sweep (.single entry) rest))
    (hclear : Clear current.stop entries) (hsized : ∀ entry ∈ entries, entry.Sized) :
    P current entries (sweep current entries) := by
  induction entries generalizing current with
  | nil => exact hlast current
  | cons entry rest ih =>
    obtain ⟨hentry, hrest⟩ := List.forall_mem_cons.mp hsized
    obtain ⟨hle, hclear⟩ := hclear
    rw [sweep]
    by_cases hjoins : current.Joins entry
    · rw [← stop_joined (Nat.le_trans (fileOffset_le current) hle) hentry] at hclear
      rw [if_pos hjoins]
      exact hjoined _ _ _ _ hentry hle hjoins (ih hclear hrest)
    · rw [← stop_single hentry] at hclear
      rw [if_neg hjoins]
      exact happart _ _ _ hentry hle hjoins hclear hrest (ih hclear hrest)

theorem sweep_groups (h : Describes seen current) (hclear : Clear current.stop entries)
    (hsized : ∀ entry ∈ entries, entry.Sized) :
    ∃ groups, groups.flatten = seen ++ entries ∧
      List.Forall₂ Describes groups (sweep current entries) := by
  refine sweep_rule (P := fun current entries ranges => ∀ seen, Describes seen current →
    ∃ groups, groups.flatten = seen ++ entries ∧ List.Forall₂ Describes groups ranges)
    ?_ ?_ ?_ hclear hsized seen h
  · intro current seen h
    exact ⟨[seen], List.flatten_singleton.trans (List.append_nil seen).symm, .cons h .nil⟩
  · intro current entry rest ranges hentry hle hjoins ih seen h
    obtain ⟨groups, hflatten, hgroups⟩ := ih _ (h.joined hle hentry hjoins)
    exact ⟨groups, by rw [hflatten, List.append_assoc]; rfl, hgroups⟩
  · intro current entry rest hentry _ _ _ _ ih seen h
    obtain ⟨groups, hflatten, hgroups⟩ := ih _ (describes_single hentry)
    exact ⟨seen :: groups, by rw [List.flatten_cons, hflatten]; rfl, .cons h hgroups⟩

theorem sweep_head (hclear : Clear current.stop entries) (hsized : ∀ entry ∈ entries, entry.Sized) :
    ∃ first rest, sweep current entries = first :: rest ∧ first.fileOffset = current.fileOffset ∧
      current.stop ≤ first.stop := by
  refine sweep_rule (P := fun current _ ranges => ∃ first rest, ranges = first :: rest ∧
    first.fileOffset = current.fileOffset ∧ current.stop ≤ first.stop) ?_ ?_ ?_ hclear hsized
  · exact fun current => ⟨current, [], rfl, rfl, Nat.le_refl _⟩
  · intro current entry rest ranges hentry hle _ ih
    obtain ⟨first, others, hranges, hoffset, hfirst⟩ := ih
    rw [stop_joined (Nat.le_trans (fileOffset_le current) hle) hentry] at hfirst
    have hsize := hentry.stop_eq
    exact ⟨first, others, hranges, hoffset, by omega⟩
  · exact fun current entry rest _ _ _ _ _ _ => ⟨current, _, rfl, rfl, Nat.le_refl _⟩

theorem fileOffset_le_of_mem_sweep {range : PlannedReadRange} (hclear : Clear current.stop entries)
    (hsized : ∀ entry ∈ entries, entry.Sized) (hmem : range ∈ sweep current entries) :
    current.fileOffset ≤ range.fileOffset := by
  refine sweep_rule (P := fun current _ ranges => ∀ range ∈ ranges, current.fileOffset ≤ range.fileOffset)
    ?_ ?_ ?_ hclear hsized range hmem
  · intro current range hmem
    rw [List.mem_singleton.mp hmem]
  · exact fun current entry rest ranges _ _ _ ih => ih
  · intro current entry rest _ hle _ _ _ ih range hmem
    rcases List.mem_cons.mp hmem with rfl | hmem
    · exact Nat.le_refl _
    · exact Nat.le_trans (Nat.le_trans (fileOffset_le current) hle) (ih range hmem)

theorem sweep_pairwise (hclear : Clear current.stop entries)
    (hsized : ∀ entry ∈ entries, entry.Sized) :
    (sweep current entries).Pairwise fun a b => a.stop ≤ b.fileOffset := by
  refine sweep_rule (P := fun _ _ ranges => ranges.Pairwise fun a b => a.stop ≤ b.fileOffset)
    ?_ ?_ ?_ hclear hsized
  · exact fun current => List.pairwise_singleton _ _
  · exact fun current entry rest ranges _ _ _ ih => ih
  · intro current entry rest _ hle _ hclear hrest ih
    refine List.pairwise_cons.mpr ⟨fun range hmem => ?_, ih⟩
    exact Nat.le_trans hle (fileOffset_le_of_mem_sweep hclear hrest hmem)

theorem sweep_maximal (hclear : Clear current.stop entries)
    (hsized : ∀ entry ∈ entries, entry.Sized) :
    (sweep current entries).IsChain fun a b => ¬Mergeable a b := by
  refine sweep_rule (P := fun _ _ ranges => ranges.IsChain fun a b => ¬Mergeable a b)
    ?_ ?_ ?_ hclear hsized
  · exact fun current => List.isChain_singleton _
  · exact fun current entry rest ranges _ _ _ ih => ih
  · intro current entry rest hentry _ hjoins hclear hrest hchain
    obtain ⟨first, others, hsweep, hoffset, hfirst⟩ := sweep_head hclear hrest
    rw [stop_single hentry] at hfirst
    rw [hsweep] at hchain ⊢
    refine List.isChain_cons_cons.mpr ⟨fun hmerge => hjoins ?_, hchain⟩
    -- a range only grows, so that what keeps its first tensor out keeps it out
    obtain ⟨hgap, hspan⟩ := hmerge
    rw [hoffset] at hgap
    exact ⟨hgap, Nat.le_trans (Nat.sub_le_sub_right hfirst _) hspan⟩

theorem clear_iff {last : Nat} (hsized : ∀ entry ∈ entries, entry.Sized) :
    Clear last entries ↔ (∀ entry ∈ entries, last ≤ entry.start) ∧
      entries.Pairwise fun a b => a.stop ≤ b.start := by
  induction entries generalizing last with
  | nil => exact ⟨fun _ => ⟨fun _ hmem => absurd hmem List.not_mem_nil, .nil⟩, fun _ => trivial⟩
  | cons entry rest ih =>
    obtain ⟨hentry, hrest⟩ := List.forall_mem_cons.mp hsized
    have hsize := hentry.stop_eq
    rw [Clear, ih hrest, List.forall_mem_cons, List.pairwise_cons]
    constructor
    · rintro ⟨hle, hall, hpairwise⟩
      exact ⟨⟨hle, fun e he => by have := hall e he; omega⟩, hall, hpairwise⟩
    · rintro ⟨⟨hle, -⟩, hall, hpairwise⟩
      exact ⟨hle, hall, hpairwise⟩

/-! ## The plan -/

variable {descriptors : List TensorDescriptor}

def sortedEntries (descriptors : List TensorDescriptor) : List ReadEntry :=
  (entriesFrom descriptors 0).insertionSort ReadEntry.before

def planOf (descriptors : List TensorDescriptor) : LayerReadPlan where
  logicalTensorCount := descriptors.length
  logicalBytes := logicalSum descriptors
  physicalBytes := ((rangesOf (sortedEntries descriptors)).map PlannedReadRange.byteLength).sum
  gapBytes := ((rangesOf (sortedEntries descriptors)).map PlannedReadRange.gapBytes).sum
  ranges := rangesOf (sortedEntries descriptors)

/-- No entry begins before the end of one in front of it. -/
def Separated (descriptors : List TensorDescriptor) : Prop :=
  (sortedEntries descriptors).Pairwise fun a b => a.stop ≤ b.start

theorem mem_sortedEntries :
    entry ∈ sortedEntries descriptors ↔
      ∃ i descriptor, descriptors[i]? = some descriptor ∧ entry = entryOf descriptor i := by
  rw [sortedEntries, List.mem_insertionSort, entriesFrom, List.mem_map]
  constructor
  · rintro ⟨⟨descriptor, i⟩, hmem, rfl⟩
    exact ⟨i, descriptor, List.mem_zipIdx_iff_getElem?.mp hmem, rfl⟩
  · rintro ⟨i, descriptor, hget, rfl⟩
    exact ⟨⟨descriptor, i⟩, List.mem_zipIdx_iff_getElem?.mpr hget, rfl⟩

theorem sized_entryOf {descriptor : TensorDescriptor} (h : InFile descriptor) (index : Nat) :
    (entryOf descriptor index).Sized := by
  obtain ⟨bytes, hbytes, hlt⟩ := h
  refine ⟨rfl, ?_⟩
  rw [entryOf, lengthOf, hbytes]
  exact hlt

theorem sized_sortedEntries (h : ∀ descriptor ∈ descriptors, InFile descriptor) :
    ∀ entry ∈ sortedEntries descriptors, entry.Sized := by
  intro entry hmem
  obtain ⟨i, descriptor, hget, rfl⟩ := mem_sortedEntries.mp hmem
  exact sized_entryOf (h descriptor (List.mem_of_getElem? hget)) i

/-- The second loop, from no range. -/
theorem foldlM_sorted {sorted : List ReadEntry} (hsized : ∀ entry ∈ sorted, entry.Sized) :
    ((sorted.Pairwise fun a b => a.stop ≤ b.start) ∧
        sorted.foldlM planEntry [] = .ok (rangesOf sorted)) ∨
      ((¬sorted.Pairwise fun a b => a.stop ≤ b.start) ∧
        ∃ message, sorted.foldlM planEntry [] = .err message) := by
  cases sorted with
  | nil => exact .inl ⟨.nil, rfl⟩
  | cons entry rest =>
    obtain ⟨hentry, hrest⟩ := List.forall_mem_cons.mp hsized
    have hfold := @foldlM_planEntry _ _ _ [] (describes_single hentry) hrest
    rw [stop_single hentry, clear_iff hrest] at hfold
    rw [List.pairwise_cons]
    exact hfold

theorem rangesOf_groups {sorted : List ReadEntry} (hsized : ∀ entry ∈ sorted, entry.Sized)
    (hseparated : sorted.Pairwise fun a b => a.stop ≤ b.start) :
    ∃ groups, groups.flatten = sorted ∧ List.Forall₂ Describes groups (rangesOf sorted) := by
  cases sorted with
  | nil => exact ⟨[], rfl, .nil⟩
  | cons entry rest =>
    obtain ⟨hentry, hrest⟩ := List.forall_mem_cons.mp hsized
    have hclear := (clear_iff hrest).mpr (List.pairwise_cons.mp hseparated)
    rw [← stop_single hentry] at hclear
    exact sweep_groups (describes_single hentry) hclear hrest

theorem rangesOf_pairwise {sorted : List ReadEntry} (hsized : ∀ entry ∈ sorted, entry.Sized)
    (hseparated : sorted.Pairwise fun a b => a.stop ≤ b.start) :
    (rangesOf sorted).Pairwise (fun a b => a.stop ≤ b.fileOffset) ∧
      (rangesOf sorted).IsChain fun a b => ¬Mergeable a b := by
  cases sorted with
  | nil => exact ⟨.nil, List.isChain_nil⟩
  | cons entry rest =>
    obtain ⟨hentry, hrest⟩ := List.forall_mem_cons.mp hsized
    have hclear := (clear_iff hrest).mpr (List.pairwise_cons.mp hseparated)
    rw [← stop_single hentry] at hclear
    exact ⟨sweep_pairwise hclear hrest, sweep_maximal hclear hrest⟩

theorem exists_group_of_mem {α β : Type} {R : α → β → Prop} {l : List α} {l' : List β} {b : β}
    (h : List.Forall₂ R l l') (hmem : b ∈ l') : ∃ a ∈ l, R a b := by
  induction h with
  | nil => cases hmem
  | cons hab _ ih =>
    rcases List.mem_cons.mp hmem with rfl | hmem
    · exact ⟨_, List.mem_cons_self, hab⟩
    · obtain ⟨a, ha, hR⟩ := ih hmem
      exact ⟨a, List.mem_cons_of_mem _ ha, hR⟩

theorem checkedSum_of_lt {values : List Nat} (h : values.sum < u64Bound) :
    checkedSum values = some values.sum := by
  have hsum := (foldlM_checkedAdd_eq_some id values values.sum (by decide : 0 < u64Bound)).mpr
  rw [List.map_id, Nat.zero_add] at hsum
  exact hsum ⟨h, rfl⟩

/-- The physical bytes and the bytes of the gaps fit. -/
theorem planOf_bytes_lt (hsized : ∀ entry ∈ sortedEntries descriptors, entry.Sized)
    (hseparated : Separated descriptors) :
    (planOf descriptors).physicalBytes < u64Bound ∧ (planOf descriptors).gapBytes < u64Bound := by
  obtain ⟨groups, -, hgroups⟩ := rangesOf_groups hsized hseparated
  have hdescribed : ∀ range ∈ rangesOf (sortedEntries descriptors), ∃ seen, Describes seen range := by
    intro range hmem
    obtain ⟨seen, -, h⟩ := exists_group_of_mem hgroups hmem
    exact ⟨seen, h⟩
  have hphysical : (planOf descriptors).physicalBytes < u64Bound := by
    have hsum := @Interval.sum_lt_of_apart
      ((rangesOf (sortedEntries descriptors)).map fun range => (range.fileOffset, range.stop))
      u64Bound (by decide)
      (List.pairwise_map.mpr ((rangesOf_pairwise hsized hseparated).1.imp fun {a b} hab => by
        refine Finset.disjoint_left.mpr fun n hn hm => ?_
        have := (Finset.mem_Ico.mp hn).2
        have := (Finset.mem_Ico.mp hm).1
        simp only at *
        omega))
      (by
        intro x hx
        obtain ⟨range, hmem, rfl⟩ := List.mem_map.mp hx
        obtain ⟨seen, h⟩ := hdescribed range hmem
        exact h.stop_lt)
    rw [List.map_map] at hsum
    have hlengths : (rangesOf (sortedEntries descriptors)).map
        ((fun x : Nat × Nat => x.2 - x.1) ∘ fun range => (range.fileOffset, range.stop)) =
        (rangesOf (sortedEntries descriptors)).map PlannedReadRange.byteLength :=
      List.map_congr_left fun range _ => Nat.add_sub_cancel_left _ _
    rw [hlengths] at hsum
    exact hsum
  refine ⟨hphysical, Nat.lt_of_le_of_lt ?_ hphysical⟩
  refine List.sum_le_sum fun range hmem => ?_
  obtain ⟨seen, h⟩ := hdescribed range hmem
  rw [h.total]
  exact Nat.le_add_left _ _

theorem collectEntries_ne_panic {index logicalBytes : Nat} {ordered : List ReadEntry} :
    Total (collectEntries descriptors index ordered logicalBytes) := by
  induction descriptors generalizing index logicalBytes ordered with
  | nil => exact total_ok _
  | cons descriptor rest ih =>
    rw [collectEntries, TensorDescriptor.knownBytes]
    exact (total_okOr _ _).bind fun _ => (total_okOr _ _).bind fun _ =>
      (total_okOr _ _).bind fun _ => ih

/-- What the plan is, and when there is one. -/
theorem buildLayerReadPlan_cases (descriptors : List TensorDescriptor) :
    (((∀ descriptor ∈ descriptors, InFile descriptor) ∧ logicalSum descriptors < u64Bound ∧
        Separated descriptors) ∧ buildLayerReadPlan descriptors = .ok (planOf descriptors)) ∨
      (¬((∀ descriptor ∈ descriptors, InFile descriptor) ∧ logicalSum descriptors < u64Bound ∧
        Separated descriptors) ∧ ∃ message, buildLayerReadPlan descriptors = .err message) := by
  have hcollect := fun r => @collectEntries_eq_ok descriptors 0 0 [] r (by decide)
  rw [buildLayerReadPlan]
  cases hentries : collectEntries descriptors 0 [] 0 with
  | panic message => exact absurd hentries (collectEntries_ne_panic _)
  | err message =>
    refine .inr ⟨fun h => ?_, message, rfl⟩
    have hok := (hcollect _).mpr ⟨h.1, by rw [Nat.zero_add]; exact h.2.1, rfl⟩
    cases hentries.symm.trans hok
  | ok r =>
    obtain ⟨hinfile, hlogical, rfl⟩ := (hcollect r).mp hentries
    rw [Nat.zero_add] at hlogical ⊢
    rw [List.nil_append, ok_bind]
    have hsized := sized_sortedEntries hinfile
    rcases foldlM_sorted hsized with ⟨hseparated, hfold⟩ | ⟨hseparated, message, hfold⟩
    · obtain ⟨hphysical, hgap⟩ := planOf_bytes_lt hsized hseparated
      have hranges : ((entriesFrom descriptors 0).insertionSort ReadEntry.before).foldlM planEntry [] =
          ok (rangesOf (sortedEntries descriptors)) := hfold
      have hphysical := checkedSum_of_lt hphysical
      have hgap := checkedSum_of_lt hgap
      simp only [hranges, ok_bind, hphysical, hgap, okOr_some, pure_eq]
      exact .inl ⟨⟨hinfile, hlogical, hseparated⟩, rfl⟩
    · have hranges : ((entriesFrom descriptors 0).insertionSort ReadEntry.before).foldlM planEntry [] =
          err message := hfold
      simp only [hranges, err_bind]
      exact .inr ⟨fun h => hseparated h.2.2, message, rfl⟩

/-! ## Overlaps -/

/-- The bytes of the two tensors overlap in the file. -/
def Clash (a b : TensorDescriptor) : Prop :=
  a.fileOffset < b.fileOffset + lengthOf b ∧ b.fileOffset < a.fileOffset + lengthOf a

/-- A length is unknown, an end overflows, or two tensors overlap. -/
def Blamed (descriptors : List TensorDescriptor) : Prop :=
  (∃ descriptor ∈ descriptors, descriptor.byteLength = none) ∨
    (∃ descriptor ∈ descriptors, ∃ bytes, descriptor.byteLength = some bytes ∧
      u64Bound ≤ descriptor.fileOffset + bytes) ∨
    ¬descriptors.Pairwise fun a b => ¬Clash a b

/-- A tensor without bytes comes behind one with bytes that begins at its offset. -/
def Pinched (descriptors : List TensorDescriptor) : Prop :=
  ¬descriptors.Pairwise fun a b =>
    ¬(a.fileOffset = b.fileOffset ∧ 0 < lengthOf a ∧ lengthOf b = 0)

theorem Clash.symm {a b : TensorDescriptor} (h : Clash a b) : Clash b a := ⟨h.2, h.1⟩

theorem not_blamed : ¬Blamed descriptors ↔
    (∀ descriptor ∈ descriptors, InFile descriptor) ∧ descriptors.Pairwise fun a b => ¬Clash a b := by
  constructor
  · intro h
    obtain ⟨hknown, hends, hclash⟩ := not_or.mp h |>.imp_right not_or.mp
    refine ⟨fun descriptor hmem => ?_, not_not.mp hclash⟩
    cases hbytes : descriptor.byteLength with
    | none => exact absurd ⟨descriptor, hmem, hbytes⟩ hknown
    | some bytes =>
      refine ⟨bytes, hbytes, Nat.lt_of_not_le fun hge => hends ⟨descriptor, hmem, bytes, hbytes, hge⟩⟩
  · rintro ⟨hinfile, hclash⟩ (⟨descriptor, hmem, hnone⟩ | ⟨descriptor, hmem, bytes, hsome, hge⟩ | h)
    · obtain ⟨bytes, hbytes, -⟩ := hinfile descriptor hmem
      cases hnone.symm.trans hbytes
    · obtain ⟨bytes', hbytes, hlt⟩ := hinfile descriptor hmem
      cases hsome.symm.trans hbytes
      exact absurd hlt (Nat.not_lt.mpr hge)
    · exact h hclash

theorem logicalSum_lt (hinfile : ∀ descriptor ∈ descriptors, InFile descriptor)
    (hclash : descriptors.Pairwise fun a b => ¬Clash a b) : logicalSum descriptors < u64Bound := by
  have hsum := @Interval.sum_lt_of_apart (descriptors.map fun descriptor =>
      (descriptor.fileOffset, descriptor.fileOffset + lengthOf descriptor)) u64Bound (by decide)
    (List.pairwise_map.mpr (hclash.imp fun {a b} hab => by
      refine Finset.disjoint_left.mpr fun n hn hm => hab ?_
      obtain ⟨hfirst, hlast⟩ := Finset.mem_Ico.mp hn
      obtain ⟨hfirst', hlast'⟩ := Finset.mem_Ico.mp hm
      exact ⟨Nat.lt_of_le_of_lt hfirst hlast', Nat.lt_of_le_of_lt hfirst' hlast⟩))
    (by
      intro x hx
      obtain ⟨descriptor, hmem, rfl⟩ := List.mem_map.mp hx
      exact (sized_entryOf (hinfile descriptor hmem) 0).stop_lt)
  have hlengths : (descriptors.map
      ((fun x : Nat × Nat => x.2 - x.1) ∘ fun descriptor =>
        (descriptor.fileOffset, descriptor.fileOffset + lengthOf descriptor))) =
      descriptors.map lengthOf :=
    List.map_congr_left fun descriptor _ => Nat.add_sub_cancel_left _ _
  rw [List.map_map, hlengths] at hsum
  exact hsum

/-! ## The sorted entries -/

instance : Std.Total ReadEntry.before := ⟨fun a b => by unfold ReadEntry.before; omega⟩

instance : IsTrans ReadEntry ReadEntry.before :=
  ⟨fun a b c hab hbc => by unfold ReadEntry.before at *; omega⟩

theorem map_index_sortedEntries :
    ((sortedEntries descriptors).map ReadEntry.index).Perm (List.range descriptors.length) := by
  have hindex : (entriesFrom descriptors 0).map ReadEntry.index = List.range descriptors.length := by
    rw [entriesFrom, List.map_map, List.range_eq_range', ← List.zipIdx_map_snd]
    rfl
  rw [← hindex]
  exact (List.perm_insertionSort _ _).map _

theorem pairwise_sortedEntries : (sortedEntries descriptors).Pairwise fun a b =>
    ReadEntry.before a b ∧ a.index ≠ b.index := by
  have hnodup : ((sortedEntries descriptors).map ReadEntry.index).Nodup :=
    map_index_sortedEntries.nodup_iff.mpr List.nodup_range
  exact (List.pairwise_insertionSort _ _).and (List.pairwise_map.mp hnodup)

theorem pairwise_iff_getElem? {α : Type} {R : α → α → Prop} {l : List α} :
    l.Pairwise R ↔ ∀ (i j : Nat) (a b : α), i < j → l[i]? = some a → l[j]? = some b → R a b := by
  rw [List.pairwise_iff_getElem]
  constructor
  · intro h i j a b hlt hi hj
    obtain ⟨hilt, rfl⟩ := List.getElem?_eq_some_iff.mp hi
    obtain ⟨hjlt, rfl⟩ := List.getElem?_eq_some_iff.mp hj
    exact h i j hilt hjlt hlt
  · intro h i j hi hj hlt
    exact h i j _ _ hlt (List.getElem?_eq_getElem hi) (List.getElem?_eq_getElem hj)

/-- The entries of two places of the list come in one order or the other. -/
theorem Separated.of_getElem? (h : Separated descriptors) {i j : Nat} {a b : TensorDescriptor}
    (hi : descriptors[i]? = some a) (hj : descriptors[j]? = some b) (hne : i ≠ j) :
    (ReadEntry.before (entryOf a i) (entryOf b j) ∧
        a.fileOffset + lengthOf a ≤ b.fileOffset) ∨
      (ReadEntry.before (entryOf b j) (entryOf a i) ∧
        b.fileOffset + lengthOf b ≤ a.fileOffset) := by
  let R : ReadEntry → ReadEntry → Prop := fun x y =>
    (ReadEntry.before x y ∧ x.stop ≤ y.start) ∨ (ReadEntry.before y x ∧ y.stop ≤ x.start)
  have : Std.Symm R := ⟨fun x y hxy => hxy.symm⟩
  have hpairwise : (sortedEntries descriptors).Pairwise R :=
    (pairwise_sortedEntries.and h).imp fun {x y} hxy => .inl ⟨hxy.1.1, hxy.2⟩
  refine hpairwise.forall (mem_sortedEntries.mpr ⟨i, a, hi, rfl⟩)
    (mem_sortedEntries.mpr ⟨j, b, hj, rfl⟩) fun heq => hne ?_
  exact congrArg ReadEntry.index heq

/-- Tensors that do not overlap are separated, but where one is pinched. -/
theorem separated_iff (hclash : descriptors.Pairwise fun a b => ¬Clash a b) :
    Separated descriptors ↔ ¬Pinched descriptors := by
  rw [Pinched, not_not, pairwise_iff_getElem?]
  constructor
  · intro h i j a b hlt hi hj ⟨hstart, hlength, hempty⟩
    rcases h.of_getElem? hi hj (Nat.ne_of_lt hlt) with ⟨-, hstop⟩ | ⟨hbefore, -⟩
    · omega
    · unfold ReadEntry.before entryOf at hbefore
      simp only at hbefore
      omega
  · intro h
    refine pairwise_sortedEntries.imp_of_mem fun {x y} hx hy hxy => ?_
    obtain ⟨i, a, hi, rfl⟩ := mem_sortedEntries.mp hx
    obtain ⟨j, b, hj, rfl⟩ := mem_sortedEntries.mp hy
    obtain ⟨hbefore, hne⟩ := hxy
    simp only [ReadEntry.before, entryOf] at hbefore hne ⊢
    have hapart : ¬Clash a b := by
      rw [pairwise_iff_getElem?] at hclash
      rcases Nat.lt_or_gt_of_ne hne with hlt | hlt
      · exact hclash i j a b hlt hi hj
      · exact fun hab => hclash j i b a hlt hj hi hab.symm
    by_contra hoverlap
    -- only a tensor without bytes at the offset of the other one is left
    have hstart : a.fileOffset = b.fileOffset ∧ lengthOf b = 0 := by
      unfold Clash at hapart
      omega
    exact h i j a b (by omega) hi hj ⟨hstart.1, by omega, hstart.2⟩

theorem Separated.not_clash (h : Separated descriptors) :
    descriptors.Pairwise fun a b => ¬Clash a b := by
  refine pairwise_iff_getElem?.mpr fun i j a b hlt hi hj hclash => ?_
  unfold Clash at hclash
  rcases h.of_getElem? hi hj (Nat.ne_of_lt hlt) with ⟨-, hstop⟩ | ⟨-, hstop⟩ <;> omega

/-- When there is a plan. -/
theorem buildLayerReadPlan_ok_iff : (∃ plan, buildLayerReadPlan descriptors = .ok plan) ↔
    ¬Blamed descriptors ∧ ¬Pinched descriptors := by
  rw [not_blamed]
  rcases buildLayerReadPlan_cases descriptors with ⟨⟨hinfile, -, hseparated⟩, hplan⟩ | ⟨hnot, message, herr⟩
  · have hclash := hseparated.not_clash
    exact ⟨fun _ => ⟨⟨hinfile, hclash⟩, (separated_iff hclash).mp hseparated⟩, fun _ => ⟨_, hplan⟩⟩
  · refine ⟨fun h => ?_, fun h => ?_⟩
    · obtain ⟨plan, hplan⟩ := h
      cases herr.symm.trans hplan
    · obtain ⟨⟨hinfile, hclash⟩, hpinched⟩ := h
      exact absurd ⟨hinfile, logicalSum_lt hinfile hclash, (separated_iff hclash).mpr hpinched⟩ hnot

/-! ## Exactness -/

def lengthAt (descriptors : List TensorDescriptor) (index : Nat) : Nat :=
  (descriptors[index]?.map lengthOf).getD 0

structure Exact (descriptors : List TensorDescriptor) (plan : LayerReadPlan) : Prop where
  each_once : (plan.ranges.flatMap fun range => range.tensors.map PlannedTensor.descriptorIndex).Perm
    (List.range descriptors.length)
  placed : ∀ range ∈ plan.ranges, ∀ tensor ∈ range.tensors, ∃ descriptor bytes,
    descriptors[tensor.descriptorIndex]? = some descriptor ∧ descriptor.byteLength = some bytes ∧
      range.fileOffset + tensor.offsetInRange = descriptor.fileOffset ∧
      tensor.offsetInRange + bytes ≤ range.byteLength
  ordered : plan.ranges.Pairwise fun a b => a.fileOffset + a.byteLength ≤ b.fileOffset
  logical : plan.logicalTensorCount = descriptors.length ∧ plan.logicalBytes = logicalSum descriptors
  physical : plan.physicalBytes = (plan.ranges.map PlannedReadRange.byteLength).sum ∧
    plan.gapBytes = (plan.ranges.map PlannedReadRange.gapBytes).sum
  total : plan.physicalBytes = plan.logicalBytes + plan.gapBytes
  span : ∀ range ∈ plan.ranges, 1 < range.tensors.length → range.byteLength ≤ maxCoalescedSpanBytes
  gaps : ∀ range ∈ plan.ranges, range.tensors.IsChain fun a b =>
    b.offsetInRange - (a.offsetInRange + lengthAt descriptors a.descriptorIndex) ≤
      maxCoalescedGapBytes
  maximal : plan.ranges.IsChain fun a b => ¬Mergeable a b
  reusable : ∀ bytes, plan.reusableGroupBufferBytes = some bytes →
    ∀ range ∈ plan.ranges, range.byteLength ≤ bytes

theorem le_foldl_max {values : List Nat} {start value : Nat} (h : value ≤ start ∨ value ∈ values) :
    value ≤ values.foldl max start := by
  induction values generalizing start with
  | nil => exact h.resolve_right List.not_mem_nil
  | cons first rest ih =>
    refine ih ?_
    rcases h with h | h
    · exact .inl (Nat.le_trans h (Nat.le_max_left _ _))
    · rcases List.mem_cons.mp h with rfl | h
      · exact .inl (Nat.le_max_right _ _)
      · exact .inr h

theorem le_reusableGroupBufferBytes {plan : LayerReadPlan} {bytes : Nat}
    (h : plan.reusableGroupBufferBytes = some bytes) :
    ∀ range ∈ plan.ranges, range.byteLength ≤ bytes := by
  intro range hmem
  rw [reusableGroupBufferBytes] at h
  split at h
  next =>
    simp only at h
    split at h
    next =>
      cases h
      exact le_foldl_max (.inr (List.mem_map_of_mem hmem))
    next => cases h
  next => cases h

theorem flatMap_index {groups : List (List ReadEntry)} (h : List.Forall₂ Describes groups ranges) :
    (ranges.flatMap fun range => range.tensors.map PlannedTensor.descriptorIndex) =
      groups.flatten.map ReadEntry.index := by
  induction h with
  | nil => rfl
  | cons hfirst _ ih =>
    rw [List.flatMap_cons, List.flatten_cons, List.map_append, ih, hfirst.tensors, List.map_map]
    rfl

/-- The bytes read are those of the tensors and of the gaps. -/
theorem sum_byteLength {groups : List (List ReadEntry)} (h : List.Forall₂ Describes groups ranges) :
    (ranges.map PlannedReadRange.byteLength).sum =
      (groups.flatten.map ReadEntry.byteLength).sum +
        (ranges.map PlannedReadRange.gapBytes).sum := by
  induction h with
  | nil => rfl
  | cons hfirst _ ih =>
    rw [List.map_cons, List.sum_cons, List.map_cons, List.sum_cons, List.flatten_cons, List.map_append,
      List.sum_append, ih, hfirst.total, hfirst.logical]
    omega

theorem map_byteLength_entriesFrom (descriptors : List TensorDescriptor) (index : Nat) :
    (entriesFrom descriptors index).map ReadEntry.byteLength = descriptors.map lengthOf := by
  induction descriptors generalizing index with
  | nil => rfl
  | cons descriptor rest ih =>
    rw [entriesFrom_cons, List.map_cons, ih]
    rfl

theorem sum_sortedEntries :
    ((sortedEntries descriptors).map ReadEntry.byteLength).sum = logicalSum descriptors := by
  rw [logicalSum, ← map_byteLength_entriesFrom descriptors 0]
  exact ((List.perm_insertionSort _ _).map _).sum_eq

theorem exact_planOf (hinfile : ∀ descriptor ∈ descriptors, InFile descriptor)
    (hseparated : Separated descriptors) : Exact descriptors (planOf descriptors) := by
  have hsized := sized_sortedEntries hinfile
  obtain ⟨groups, hflatten, hgroups⟩ := rangesOf_groups hsized hseparated
  obtain ⟨hordered, hmaximal⟩ := rangesOf_pairwise hsized hseparated
  have hseen : ∀ seen ∈ groups, ∀ entry ∈ seen,
      ∃ i descriptor, descriptors[i]? = some descriptor ∧ entry = entryOf descriptor i := by
    intro seen hmem entry hentry
    refine mem_sortedEntries.mp ?_
    rw [← hflatten]
    exact List.mem_flatten.mpr ⟨seen, hmem, hentry⟩
  refine
    { each_once := ?_
      placed := ?_
      ordered := hordered
      logical := ⟨rfl, rfl⟩
      physical := ⟨rfl, rfl⟩
      total := ?_
      span := ?_
      gaps := ?_
      maximal := hmaximal
      reusable := fun bytes => le_reusableGroupBufferBytes }
  · have hindex := flatMap_index hgroups
    rw [hflatten] at hindex
    exact (List.Perm.of_eq hindex).trans map_index_sortedEntries
  · intro range hrange tensor htensor
    obtain ⟨seen, hmem, hdescribes⟩ := exists_group_of_mem hgroups hrange
    rw [hdescribes.tensors] at htensor
    obtain ⟨entry, hentry, rfl⟩ := List.mem_map.mp htensor
    obtain ⟨hfirst, hlast⟩ := hdescribes.within entry hentry
    obtain ⟨i, descriptor, hget, rfl⟩ := hseen seen hmem entry hentry
    obtain ⟨bytes, hbytes, -⟩ := hinfile descriptor (List.mem_of_getElem? hget)
    have hlength : lengthOf descriptor = bytes := by rw [lengthOf, hbytes, Option.getD_some]
    simp only [entryOf, PlannedReadRange.placed, PlannedReadRange.stop] at hfirst hlast ⊢
    exact ⟨descriptor, bytes, hget, hbytes, by omega, by omega⟩
  · have hsum := sum_byteLength hgroups
    rw [hflatten, sum_sortedEntries] at hsum
    exact hsum
  · intro range hrange hlength
    obtain ⟨seen, -, hdescribes⟩ := exists_group_of_mem hgroups hrange
    rw [hdescribes.tensors, List.length_map] at hlength
    exact hdescribes.span hlength
  · intro range hrange
    obtain ⟨seen, hmem, hdescribes⟩ := exists_group_of_mem hgroups hrange
    rw [hdescribes.tensors, List.isChain_map]
    refine hdescribes.gaps.imp_of_mem_imp fun a b ha hb hgap => ?_
    obtain ⟨hfirst, -⟩ := hdescribes.within a ha
    obtain ⟨i, descriptor, hget, rfl⟩ := hseen seen hmem a ha
    simp only [entryOf, PlannedReadRange.placed, lengthAt] at hfirst hgap ⊢
    rw [hget, Option.map_some, Option.getD_some]
    omega

/-- A plan is exact, and a list without one is to blame, unless a tensor is pinched. -/
theorem buildLayerReadPlan_exact_iff (descriptors : List TensorDescriptor) :
    ((∀ plan, buildLayerReadPlan descriptors = .ok plan → Exact descriptors plan) ∧
      ∀ message, buildLayerReadPlan descriptors = .err message → Blamed descriptors) ↔
    Blamed descriptors ∨ ¬Pinched descriptors := by
  have hexact : ∀ plan, buildLayerReadPlan descriptors = .ok plan → Exact descriptors plan := by
    intro plan hplan
    rcases buildLayerReadPlan_cases descriptors with ⟨⟨hinfile, -, hseparated⟩, hok⟩ | ⟨-, message, herr⟩
    · cases hplan.symm.trans hok
      exact exact_planOf hinfile hseparated
    · cases hplan.symm.trans herr
  constructor
  · rintro ⟨-, hblamed⟩
    rcases buildLayerReadPlan_cases descriptors with ⟨-, hok⟩ | ⟨-, message, herr⟩
    · exact .inr (buildLayerReadPlan_ok_iff.mp ⟨_, hok⟩).2
    · exact .inl (hblamed message herr)
  · intro h
    refine ⟨hexact, fun message herr => ?_⟩
    by_contra hblamed
    obtain ⟨plan, hok⟩ := buildLayerReadPlan_ok_iff.mpr ⟨hblamed, h.resolve_left hblamed⟩
    cases herr.symm.trans hok

/-! ## A tensor without bytes -/

def plainDescriptor (name : String) (fileOffset bytes : Nat) : TensorDescriptor where
  name := name
  dimensions := [bytes / 4]
  ggmlType := .f32
  offset := fileOffset
  fileOffset := fileOffset
  byteLength := some bytes
  numElements := bytes / 4

/-- The tensor without bytes comes behind the other one. -/
def pinchedDescriptors : List TensorDescriptor :=
  [plainDescriptor "a" 100 8, plainDescriptor "b" 100 0]

theorem pinched_fails :
    buildLayerReadPlan pinchedDescriptors = .err "tensor ranges overlap at descriptor index 1" ∧
      ¬Blamed pinchedDescriptors ∧
      (buildLayerReadPlan pinchedDescriptors.reverse).isOk = true := by
  refine ⟨by decide +kernel, not_blamed.mpr ⟨?_, ?_⟩, by decide +kernel⟩
  · intro descriptor hmem
    simp only [pinchedDescriptors, List.mem_cons, List.not_mem_nil, or_false] at hmem
    rcases hmem with rfl | rfl
    · exact ⟨8, rfl, by decide⟩
    · exact ⟨0, rfl, by decide⟩
  · refine List.pairwise_pair.mpr fun h => ?_
    exact absurd h.1 (by decide)

end LayerReadPlan
end Ramforge
