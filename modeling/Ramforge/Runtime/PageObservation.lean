/-
What a page observation accounts for.

A round of the page loop either reuses a page that has been seen, or asks for a run of
pages that have not, within what is left of the page budget.
-/
import Ramforge.Runtime.PagePopulation
import Ramforge.Rust.Ends

namespace Ramforge
namespace PageResidency

open Std Rust Rust.Exec

/-! ## Runs -/

/-- What the inner loop finds: pages that have not been seen, and at least one if it can. -/
structure FreshRun (seen : Nat → Bool) (limit page count : Nat) : Prop where
  le : count ≤ limit
  fresh : ∀ offset < count, seen (page + offset) = false
  pos : seen page = false → 0 < limit → 0 < count

theorem freshRun_runLength (seen : Nat → Bool) (limit page : Nat) :
    FreshRun seen limit page (runLength seen limit page) := by
  induction limit generalizing page with
  | zero =>
    exact
      { le := Nat.le_refl _
        fresh := fun _ h => absurd h (Nat.not_lt_zero _)
        pos := fun _ h => absurd h (Nat.not_lt_zero _) }
  | succ limit ih =>
    have hrest := ih (page + 1)
    unfold runLength
    split
    next hpage =>
      exact
        { le := Nat.zero_le _
          fresh := fun _ h => absurd h (Nat.not_lt_zero _)
          pos := fun h => by rw [hpage] at h; cases h }
    next hpage =>
      refine { le := Nat.succ_le_succ hrest.le, fresh := fun offset h => ?_,
               pos := fun _ _ => Nat.succ_pos _ }
      cases offset with
      | zero => exact Bool.not_eq_true _ ▸ hpage
      | succ offset =>
        have hnext := hrest.fresh offset (Nat.lt_of_succ_lt_succ h)
        rwa [Nat.add_assoc, Nat.add_comm 1] at hnext

/-- What recording the answers for a run does. -/
structure Recorded (mappingIndex page count : Nat) (resource : ResourcePageResidency)
    (s : Sampling) (r : ResourcePageResidency × Sampling) : Prop where
  resource_eq : ∃ resident nonresident, resident + nonresident = count ∧
    r.1 =
      { resource with
        residentPages := resource.residentPages + resident
        nonresidentPages := resource.nonresidentPages + nonresident }
  inspected : r.2.inspected =
    s.inspected ++ (List.range count).map fun offset => (mappingIndex, page + offset)
  size : r.2.observed.size = s.observed.size + count
  mem : ∀ key, key ∈ r.2.observed ↔
    key ∈ s.observed ∨ ∃ offset < count, key = (mappingIndex, page + offset)

theorem recorded_record {mappingIndex page count : Nat} (status : Nat → UInt8)
    (resource : ResourcePageResidency) {s : Sampling}
    (hfresh : ∀ offset < count, (mappingIndex, page + offset) ∉ s.observed) :
    Recorded mappingIndex page count resource s
      (record mappingIndex status page count resource s) := by
  induction count with
  | zero =>
    exact
      { resource_eq := ⟨0, 0, rfl, rfl⟩
        inspected := (List.append_nil _).symm
        size := rfl
        mem := fun key => by simp [record] }
  | succ count ih =>
    have hrun := ih fun offset hoffset => hfresh offset (Nat.lt_succ_of_lt hoffset)
    have hnew : (mappingIndex, page + count) ∉
        (record mappingIndex status page count resource s).2.observed := by
      rw [hrun.mem]
      rintro (hold | ⟨offset, hlt, heq⟩)
      · exact hfresh count (Nat.lt_succ_self _) hold
      · rw [Prod.mk.injEq] at heq
        omega
    have hstep : record mappingIndex status page (count + 1) resource s =
        (countPage (record mappingIndex status page count resource s).1 (status count &&& 1 ≠ 0),
          { (record mappingIndex status page count resource s).2 with
            observed := (record mappingIndex status page count resource s).2.observed.insert
              (mappingIndex, page + count) (status count &&& 1 ≠ 0)
            inspected := (record mappingIndex status page count resource s).2.inspected ++
              [(mappingIndex, page + count)] }) := by
      rw [record, List.range_succ, List.foldl_append]
      rfl
    rw [hstep]
    generalize decide (status count &&& 1 ≠ 0) = resident
    refine ⟨?_, ?_, ?_, fun key => ?_⟩
    · obtain ⟨before, other, hsum, heq⟩ := hrun.resource_eq
      rw [heq]
      cases resident with
      | true => exact ⟨before + 1, other, by omega, by simp [countPage, Nat.add_assoc]⟩
      | false => exact ⟨before, other + 1, by omega, by simp [countPage, Nat.add_assoc]⟩
    · show _ ++ [(mappingIndex, page + count)] = _
      rw [hrun.inspected, List.range_succ, List.map_append, List.append_assoc]
      rfl
    · show ((record mappingIndex status page count resource s).2.observed.insert _ _).size = _
      rw [ExtTreeMap.size_insert, if_neg (fun h => hnew (ExtTreeMap.contains_iff_mem.mp h)),
        hrun.size, Nat.add_assoc]
    · show key ∈ (record mappingIndex status page count resource s).2.observed.insert _ _ ↔ _
      rw [ExtTreeMap.mem_insert, hrun.mem, Std.LawfulEqCmp.compare_eq_iff_eq]
      constructor
      · rintro (rfl | hold | ⟨offset, hlt, rfl⟩)
        · exact .inr ⟨count, Nat.lt_succ_self _, rfl⟩
        · exact .inl hold
        · exact .inr ⟨offset, Nat.lt_succ_of_lt hlt, rfl⟩
      · rintro (hold | ⟨offset, hlt, rfl⟩)
        · exact .inr (.inl hold)
        · rcases Nat.lt_succ_iff_lt_or_eq.mp hlt with hlt | rfl
          · exact .inr (.inr ⟨offset, hlt, rfl⟩)
          · exact .inl rfl

/-! ## One resource -/

/-- The pages seen are the pages asked for, each once and within the budget. -/
structure Sampling.Good (config : PageObservationConfig) (s : Sampling) : Prop where
  nodup : s.inspected.Nodup
  mem : ∀ key, key ∈ s.inspected ↔ key ∈ s.observed
  size : s.observed.size = s.inspected.length
  le : s.observed.size ≤ config.maxPages

theorem Sampling.Good.start (config : PageObservationConfig) : Sampling.start.Good config where
  nodup := List.nodup_nil
  mem key := by simp [Sampling.start]
  size := rfl
  le := Nat.zero_le _

theorem Sampling.Good.called {config : PageObservationConfig} {s : Sampling} (h : s.Good config)
    (calls : Nat) : Sampling.Good config { s with calls := calls } :=
  ⟨h.nodup, h.mem, h.size, h.le⟩

theorem Recorded.good {config : PageObservationConfig} {mappingIndex page count : Nat}
    {resource : ResourcePageResidency} {s : Sampling} {r : ResourcePageResidency × Sampling}
    (h : Recorded mappingIndex page count resource s r) (hgood : s.Good config)
    (hfresh : ∀ offset < count, (mappingIndex, page + offset) ∉ s.observed)
    (hbudget : s.observed.size + count ≤ config.maxPages) : r.2.Good config where
  nodup := by
    rw [h.inspected]
    refine hgood.nodup.append ?_ fun key hold hnew => ?_
    · refine List.nodup_range.map fun a b hab => ?_
      rw [Prod.mk.injEq] at hab
      omega
    · obtain ⟨offset, hlt, rfl⟩ := List.mem_map.mp hnew
      exact hfresh offset (List.mem_range.mp hlt) ((hgood.mem _).mp hold)
  mem key := by
    rw [h.inspected, List.mem_append, hgood.mem, h.mem, List.mem_map]
    simp only [List.mem_range, eq_comm]
  size := by
    rw [h.size, h.inspected, List.length_append, List.length_map, List.length_range, hgood.size]
  le := by rw [h.size]; exact hbudget

/-- The fields of a resource that stand for its range. -/
structure Describes (selected : ExtTreeSet String) (range : PageRange)
    (r : ResourcePageResidency) : Prop where
  name : r.name = range.name
  tensorIndex : r.tensorIndex = range.tensorIndex
  generation : r.generation = range.generation
  mappingIndex : r.mappingIndex = range.mappingIndex
  totalPages : r.totalPages = pageCount range
  targeted : r.targeted = selected.contains range.name

theorem describes_unknown (selected : ExtTreeSet String) (range : PageRange)
    (error : Option String) : Describes selected range (unknownResource selected range error) :=
  ⟨rfl, rfl, rfl, rfl, rfl, rfl⟩

/-- The `i`-th page of a range. -/
def pageKey (range : PageRange) (mappingIndex i : Nat) : Nat × Nat :=
  (mappingIndex, range.pageStart / range.pageSize + i)

section inspect

variable {config : PageObservationConfig} {selected : ExtTreeSet String} {range : PageRange}
  {mappingIndex : Nat} {s₀ s : Sampling}

/-- From `s₀` on only some of the given pages have been added, and none to a used-up budget. -/
structure Extends (config : PageObservationConfig) (pages : Set (Nat × Nat)) (s₀ s : Sampling) :
    Prop where
  good : s.Good config
  size_le : s₀.observed.size ≤ s.observed.size
  grows : ∀ key ∈ s₀.observed, key ∈ s.observed
  new : ∀ key ∈ s.observed, key ∈ s₀.observed ∨ key ∈ pages
  full : config.maxPages ≤ s₀.observed.size → s = s₀

theorem Extends.refl {pages : Set (Nat × Nat)} (h : s.Good config) : Extends config pages s s where
  good := h
  size_le := Nat.le_refl _
  grows _ h := h
  new _ h := .inl h
  full _ := rfl

theorem Extends.trans {pages pages' : Set (Nat × Nat)} {s' : Sampling}
    (h : Extends config pages s₀ s) (h' : Extends config pages' s s') :
    Extends config (pages ∪ pages') s₀ s' where
  good := h'.good
  size_le := h.size_le.trans h'.size_le
  grows key hkey := h'.grows key (h.grows key hkey)
  new key hkey := by
    rcases h'.new key hkey with hold | hnew
    · exact (h.new key hold).imp_right .inl
    · exact .inr (.inr hnew)
  full hfull := by
    rw [h'.full (hfull.trans h.size_le), h.full hfull]

theorem Extends.mono {pages pages' : Set (Nat × Nat)} (h : Extends config pages s₀ s)
    (hsubset : pages ⊆ pages') : Extends config pages' s₀ s where
  good := h.good
  size_le := h.size_le
  grows := h.grows
  new key hkey := (h.new key hkey).imp_right fun hnew => hsubset hnew
  full := h.full

/-- The pages that the loop goes through. -/
def scannedPages (range : PageRange) (mappingIndex : Nat) : Set (Nat × Nat) :=
  {key | ∃ i < pageCount range, key = pageKey range mappingIndex i}

/-- The pages before `pages` are inspected and counted. -/
structure Counted (selected : ExtTreeSet String) (range : PageRange) (mappingIndex pages : Nat)
    (r : ResourcePageResidency) (s : Sampling) : Prop where
  describes : Describes selected range r
  inspected : r.inspectedPages = pages
  split : r.residentPages + r.nonresidentPages = r.inspectedPages
  le : pages ≤ pageCount range
  seen : ∀ i < pages, pageKey range mappingIndex i ∈ s.observed

/-- A page that has been seen is counted again, for the resource. -/
theorem Counted.reuse {pages : Nat} {r : ResourcePageResidency} (resident : Bool)
    (h : Counted selected range mappingIndex pages r s) (hlt : pages < pageCount range)
    (hseen : pageKey range mappingIndex pages ∈ s.observed) :
    Counted selected range mappingIndex (pages + 1)
      (countPage { r with inspectedPages := r.inspectedPages + 1 } resident) s := by
  have hd := h.describes
  have hinspected := h.inspected
  have hsplit := h.split
  refine ⟨?_, ?_, ?_, hlt, fun i hi => ?_⟩
  · cases resident <;>
      exact ⟨hd.name, hd.tensorIndex, hd.generation, hd.mappingIndex, hd.totalPages, hd.targeted⟩
  · cases resident <;> exact congrArg (· + 1) hinspected
  · cases resident <;> simp only [countPage, if_true, if_false, Bool.false_eq_true] <;> omega
  · rcases Nat.lt_succ_iff_lt_or_eq.mp hi with hi | rfl
    · exact h.seen i hi
    · exact hseen

/-- A run of fresh pages is added and counted. -/
theorem Counted.run {pages count : Nat} {r : ResourcePageResidency}
    {recorded : ResourcePageResidency × Sampling}
    (h : Counted selected range mappingIndex pages r s) (hle : pages + count ≤ pageCount range)
    (hrun : Recorded mappingIndex (range.pageStart / range.pageSize + pages) count r s recorded) :
    Counted selected range mappingIndex (pages + count)
      { recorded.1 with inspectedPages := recorded.1.inspectedPages + count } recorded.2 := by
  have hd := h.describes
  have hinspected := h.inspected
  have hsplit := h.split
  obtain ⟨resident, nonresident, hsum, heq⟩ := hrun.resource_eq
  rw [heq]
  refine ⟨?_, ?_, ?_, hle, fun i hi => ?_⟩
  · exact ⟨hd.name, hd.tensorIndex, hd.generation, hd.mappingIndex, hd.totalPages, hd.targeted⟩
  · show r.inspectedPages + count = _
    rw [hinspected]
  · show r.residentPages + resident + (r.nonresidentPages + nonresident) = r.inspectedPages + count
    omega
  · rw [hrun.mem]
    by_cases hold : i < pages
    · exact .inl (h.seen i hold)
    · refine .inr ⟨i - pages, by omega, ?_⟩
      rw [pageKey, Nat.add_assoc, Nat.add_sub_cancel' (Nat.not_lt.mp hold)]

theorem Counted.withError {pages : Nat} {r : ResourcePageResidency} (error : Option String)
    (calls : Nat) (h : Counted selected range mappingIndex pages r s) :
    Counted selected range mappingIndex pages { r with error := error }
      { s with calls := calls } := by
  have hd := h.describes
  exact ⟨⟨hd.name, hd.tensorIndex, hd.generation, hd.mappingIndex, hd.totalPages, hd.targeted⟩,
    h.inspected, h.split, h.le, h.seen⟩

theorem Extends.run {pages count : Nat} {r : ResourcePageResidency}
    {recorded : ResourcePageResidency × Sampling}
    (h : Extends config (scannedPages range mappingIndex) s₀ s) (hle : pages + count ≤ pageCount range)
    (hpos : 0 < count) (hbudget : s.observed.size + count ≤ config.maxPages)
    (hfresh : ∀ offset < count,
      (mappingIndex, range.pageStart / range.pageSize + pages + offset) ∉ s.observed)
    (hrun : Recorded mappingIndex (range.pageStart / range.pageSize + pages) count r s recorded) :
    Extends config (scannedPages range mappingIndex) s₀ recorded.2 where
  good := hrun.good h.good hfresh hbudget
  size_le := by
    rw [hrun.size]
    exact h.size_le.trans (Nat.le_add_right _ _)
  grows key hkey := (hrun.mem key).mpr (.inl (h.grows key hkey))
  new key hkey := by
    rcases (hrun.mem key).mp hkey with hold | ⟨offset, hlt, rfl⟩
    · exact h.new key hold
    · exact .inr ⟨pages + offset, by omega, by rw [pageKey, Nat.add_assoc]⟩
  full hfull := by
    have := h.size_le
    omega

/-- The loop over the pages of a resource stops behind the last page, at an error, or with
the budget used up. -/
theorem inspectPages_ends (kernel : Kernel) (pageSize base : Nat)
    {resource : ResourcePageResidency}
    (hstart : Counted selected range mappingIndex 0 resource s₀) (herror : resource.error = none)
    (hgood : s₀.Good config) :
    Ends (inspectPages kernel config pageSize range mappingIndex base resource) s₀
      (fun r t => Extends config (scannedPages range mappingIndex) s₀ t ∧
        Counted selected range mappingIndex r.inspectedPages r t ∧
        (r.error = none → r.inspectedPages = pageCount range ∨ config.maxPages ≤ t.observed.size))
      (fun e _ => e.elim) (fun _ _ => isizeBound ≤ config.maxPages) := by
  have htotal := hstart.describes.totalPages
  refine Ends.loopOn (I := fun scan s => Extends config (scannedPages range mappingIndex) s₀ s ∧
    Counted selected range mappingIndex scan.pageIndex scan.resource s ∧
    scan.resource.error = none) ?_ ⟨.refl hgood, hstart, herror⟩
  rintro scan s ⟨hext, hcount, hnone⟩
  have htotal' := hcount.describes.totalPages
  have hcount' : Counted selected range mappingIndex scan.resource.inspectedPages scan.resource s :=
    hcount.inspected ▸ hcount
  simp only [inspectRound, ends_bind, ends_self]
  by_cases hdone : scan.resource.totalPages ≤ scan.pageIndex
  · rw [if_pos hdone]
    refine ⟨hext, hcount', fun _ => .inl ?_⟩
    have := hcount.le
    have := hcount.inspected
    omega
  rw [if_neg hdone]
  cases hseen : s.observed[(mappingIndex, range.pageStart / range.pageSize + scan.pageIndex)]? with
  | some resident =>
    have hmem : pageKey range mappingIndex scan.pageIndex ∈ s.observed :=
      ExtTreeMap.mem_iff_isSome_getElem?.mpr (by rw [pageKey, hseen]; rfl)
    show (Extends config (scannedPages range mappingIndex) s₀ s ∧ _ ∧ _) ∧ _
    refine ⟨⟨hext, hcount.reuse resident (by omega) hmem, ?_⟩, ?_⟩
    · cases resident <;> exact hnone
    · show resource.totalPages - (scan.pageIndex + 1) < resource.totalPages - scan.pageIndex
      omega
  | none =>
    have hfirst : s.observed.contains
        (mappingIndex, range.pageStart / range.pageSize + scan.pageIndex) = false := by
      rw [ExtTreeMap.contains_eq_isSome_getElem?, hseen]
      rfl
    have hrun := freshRun_runLength (fun page => s.observed.contains (mappingIndex, page))
      (min (scan.resource.totalPages - scan.pageIndex)
        (saturatingSub config.maxPages s.observed.size))
      (range.pageStart / range.pageSize + scan.pageIndex)
    generalize runLength (fun page => s.observed.contains (mappingIndex, page)) _ _ = runLen at *
    have hle := hrun.le
    have hbudget := hext.good.le
    unfold saturatingSub at *
    by_cases hstop : config.maxPages - s.observed.size = 0 ∨ runLen = 0
    · simp only [if_pos hstop]
      refine ⟨hext, hcount', fun _ => .inr ?_⟩
      by_cases hfull : config.maxPages ≤ s.observed.size
      · exact hfull
      · have := hrun.pos hfirst (by omega)
        omega
    simp only [if_neg hstop]
    cases checkedAdd base (saturatingMul scan.pageIndex pageSize) with
    | none => exact ⟨hext, hcount'.withError _ s.calls, fun h => by cases h⟩
    | some address =>
      by_cases hcapacity : isizeBound ≤ runLen
      · simp only [if_pos hcapacity]
        show isizeBound ≤ config.maxPages
        omega
      simp only [if_neg hcapacity]
      cases kernel.mincore s.calls address (saturatingMul runLen pageSize) with
      | error text =>
        have hsize := hext.size_le
        exact ⟨⟨hext.good.called _, hsize, hext.grows, hext.new, fun hfull => by omega⟩,
          hcount'.withError _ _, fun h => by cases h⟩
      | ok status =>
        have hfresh : ∀ offset < runLen, (mappingIndex,
            range.pageStart / range.pageSize + scan.pageIndex + offset) ∉ s.observed := by
          intro offset hlt hmem
          have hnot := hrun.fresh offset hlt
          rw [ExtTreeMap.contains_iff_mem.mpr hmem] at hnot
          cases hnot
        have hcalled := recorded_record (s := { s with calls := s.calls + 1 }) status scan.resource
          hfresh
        have hrecorded : Recorded mappingIndex (range.pageStart / range.pageSize + scan.pageIndex)
            runLen scan.resource s _ :=
          ⟨hcalled.resource_eq, hcalled.inspected, hcalled.size, hcalled.mem⟩
        have hwhole : scan.pageIndex + runLen ≤ pageCount range := by omega
        show (Extends config (scannedPages range mappingIndex) s₀ _ ∧ _ ∧ _) ∧ _
        refine ⟨⟨hext.run hwhole (by omega) (by omega) hfresh hrecorded,
          hcount.run hwhole hrecorded, ?_⟩, ?_⟩
        · obtain ⟨_, _, -, heq⟩ := hrecorded.resource_eq
          rw [heq]
          exact hnone
        · show resource.totalPages - (scan.pageIndex + runLen) < resource.totalPages - scan.pageIndex
          omega

/-! ## All resources -/

theorem touches_pageKey {i : Nat} (hmapping : range.mappingIndex = some mappingIndex)
    (hi : i < pageCount range) : range.Touches (pageKey range mappingIndex i) := by
  unfold pageCount at hi
  split at hi
  next => exact absurd hi (Nat.not_lt_zero _)
  next hrange =>
    rw [not_or, Nat.not_le] at hrange
    have hsize := Nat.pos_of_ne_zero hrange.1
    have hoffset := (lt_divCeil hsize).mp hi
    have hbegin := Nat.div_mul_le_self range.pageStart range.pageSize
    have hfirst := (div_le (p := range.pageStart / range.pageSize) hsize).mp (Nat.le_refl _)
    refine ⟨hmapping, hrange.2, hsize, ?_, ?_⟩
    · show (range.pageStart / range.pageSize + i) * range.pageSize < range.pageEnd
      rw [Nat.add_mul]
      omega
    · show range.pageStart < (range.pageStart / range.pageSize + i + 1) * range.pageSize
      refine Nat.lt_of_lt_of_le hfirst (Nat.mul_le_mul_right _ ?_)
      omega

/-- The start of a range that is not empty is the start of a page. -/
def Aligned (range : PageRange) : Prop :=
  range.pageStart < range.pageEnd → range.pageStart % range.pageSize = 0

theorem exists_pageKey {key : Nat × Nat} (haligned : Aligned range) (h : range.Touches key) :
    ∃ i < pageCount range, key = pageKey range key.1 i := by
  have hsize := h.pageSize
  have hstart : range.pageStart / range.pageSize * range.pageSize = range.pageStart :=
    Nat.div_mul_cancel (Nat.dvd_of_mod_eq_zero (haligned h.nonempty))
  have hle := (div_le hsize).mpr h.behind_start
  have hnot : ¬(range.pageSize = 0 ∨ range.pageEnd ≤ range.pageStart) := by
    have := h.nonempty
    omega
  refine ⟨key.2 - range.pageStart / range.pageSize, ?_, ?_⟩
  · have hend := h.before_end
    rw [pageCount, if_neg hnot, lt_divCeil hsize, Nat.sub_mul, hstart]
    have := h.nonempty
    omega
  · rw [pageKey, Nat.add_sub_cancel' hle]

/-- What a snapshot says about a resource is what has been seen. -/
structure Accounted (config : PageObservationConfig) (selected : ExtTreeSet String)
    (range : PageRange) (s : Sampling) (r : ResourcePageResidency) : Prop where
  describes : Describes selected range r
  split : r.residentPages + r.nonresidentPages = r.inspectedPages
  total : r.inspectedPages + r.unknownPages = r.totalPages
  complete : r.unknownPages = 0 → ∀ key, range.Touches key → key ∈ s.observed
  budget : r.error = none → r.unknownPages = 0 ∨ config.maxPages ≤ s.observed.size

theorem Accounted.extends {pages : Set (Nat × Nat)} {r : ResourcePageResidency}
    (h : Accounted config selected range s₀ r) (hextends : Extends config pages s₀ s) :
    Accounted config selected range s r where
  describes := h.describes
  split := h.split
  total := h.total
  complete hzero key hkey := hextends.grows key (h.complete hzero key hkey)
  budget hnone := (h.budget hnone).imp_right fun hfull => hfull.trans hextends.size_le

/-- A resource that is left unknown for another reason than the budget. -/
theorem accounted_unknown (haligned : Aligned range) (error : String) :
    Accounted config selected range s (unknownResource selected range (some error)) where
  describes := describes_unknown selected range _
  split := rfl
  total := Nat.zero_add _
  complete hzero key hkey := by
    obtain ⟨i, hi, -⟩ := exists_pageKey haligned hkey
    have hzero : pageCount range = 0 := hzero
    omega
  budget hnone := by cases hnone

theorem observeRange_ends (kernel : Kernel) (pageSize : Nat) (bases : Bases)
    (haligned : Aligned range) (hgood : s.Good config) :
    Ends (observeRange kernel config pageSize bases selected range) s
      (fun r t =>
        Extends config {key | availableFor bases range = true ∧ range.Touches key} s t ∧
          Accounted config selected range t r)
      (fun e _ => e.elim) (fun _ _ => isizeBound ≤ config.maxPages) := by
  have hunknown : ∀ error,
      Extends config {key | availableFor bases range = true ∧ range.Touches key} s s ∧
        Accounted config selected range s (unknownResource selected range (some error)) :=
    fun error => ⟨.refl hgood, accounted_unknown haligned error⟩
  unfold observeRange
  by_cases hempty : pageCount range = 0
  · rw [if_pos hempty]
    refine ⟨.refl hgood, describes_unknown selected range none, rfl, Nat.zero_add _,
      fun _ key hkey => ?_, fun _ => .inl hempty⟩
    obtain ⟨i, hi, -⟩ := exists_pageKey haligned hkey
    omega
  rw [if_neg hempty]
  cases hmapping : range.mappingIndex with
  | none => exact hunknown _
  | some mappingIndex =>
    cases hpath : range.mappingPath with
    | none => exact hunknown _
    | some path =>
      simp only
      cases hbase : bases.lookup (Planner.pathComponents path) with
      | none => exact hunknown _
      | some base =>
        simp only
        cases haddress : checkedAdd base range.pageStart with
        | none => exact hunknown _
        | some address =>
          have havailable : availableFor bases range = true := by
            rw [availableFor, hmapping, hpath]
            show (_ && (bases.lookup (Planner.pathComponents path)).isSome) = true
            rw [hbase]
            rfl
          have hstart : Counted selected range mappingIndex 0
              (unknownResource selected range none) s :=
            ⟨describes_unknown selected range none, rfl, rfl, Nat.zero_le _,
              fun i hi => absurd hi (Nat.not_lt_zero i)⟩
          refine (inspectPages_ends kernel pageSize address hstart rfl hgood).bind
            fun r t hr => ?_
          obtain ⟨hextends, hcount, hbudget⟩ := hr
          have hd := hcount.describes
          have hle := hcount.le
          refine ⟨hextends.mono ?_,
            ⟨hd.name, hd.tensorIndex, hd.generation, hd.mappingIndex, hd.totalPages, hd.targeted⟩,
            hcount.split, ?_, fun hzero key hkey => ?_, fun hnone => ?_⟩
          · rintro key ⟨i, hi, rfl⟩
            exact ⟨havailable, touches_pageKey hmapping hi⟩
          · show r.inspectedPages + (r.totalPages - r.inspectedPages) = r.totalPages
            rw [hd.totalPages]
            omega
          · have hzero : r.totalPages - r.inspectedPages = 0 := hzero
            rw [hd.totalPages] at hzero
            obtain ⟨i, hi, heq⟩ := exists_pageKey haligned hkey
            have hkeyMapping : key.1 = mappingIndex :=
              Option.some.inj (hkey.mapping.symm.trans hmapping)
            rw [heq, hkeyMapping]
            exact hcount.seen i (by omega)
          · refine (hbudget hnone).imp_left fun hall => ?_
            show r.totalPages - r.inspectedPages = 0
            rw [hd.totalPages, hall, Nat.sub_self]

/-- The loop over the processed resources. -/
theorem observeRanges_ends (kernel : Kernel) (pageSize : Nat) (bases : Bases)
    {ranges : List PageRange} (haligned : ∀ range ∈ ranges, Aligned range)
    (hgood : s.Good config) :
    Ends (ranges.mapM (observeRange kernel config pageSize bases selected)) s
      (fun rs t => Extends config (availablePages bases ranges) s t ∧
        List.Forall₂ (fun range r => Accounted config selected range t r) ranges rs)
      (fun e _ => e.elim) (fun _ _ => isizeBound ≤ config.maxPages) := by
  induction ranges generalizing s with
  | nil => exact ⟨.refl hgood, .nil⟩
  | cons range rest ih =>
    rw [List.mapM_cons]
    refine (observeRange_ends kernel pageSize bases (haligned range List.mem_cons_self) hgood).bind
      fun r t hr => ?_
    obtain ⟨hextends, haccounted⟩ := hr
    refine (ih (fun other hother => haligned other (List.mem_cons_of_mem _ hother))
      hextends.good).bind fun rs t' hrs => ?_
    obtain ⟨hrest, hall⟩ := hrs
    rw [availablePages_cons]
    exact ⟨hextends.trans hrest, .cons (haccounted.extends hrest) hall⟩

end inspect

/-! ## The order -/

section order

variable {selected : ExtTreeSet String}

instance : Std.Total (orderLe selected) := ⟨fun a b => by unfold orderLe; omega⟩

instance : IsTrans (PageRange × Nat) (orderLe selected) :=
  ⟨fun a b c hab hbc => by unfold orderLe at *; omega⟩

theorem orderOf_perm (ranges : List PageRange) : (orderOf selected ranges).Perm ranges := by
  have hperm := (List.perm_insertionSort (orderLe selected) ranges.zipIdx).map Prod.fst
  rwa [List.zipIdx_map_fst] at hperm

/-- A list in which nothing chosen follows something else. -/
theorem exists_front {α : Type} {p : α → Bool} {xs : List α}
    (h : xs.Pairwise fun a b => p b = true → p a = true) :
    ∃ front back, xs = front ++ back ∧ (∀ a ∈ front, p a = true) ∧ ∀ b ∈ back, p b = false := by
  induction xs with
  | nil => exact ⟨[], [], rfl, fun _ h => (by cases h), fun _ h => (by cases h)⟩
  | cons a rest ih =>
    obtain ⟨hhead, hrest⟩ := List.pairwise_cons.mp h
    by_cases ha : p a = true
    · obtain ⟨front, back, heq, hfront, hback⟩ := ih hrest
      exact ⟨a :: front, back, by rw [heq]; rfl, List.forall_mem_cons.mpr ⟨ha, hfront⟩, hback⟩
    · have ha := Bool.not_eq_true _ ▸ ha
      refine ⟨[], a :: rest, rfl, fun _ h => (by cases h), List.forall_mem_cons.mpr ⟨ha, ?_⟩⟩
      intro b hb
      by_contra hother
      rw [hhead b hb (Bool.not_eq_false _ ▸ hother)] at ha
      cases ha

theorem orderOf_front (selected : ExtTreeSet String) (ranges : List PageRange) :
    ∃ front back, orderOf selected ranges = front ++ back ∧
      (∀ range ∈ front, selected.contains range.name = true) ∧
      ∀ range ∈ back, selected.contains range.name = false := by
  refine exists_front (p := fun range : PageRange => selected.contains range.name) ?_
  refine List.Pairwise.map _ (fun a b hab hb => ?_)
    (List.pairwise_insertionSort (orderLe selected) ranges.zipIdx)
  unfold orderLe at hab
  simp only [hb] at hab
  by_contra hother
  simp only [Bool.not_eq_true _ ▸ hother] at hab
  rcases hab with hlt | ⟨heq, -⟩
  · exact absurd hlt (by decide)
  · exact absurd heq (by decide)

end order

/-! ## The snapshot -/

section snapshot

variable {build : Build} {config : PageObservationConfig} {selected : ExtTreeSet String}
  {bases : Bases} {ranges : List PageRange}

theorem exists_of_mem_right {α β : Type} {R : α → β → Prop} {xs : List α} {ys : List β}
    (h : List.Forall₂ R xs ys) {y : β} (hy : y ∈ ys) : ∃ x ∈ xs, R x y := by
  induction h with
  | nil => cases hy
  | cons hxy _ ih =>
    rcases List.mem_cons.mp hy with rfl | hy
    · exact ⟨_, List.mem_cons_self, hxy⟩
    · obtain ⟨x, hx, hR⟩ := ih hy
      exact ⟨x, List.mem_cons_of_mem _ hx, hR⟩

theorem availablePages_append (front back : List PageRange) :
    availablePages bases (front ++ back) = availablePages bases front ∪ availablePages bases back := by
  ext key
  simp [availablePages, or_and_right, exists_or]

theorem availablePages_subset {ranges' : List PageRange} (h : ∀ range ∈ ranges, range ∈ ranges') :
    availablePages bases ranges ⊆ availablePages bases ranges' := by
  rintro key ⟨range, hrange, hkey⟩
  exact ⟨range, h range hrange, hkey⟩

/-- What the loop over the processed resources leaves.  The selected ones come first: if one
of them lacks budget, none is left for the others. -/
theorem processed_ends (config : PageObservationConfig) (selected : ExtTreeSet String)
    (bases : Bases) (kernel : Kernel) (pageSize : Nat)
    (haligned : ∀ range ∈ ranges, Aligned range) :
    Ends (((orderOf selected ranges).take config.maxResources).mapM
        (observeRange kernel config pageSize bases selected)) Sampling.start
      (fun rs t => Extends config (availablePages bases ranges) Sampling.start t ∧
        List.Forall₂ (fun range r => Accounted config selected range t r)
          ((orderOf selected ranges).take config.maxResources) rs ∧
        ((∃ key ∈ t.observed, key ∉ targetPages bases selected ranges) →
          ∀ r ∈ rs, r.targeted = true → r.error = none → r.unknownPages = 0))
      (fun e _ => e.elim) (fun _ _ => isizeBound ≤ config.maxPages) := by
  have hmem : ∀ range ∈ orderOf selected ranges, range ∈ ranges :=
    fun range h => (orderOf_perm ranges).mem_iff.mp h
  obtain ⟨front, back, horder, hfront, hback⟩ := orderOf_front selected ranges
  rw [horder] at hmem
  rw [horder, List.take_append, List.mapM_append]
  have hfirst : ∀ range ∈ front.take config.maxResources,
      range ∈ ranges ∧ selected.contains range.name = true := fun range h =>
    ⟨hmem range (List.mem_append_left _ (List.mem_of_mem_take h)),
      hfront range (List.mem_of_mem_take h)⟩
  have hlast : ∀ range ∈ back.take (config.maxResources - front.length),
      range ∈ ranges ∧ selected.contains range.name = false := fun range h =>
    ⟨hmem range (List.mem_append_right _ (List.mem_of_mem_take h)),
      hback range (List.mem_of_mem_take h)⟩
  refine (observeRanges_ends kernel pageSize bases
    (fun range h => haligned range (hfirst range h).1) (Sampling.Good.start config)).bind
      fun rs t hrs => ?_
  obtain ⟨hextends, hall⟩ := hrs
  refine (observeRanges_ends kernel pageSize bases
    (fun range h => haligned range (hlast range h).1) hextends.good).bind fun rs' t' hrs' => ?_
  obtain ⟨hextends', hall'⟩ := hrs'
  refine ⟨(hextends.trans hextends').mono ?_, ?_, ?_⟩
  · rw [← availablePages_append]
    refine availablePages_subset fun range h => ?_
    rcases List.mem_append.mp h with h | h
    · exact (hfirst range h).1
    · exact (hlast range h).1
  · exact List.rel_append (hall.imp fun _ _ h => h.extends hextends') hall'
  · rintro ⟨key, hkey, houtside⟩ r hr htargeted hnone
    rcases List.mem_append.mp hr with hr | hr
    · obtain ⟨range, -, haccounted⟩ := exists_of_mem_right hall hr
      rcases haccounted.budget hnone with hzero | hfull
      · exact hzero
      rw [hextends'.full hfull] at hkey
      rcases hextends.new key hkey with hstart | hpages
      · cases ExtTreeMap.not_mem_empty hstart
      · refine absurd (availablePages_subset (fun range h => ?_) hpages) houtside
        exact List.mem_filter.mpr (hfirst range h)
    · obtain ⟨range, hrange, haccounted⟩ := exists_of_mem_right hall' hr
      have hdescribed := haccounted.describes.targeted
      rw [htargeted, (hlast range hrange).2] at hdescribed
      cases hdescribed

theorem mul_le {build : Build} {a b c : Nat} (h : build.mul a b = some c) : c ≤ a * b := by
  unfold Build.mul at h
  split at h
  next => cases h; exact Nat.le_refl _
  next =>
    cases build with
    | debug => cases h
    | release => cases h; exact Nat.mod_le _ _

theorem mul_eq_none {build : Build} {a b : Nat} (h : build.mul a b = none) : u64Bound ≤ a * b := by
  by_contra hlt
  rw [Build.mul_of_lt (Nat.not_le.mp hlt)] at h
  cases h

/-- A share of a population is at most the whole, also where the product wraps. -/
theorem coverageBps_ends (build : Build) (sampled available : Nat) (s : Sampling) :
    Ends (coverageBps build sampled available) s
      (fun r t => t = s ∧ (sampled ≤ available → ∀ bps, r = some bps → bps ≤ 10000))
      (fun e _ => e.elim) (fun _ _ => u64Bound ≤ sampled * 10000) := by
  unfold coverageBps
  by_cases hpos : 0 < available
  · rw [if_pos hpos, ends_bind, ends_expect]
    refine ⟨fun hnone => mul_eq_none hnone, fun scaled hscaled => ⟨rfl, fun hle bps hbps => ?_⟩⟩
    cases hbps
    have hbound : scaled ≤ 10000 * available := by
      have hmul := mul_le hscaled
      omega
    calc scaled / available % 65536
        ≤ scaled / available := Nat.mod_le _ _
      _ ≤ 10000 := Nat.div_le_of_le_mul (by rw [Nat.mul_comm]; exact hbound)
  · rw [if_neg hpos]
    exact ⟨rfl, fun _ _ hnone => by cases hnone⟩

/-- What the coverage counts are set against. -/
structure Covered (maxPages : Nat) (all target : Set (Nat × Nat))
    (c : TargetedObservationCoverage) : Prop where
  pageBudget : c.pageBudget = maxPages
  targeted_available : c.targetedPagesAvailable = min target.ncard (u64Bound - 1)
  targeted_le : c.targetedPagesSampled ≤ c.targetedPagesAvailable
  targeted_unknown :
    c.targetedPagesSampled + c.targetedPagesUnknown = c.targetedPagesAvailable
  targeted_bps : ∀ bps, c.targetedCoverageBps = some bps → bps ≤ 10000
  general_le : all.ncard < u64Bound → c.generalPagesSampled ≤ c.generalPagesAvailable
  general_bps : all.ncard < u64Bound → ∀ bps, c.generalCoverageBps = some bps → bps ≤ 10000

theorem ncard_le_of_keys {keys : List (Nat × Nat)} {pages : Set (Nat × Nat)}
    (hnodup : keys.Nodup) (hfinite : pages.Finite) (h : ∀ key ∈ keys, key ∈ pages) :
    keys.length ≤ pages.ncard := by
  rw [← List.toFinset_card_of_nodup hnodup, ← Set.ncard_coe_finset]
  exact Set.ncard_le_ncard (fun key hkey => h key (List.mem_toFinset.mp hkey)) hfinite

theorem targetedCoverage_ends (build : Build) (selected : ExtTreeSet String) (target : Intervals) {all : Intervals}
    (resources : List ResourcePageResidency) {s : Sampling} (hgood : s.Good config)
    (hobserved : ∀ key ∈ s.observed, key ∈ covers all) (hsubset : covers target ⊆ covers all) :
    Ends (targetedCoverage build config selected target (intervalUnionCount all)
        (intervalUnionCount target) resources) s
      (fun c t => t = s ∧ Covered config.maxPages (covers all) (covers target) c)
      (fun e _ => e.elim) (fun _ _ => u64Bound ≤ config.maxPages * 10000) := by
  have hsize : s.observed.keys.length = s.observed.size := ExtTreeMap.length_keys
  have hmax := config.maxPages_lt
  have hle := hgood.le
  -- the pages seen, by whether they lie in the target
  have hinside : (s.observed.keys.filter fun key => intervalContains target key.1 key.2).length ≤
      (covers target).ncard := by
    refine ncard_le_of_keys (ExtTreeMap.nodup_keys.filter _) (finite_covers target) fun key hkey => ?_
    exact (List.mem_filter.mp hkey).2
  have houtside : (s.observed.keys.filter fun key => !intervalContains target key.1 key.2).length ≤
      (covers all).ncard - (covers target).ncard := by
    rw [← Set.ncard_sdiff hsubset (finite_covers target)]
    refine ncard_le_of_keys (ExtTreeMap.nodup_keys.filter _) (finite_covers all).sdiff
      fun key hkey => ?_
    obtain ⟨hseen, hnot⟩ := List.mem_filter.mp hkey
    refine ⟨hobserved key (ExtTreeMap.mem_keys.mp hseen), fun htarget => ?_⟩
    have htarget : intervalContains target key.1 key.2 = true := htarget
    rw [htarget] at hnot
    cases hnot
  have hsplit := List.length_eq_length_filter_add (l := s.observed.keys)
    fun key => intervalContains target key.1 key.2
  have hncard := Set.ncard_le_ncard hsubset (finite_covers all)
  have hall := intervalUnionCount_eq all
  have htarget := intervalUnionCount_eq target
  unfold targetedCoverage
  rw [ends_bind, ends_self]
  simp only
  generalize (s.observed.keys.filter fun key => intervalContains target key.1 key.2).length =
    inside at hinside hsplit ⊢
  generalize (s.observed.keys.filter fun key => !intervalContains target key.1 key.2).length =
    outside at houtside hsplit
  have hinsideLe : inside ≤ intervalUnionCount target := by omega
  have hinsideMax : inside ≤ config.maxPages := by omega
  have houtsideMax : outside ≤ config.maxPages := by omega
  have hgeneral : saturatingSub s.observed.size inside = outside := by
    unfold saturatingSub
    omega
  rw [hgeneral]
  refine ((coverageBps_ends build inside _ s).mono (fun _ _ h => h) (fun _ _ h => h)
    fun _ _ h => h.trans (Nat.mul_le_mul_right _ hinsideMax)).bind fun targetedBps t ht => ?_
  obtain ⟨rfl, htargetedBps⟩ := ht
  refine ((coverageBps_ends build outside _ t).mono (fun _ _ h => h) (fun _ _ h => h)
    fun _ _ h => h.trans (Nat.mul_le_mul_right _ houtsideMax)).bind fun generalBps t' ht' => ?_
  obtain ⟨rfl, hgeneralBps⟩ := ht'
  have hgeneralLe : (covers all).ncard < u64Bound →
      outside ≤ saturatingSub (intervalUnionCount all) (intervalUnionCount target) := by
    intro hfits
    unfold saturatingSub
    omega
  refine ⟨rfl,
    { pageBudget := rfl
      targeted_available := htarget
      targeted_le := hinsideLe
      targeted_unknown := ?_
      targeted_bps := htargetedBps hinsideLe
      general_le := hgeneralLe
      general_bps := fun hfits => hgeneralBps (hgeneralLe hfits) }⟩
  show inside + saturatingSub (intervalUnionCount target) inside = intervalUnionCount target
  unfold saturatingSub
  omega

end snapshot

end PageResidency
end Ramforge
