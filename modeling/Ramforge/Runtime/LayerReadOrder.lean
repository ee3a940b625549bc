/-
Read plans of permuted lists: where no tensor without bytes shares its offset with one
that has bytes, the order of the list does not matter.
-/
import Mathlib.Data.Fin.Tuple.Sort
import Mathlib.Data.List.FinRange
import Ramforge.Runtime.LayerReadExact

namespace Ramforge

open Rust Rust.Outcome

namespace LayerReadPlan

open PlannedReadRange ReadEntry

/-! ## Entries under other names -/

def renameEntry (f : Nat → Nat) (entry : ReadEntry) : ReadEntry :=
  { entry with index := f entry.index }

def renameTensor (f : Nat → Nat) (tensor : PlannedTensor) : PlannedTensor :=
  { tensor with descriptorIndex := f tensor.descriptorIndex }

def renameRange (f : Nat → Nat) (range : PlannedReadRange) : PlannedReadRange :=
  { range with tensors := range.tensors.map (renameTensor f) }

theorem sweep_rename (f : Nat → Nat) (current : PlannedReadRange) (entries : List ReadEntry) :
    sweep (renameRange f current) (entries.map (renameEntry f)) =
      (sweep current entries).map (renameRange f) := by
  induction entries generalizing current with
  | nil => rfl
  | cons entry rest ih =>
    have hjoined : (renameRange f current).joined (renameEntry f entry) =
        renameRange f (current.joined entry) := by
      simp [renameRange, renameEntry, renameTensor, PlannedReadRange.joined, placed,
        PlannedReadRange.stop]
    have hjoins : (renameRange f current).Joins (renameEntry f entry) ↔ current.Joins entry := Iff.rfl
    rw [List.map_cons, sweep, sweep]
    by_cases h : current.Joins entry
    · rw [if_pos h, if_pos (hjoins.mpr h), hjoined, ih]
    · rw [if_neg h, if_neg fun h' => h (hjoins.mp h'), List.map_cons, ← ih]
      rfl

theorem rangesOf_rename (f : Nat → Nat) (sorted : List ReadEntry) :
    rangesOf (sorted.map (renameEntry f)) = (rangesOf sorted).map (renameRange f) := by
  cases sorted with
  | nil => rfl
  | cons entry rest => exact sweep_rename f (.single entry) rest

/-! ## Entries in another order -/

/-- The two ranges are the same but for the order of their tensors. -/
structure SameRange (a b : PlannedReadRange) : Prop where
  fileOffset : a.fileOffset = b.fileOffset
  byteLength : a.byteLength = b.byteLength
  logicalBytes : a.logicalBytes = b.logicalBytes
  gapBytes : a.gapBytes = b.gapBytes
  tensors : a.tensors.Perm b.tensors

/-- Entries with one offset have one length. -/
def Even (entries : List ReadEntry) : Prop :=
  ∀ a ∈ entries, ∀ b ∈ entries, a.start = b.start → a.byteLength = b.byteLength

variable {seen seen' entries entries' rest rest' : List ReadEntry} {entry entry' : ReadEntry}
  {current current' : PlannedReadRange}

/-- An entry that does not join a range begins behind every entry of it. -/
theorem lt_of_not_joins (h : Describes seen current) (hseen : ∀ e ∈ seen, e.Sized)
    (hentry : entry.Sized) (heven : Even (seen ++ [entry])) (hclear : current.stop ≤ entry.start)
    (hjoins : ¬current.Joins entry) : ∀ e ∈ seen, e.start < entry.start := by
  intro e he
  by_contra hge
  obtain ⟨hfirst, hlast⟩ := h.within e he
  have hsize := (hseen e he).stop_eq
  have hsize' := hentry.stop_eq
  have hstart : e.start = entry.start := by omega
  have hlength := heven e (List.mem_append_left _ he) entry
    (List.mem_append_right _ List.mem_cons_self) hstart
  -- both are without bytes at the end of the range
  have hspan : current.byteLength ≤ maxCoalescedSpanBytes := by
    by_cases hmany : 1 < seen.length
    · exact h.span hmany
    · obtain ⟨e', rfl⟩ : ∃ e', seen = [e'] := by
        refine List.length_eq_one_iff.mp ?_
        have := List.length_pos_of_mem he
        omega
      obtain rfl := List.mem_singleton.mp he
      have hoffset : e.start = current.fileOffset := Option.some.inj h.first
      have hempty : current.byteLength = 0 := by
        unfold PlannedReadRange.stop at *
        omega
      rw [hempty]
      exact Nat.zero_le _
  refine hjoins ⟨?_, ?_⟩
  · have : entry.start - current.stop = 0 := by omega
    rw [this]
    exact Nat.zero_le _
  · have : entry.stop - current.fileOffset = current.byteLength := by
      unfold PlannedReadRange.stop at *
      omega
    rw [this]
    exact hspan

theorem filter_lt_split {cut : Nat} (hseen : ∀ e ∈ seen, e.start < cut)
    (hrest : ∀ e ∈ rest, cut ≤ e.start) :
    (seen ++ rest).filter (fun e => e.start < cut) = seen ∧
      (seen ++ rest).filter (fun e => ¬e.start < cut) = rest := by
  have hlow : seen.filter (fun e => e.start < cut) = seen :=
    List.filter_eq_self.mpr fun e he => decide_eq_true (hseen e he)
  have hhigh : rest.filter (fun e => ¬e.start < cut) = rest :=
    List.filter_eq_self.mpr fun e he => decide_eq_true (Nat.not_lt.mpr (hrest e he))
  have hnone : rest.filter (fun e => e.start < cut) = [] :=
    List.filter_eq_nil_iff.mpr fun e he h =>
      absurd (of_decide_eq_true h) (Nat.not_lt.mpr (hrest e he))
  have hnone' : seen.filter (fun e => ¬e.start < cut) = [] :=
    List.filter_eq_nil_iff.mpr fun e he h => of_decide_eq_true h (hseen e he)
  rw [List.filter_append, List.filter_append, hlow, hhigh, hnone, hnone', List.append_nil]
  exact ⟨rfl, rfl⟩

/-- A list of entries with a cut is split by it in every order. -/
theorem perm_split {cut : Nat} (hperm : (seen ++ rest).Perm (seen' ++ rest'))
    (hseen : ∀ e ∈ seen, e.start < cut) (hrest : ∀ e ∈ rest, cut ≤ e.start)
    (hseen' : ∀ e ∈ seen', e.start < cut) (hrest' : ∀ e ∈ rest', cut ≤ e.start) :
    seen.Perm seen' ∧ rest.Perm rest' := by
  obtain ⟨hlow, hhigh⟩ := filter_lt_split hseen hrest
  obtain ⟨hlow', hhigh'⟩ := filter_lt_split hseen' hrest'
  have hfront := hperm.filter fun e => decide (e.start < cut)
  have hback := hperm.filter fun e => decide ¬e.start < cut
  rw [hlow, hlow'] at hfront
  rw [hhigh, hhigh'] at hback
  exact ⟨hfront, hback⟩

theorem start_le_of_clear {last : Nat} (hsized : ∀ e ∈ entry :: rest, e.Sized)
    (hclear : Clear last (entry :: rest)) : ∀ e ∈ entry :: rest, entry.start ≤ e.start := by
  obtain ⟨-, hpairwise⟩ := (clear_iff hsized).mp hclear
  have hsize := (hsized entry List.mem_cons_self).stop_eq
  intro e he
  rcases List.mem_cons.mp he with rfl | he
  · exact Nat.le_refl _
  · have := (List.pairwise_cons.mp hpairwise).1 e he
    omega

theorem mem_of_mem_front {e : ReadEntry} (h : e ∈ seen ++ [entry]) : e ∈ seen ++ entry :: rest := by
  rw [List.append_cons]
  exact List.mem_append_left _ h

/-- Two orders of the entries give the same ranges. -/
theorem sweep_perm (h : Describes seen current) (h' : Describes seen' current')
    (hoffset : current.fileOffset = current'.fileOffset)
    (hlength : current.byteLength = current'.byteLength)
    (hlogical : current.logicalBytes = current'.logicalBytes)
    (hgap : current.gapBytes = current'.gapBytes)
    (hperm : (seen ++ entries).Perm (seen' ++ entries'))
    (hstarts : entries.map ReadEntry.start = entries'.map ReadEntry.start)
    (heven : Even (seen ++ entries)) (hsized : ∀ e ∈ seen ++ entries, e.Sized)
    (hclear : Clear current.stop entries) (hclear' : Clear current'.stop entries') :
    List.Forall₂ SameRange (sweep current entries) (sweep current' entries') := by
  induction entries generalizing seen seen' current current' entries' with
  | nil =>
    cases entries' with
    | cons => cases hstarts
    | nil =>
      rw [List.append_nil, List.append_nil] at hperm
      refine .cons ⟨hoffset, hlength, hlogical, hgap, ?_⟩ .nil
      rw [h.tensors, h'.tensors, hoffset]
      exact hperm.map _
  | cons entry rest ih =>
    cases entries' with
    | nil => cases hstarts
    | cons entry' rest' =>
      obtain ⟨hstart, hstarts⟩ := List.cons.inj hstarts
      obtain ⟨hle, hrest⟩ := hclear
      obtain ⟨hle', hrest'⟩ := hclear'
      have hmem : entry ∈ seen ++ entry :: rest := List.mem_append_right _ List.mem_cons_self
      have hmem' : entry' ∈ seen ++ entry :: rest :=
        hperm.mem_iff.mpr (List.mem_append_right _ List.mem_cons_self)
      have hsized' : ∀ e ∈ seen' ++ entry' :: rest', e.Sized :=
        fun e he => hsized e (hperm.mem_iff.mpr he)
      have heven' : Even (seen' ++ entry' :: rest') := fun a ha b hb =>
        heven a (hperm.mem_iff.mpr ha) b (hperm.mem_iff.mpr hb)
      have hentry := hsized entry hmem
      have hentry' := hsized entry' hmem'
      have hbytes := heven entry hmem entry' hmem' hstart
      have hstop : entry.stop = entry'.stop := by
        rw [hentry.stop_eq, hentry'.stop_eq, hstart, hbytes]
      have hend : current.stop = current'.stop := by
        rw [PlannedReadRange.stop, PlannedReadRange.stop, hoffset, hlength]
      have hjoins : current.Joins entry ↔ current'.Joins entry' := by
        rw [PlannedReadRange.Joins, PlannedReadRange.Joins, hstart, hstop, hend, hoffset]
      rw [sweep, sweep]
      by_cases hcase : current.Joins entry
      · have hcase' := hjoins.mp hcase
        have hfit := stop_joined (Nat.le_trans (fileOffset_le current) hle) hentry
        have hfit' := stop_joined (Nat.le_trans (fileOffset_le current') hle') hentry'
        rw [if_pos hcase, if_pos hcase']
        refine ih (h.joined hle hentry hcase) (h'.joined hle' hentry' hcase') hoffset ?_ ?_ ?_ ?_ hstarts
          ?_ ?_ (hfit ▸ hrest) (hfit' ▸ hrest')
        · show entry.stop - current.fileOffset = entry'.stop - current'.fileOffset
          rw [hstop, hoffset]
        · show current.logicalBytes + entry.byteLength = current'.logicalBytes + entry'.byteLength
          rw [hlogical, hbytes]
        · show current.gapBytes + (entry.start - current.stop) =
            current'.gapBytes + (entry'.start - current'.stop)
          rw [hgap, hstart, hend]
        · rw [List.append_assoc, List.append_assoc]
          exact hperm
        · rw [List.append_assoc]
          exact heven
        · rw [List.append_assoc]
          exact hsized
      · have hcase' : ¬current'.Joins entry' := fun h => hcase (hjoins.mpr h)
        rw [if_neg hcase, if_neg hcase']
        have hfront := lt_of_not_joins h (fun e he => hsized e (List.mem_append_left _ he)) hentry
          (fun a ha b hb => heven a (mem_of_mem_front ha) b (mem_of_mem_front hb)) hle hcase
        have hfront' := lt_of_not_joins h' (fun e he => hsized' e (List.mem_append_left _ he)) hentry'
          (fun a ha b hb => heven' a (mem_of_mem_front ha) b (mem_of_mem_front hb)) hle' hcase'
        have hback := start_le_of_clear (fun e he => hsized e (List.mem_append_right _ he)) ⟨hle, hrest⟩
        have hback' := start_le_of_clear (fun e he => hsized' e (List.mem_append_right _ he))
          ⟨hle', hrest'⟩
        rw [← hstart] at hfront' hback'
        obtain ⟨hseen, htail⟩ := perm_split hperm hfront hback hfront' hback'
        refine .cons ⟨hoffset, hlength, hlogical, hgap, ?_⟩ ?_
        · rw [h.tensors, h'.tensors, hoffset]
          exact hseen.map _
        · refine ih (describes_single hentry) (describes_single hentry') hstart hbytes hbytes rfl htail
            hstarts (fun a ha b hb => heven a (List.mem_append_right _ ha) b
              (List.mem_append_right _ hb)) (fun e he => hsized e (List.mem_append_right _ he)) ?_ ?_
          · rw [stop_single hentry]
            exact hrest
          · rw [stop_single hentry']
            exact hrest'

theorem rangesOf_perm {sorted sorted' : List ReadEntry} (hperm : sorted.Perm sorted')
    (hstarts : sorted.map ReadEntry.start = sorted'.map ReadEntry.start) (heven : Even sorted)
    (hsized : ∀ e ∈ sorted, e.Sized) (hseparated : sorted.Pairwise fun a b => a.stop ≤ b.start)
    (hseparated' : sorted'.Pairwise fun a b => a.stop ≤ b.start) :
    List.Forall₂ SameRange (rangesOf sorted) (rangesOf sorted') := by
  cases sorted with
  | nil =>
    cases sorted' with
    | nil => exact .nil
    | cons => cases hstarts
  | cons entry rest =>
    cases sorted' with
    | nil => cases hstarts
    | cons entry' rest' =>
      obtain ⟨hstart, hstarts⟩ := List.cons.inj hstarts
      have hmem' : entry' ∈ entry :: rest := hperm.mem_iff.mpr List.mem_cons_self
      have hentry := hsized entry List.mem_cons_self
      have hentry' := hsized entry' hmem'
      have hsized' : ∀ e ∈ entry' :: rest', e.Sized := fun e he => hsized e (hperm.mem_iff.mpr he)
      have hbytes := heven entry List.mem_cons_self entry' hmem' hstart
      have hclear := (clear_iff (List.forall_mem_cons.mp hsized).2).mpr (List.pairwise_cons.mp hseparated)
      have hclear' := (clear_iff (List.forall_mem_cons.mp hsized').2).mpr
        (List.pairwise_cons.mp hseparated')
      rw [← stop_single hentry] at hclear
      rw [← stop_single hentry'] at hclear'
      exact sweep_perm (describes_single hentry) (describes_single hentry') hstart hbytes hbytes rfl
        hperm hstarts heven hsized hclear hclear'

/-! ## Permuted lists -/

variable {descriptors : List TensorDescriptor}

/-- The list with the descriptor `σ i` in place `i`. -/
def permuted (descriptors : List TensorDescriptor) (σ : Equiv.Perm (Fin descriptors.length)) :
    List TensorDescriptor :=
  List.ofFn (descriptors.get ∘ σ)

/-- The place in the first list of what is in place `i` of the permuted one. -/
def placeOf (σ : Equiv.Perm (Fin descriptors.length)) (i : Nat) : Nat :=
  if h : i < descriptors.length then (σ ⟨i, h⟩).val else i

theorem permuted_perm (σ : Equiv.Perm (Fin descriptors.length)) :
    (permuted descriptors σ).Perm descriptors := by
  have hperm := Equiv.Perm.ofFn_comp_perm σ descriptors.get
  rw [List.ofFn_get] at hperm
  exact hperm

/-- The range of the permuted list that reads what `range` reads. -/
def Reindexed (σ : Equiv.Perm (Fin descriptors.length)) (range range' : PlannedReadRange) : Prop :=
  SameRange range (renameRange (placeOf σ) range')

/-- The order of the list makes no difference. -/
def OrderFree (descriptors : List TensorDescriptor) : Prop :=
  ∀ σ : Equiv.Perm (Fin descriptors.length),
    ((∃ plan, buildLayerReadPlan descriptors = .ok plan) ↔
      ∃ plan, buildLayerReadPlan (permuted descriptors σ) = .ok plan) ∧
    ∀ plan plan', buildLayerReadPlan descriptors = .ok plan →
      buildLayerReadPlan (permuted descriptors σ) = .ok plan' →
      List.Forall₂ (Reindexed σ) plan.ranges plan'.ranges

/-- A tensor without bytes shares its offset with one that has bytes. -/
def Tied (descriptors : List TensorDescriptor) : Prop :=
  ∃ a ∈ descriptors, ∃ b ∈ descriptors,
    a.fileOffset = b.fileOffset ∧ 0 < lengthOf a ∧ lengthOf b = 0

theorem Tied.of_pinched (h : Pinched descriptors) : Tied descriptors := by
  by_contra hnot
  refine h (pairwise_iff_getElem?.mpr fun i j a b _ hi hj hab => hnot ?_)
  exact ⟨a, List.mem_of_getElem? hi, b, List.mem_of_getElem? hj, hab⟩

theorem Tied.perm {descriptors' : List TensorDescriptor} (hperm : descriptors.Perm descriptors')
    (h : Tied descriptors) : Tied descriptors' := by
  obtain ⟨a, ha, b, hb, hab⟩ := h
  exact ⟨a, hperm.mem_iff.mp ha, b, hperm.mem_iff.mp hb, hab⟩

theorem not_blamed_perm {descriptors' : List TensorDescriptor}
    (hperm : descriptors.Perm descriptors') (h : ¬Blamed descriptors) : ¬Blamed descriptors' := by
  obtain ⟨hinfile, hclash⟩ := not_blamed.mp h
  refine not_blamed.mpr ⟨fun d hd => hinfile d (hperm.mem_iff.mpr hd), ?_⟩
  exact (hperm.pairwise_iff fun hab hba => hab hba.symm).mp hclash

theorem entriesFrom_ofFn {n : Nat} (f : Fin n → TensorDescriptor) :
    entriesFrom (List.ofFn f) 0 = List.ofFn fun i => entryOf (f i) i := by
  refine List.ext_getElem (by simp [entriesFrom]) fun i hi hi' => ?_
  simp [entriesFrom]

/-- The entries of the permuted list are those of the list. -/
theorem renamed_perm (σ : Equiv.Perm (Fin descriptors.length)) :
    (sortedEntries descriptors).Perm
      ((sortedEntries (permuted descriptors σ)).map (renameEntry (placeOf σ))) := by
  have hentries : entriesFrom descriptors 0 =
      List.ofFn fun i => entryOf (descriptors.get i) i := by
    rw [← entriesFrom_ofFn, List.ofFn_get]
  have hrenamed : (entriesFrom (permuted descriptors σ) 0).map (renameEntry (placeOf σ)) =
      List.ofFn ((fun i => entryOf (descriptors.get i) i) ∘ σ) := by
    rw [permuted, entriesFrom_ofFn, List.map_ofFn]
    congr 1
    funext i
    simp [renameEntry, entryOf, placeOf]
  have hperm := Equiv.Perm.ofFn_comp_perm σ fun i => entryOf (descriptors.get i) i
  rw [← hentries, ← hrenamed] at hperm
  exact (List.perm_insertionSort _ _).trans
    (hperm.symm.trans ((List.perm_insertionSort _ _).symm.map _))

theorem map_start_sorted (descriptors : List TensorDescriptor) :
    ((sortedEntries descriptors).map ReadEntry.start).Pairwise (· ≤ ·) := by
  refine List.pairwise_map.mpr (pairwise_sortedEntries.imp fun {a b} hab => ?_)
  have := hab.1
  unfold ReadEntry.before at this
  omega

/-- Where no tensor overlaps another and none is tied, entries with one offset have one length. -/
theorem even_sortedEntries (hclash : descriptors.Pairwise fun a b => ¬Clash a b)
    (htied : ¬Tied descriptors) : Even (sortedEntries descriptors) := by
  intro x hx y hy hstart
  obtain ⟨i, a, hi, rfl⟩ := mem_sortedEntries.mp hx
  obtain ⟨j, b, hj, rfl⟩ := mem_sortedEntries.mp hy
  have hstart : a.fileOffset = b.fileOffset := hstart
  have ha := List.mem_of_getElem? hi
  have hb := List.mem_of_getElem? hj
  show lengthOf a = lengthOf b
  by_cases hij : i = j
  · subst hij
    cases hi.symm.trans hj
    rfl
  · have hapart : ¬Clash a b := by
      rw [pairwise_iff_getElem?] at hclash
      rcases Nat.lt_or_gt_of_ne hij with hlt | hlt
      · exact hclash i j a b hlt hi hj
      · exact fun hab => hclash j i b a hlt hj hi hab.symm
    by_contra hne
    have hempty : lengthOf a = 0 ∨ lengthOf b = 0 := by
      unfold Clash at hapart
      omega
    rcases hempty with hzero | hzero
    · exact htied ⟨b, hb, a, ha, hstart.symm, by omega, hzero⟩
    · exact htied ⟨a, ha, b, hb, hstart, by omega, hzero⟩

theorem orderFree_of_not_tied (hblamed : ¬Blamed descriptors) (htied : ¬Tied descriptors) :
    OrderFree descriptors := by
  intro σ
  have hperm := permuted_perm σ
  have hblamed' := not_blamed_perm hperm.symm hblamed
  have htied' : ¬Tied (permuted descriptors σ) := fun h => htied (h.perm hperm)
  refine ⟨iff_of_true (buildLayerReadPlan_ok_iff.mpr ⟨hblamed, fun h => htied (.of_pinched h)⟩)
    (buildLayerReadPlan_ok_iff.mpr ⟨hblamed', fun h => htied' (.of_pinched h)⟩), ?_⟩
  intro plan plan' hplan hplan'
  rcases buildLayerReadPlan_cases descriptors with ⟨⟨hinfile, -, hseparated⟩, hok⟩ | ⟨-, message, herr⟩
  swap
  · cases hplan.symm.trans herr
  rcases buildLayerReadPlan_cases (permuted descriptors σ) with
    ⟨⟨-, -, hseparated'⟩, hok'⟩ | ⟨-, message, herr⟩
  swap
  · cases hplan'.symm.trans herr
  cases hplan.symm.trans hok
  cases hplan'.symm.trans hok'
  have hrenamed := renamed_perm σ
  have hstarts : (sortedEntries descriptors).map ReadEntry.start =
      ((sortedEntries (permuted descriptors σ)).map (renameEntry (placeOf σ))).map
        ReadEntry.start := by
    refine List.Perm.eq_of_pairwise' (map_start_sorted descriptors) ?_ (hrenamed.map _)
    rw [List.map_map]
    exact map_start_sorted _
  have hranges := rangesOf_perm hrenamed hstarts (even_sortedEntries (not_blamed.mp hblamed).2 htied)
    (sized_sortedEntries hinfile) hseparated (List.pairwise_map.mpr hseparated')
  rw [rangesOf_rename, List.forall₂_map_right_iff] at hranges
  exact hranges

/-- Some order puts the tensors without bytes in front. -/
theorem exists_not_pinched (descriptors : List TensorDescriptor) :
    ∃ σ, ¬Pinched (permuted descriptors σ) := by
  refine ⟨Tuple.sort fun i => lengthOf (descriptors.get i), not_not.mpr ?_⟩
  have hmono := Tuple.monotone_sort fun i => lengthOf (descriptors.get i)
  rw [permuted, List.pairwise_ofFn]
  rintro i j hij ⟨-, hlength, hempty⟩
  have hle : lengthOf (descriptors.get _) ≤ lengthOf (descriptors.get _) := hmono (Nat.le_of_lt hij)
  simp only [Function.comp_apply] at hlength hempty
  omega

/-- Some order puts one of the tied tensors behind the other one. -/
theorem exists_pinched (htied : Tied descriptors) : ∃ σ, Pinched (permuted descriptors σ) := by
  obtain ⟨a, ha, b, hb, hab⟩ := htied
  obtain ⟨i, rfl⟩ := List.get_of_mem ha
  obtain ⟨j, rfl⟩ := List.get_of_mem hb
  by_cases hlt : i < j
  · refine ⟨1, fun hnot => ?_⟩
    rw [permuted, List.pairwise_ofFn] at hnot
    exact hnot hlt hab
  · have hne : i ≠ j := by
      rintro rfl
      omega
    refine ⟨Equiv.swap i j, fun hnot => ?_⟩
    rw [permuted, List.pairwise_ofFn] at hnot
    refine hnot (lt_of_le_of_ne (le_of_not_gt hlt) hne.symm) ?_
    rw [Function.comp_apply, Function.comp_apply, Equiv.swap_apply_right, Equiv.swap_apply_left]
    exact hab

/-- The order makes no difference exactly where the list is to blame or nothing is tied. -/
theorem orderFree_iff (descriptors : List TensorDescriptor) :
    OrderFree descriptors ↔ Blamed descriptors ∨ ¬Tied descriptors := by
  constructor
  · intro hfree
    by_contra hnot
    obtain ⟨hblamed, htied⟩ := not_or.mp hnot
    obtain ⟨σ, hfront⟩ := exists_not_pinched descriptors
    obtain ⟨τ, hbehind⟩ := exists_pinched (not_not.mp htied)
    have hplan := (hfree σ).1.mpr (buildLayerReadPlan_ok_iff.mpr
      ⟨not_blamed_perm (permuted_perm σ).symm hblamed, hfront⟩)
    exact (buildLayerReadPlan_ok_iff.mp ((hfree τ).1.mp hplan)).2 hbehind
  · intro h
    by_cases hblamed : Blamed descriptors
    · have hnone : ∀ descriptors' : List TensorDescriptor, Blamed descriptors' →
          ¬∃ plan, buildLayerReadPlan descriptors' = .ok plan :=
        fun _ hblamed h => (buildLayerReadPlan_ok_iff.mp h).1 hblamed
      intro σ
      have hblamed' : Blamed (permuted descriptors σ) := by
        by_contra hnot
        exact not_blamed_perm (permuted_perm σ) hnot hblamed
      exact ⟨iff_of_false (hnone _ hblamed) (hnone _ hblamed'),
        fun plan _ hplan => absurd ⟨plan, hplan⟩ (hnone _ hblamed)⟩
    · exact orderFree_of_not_tied hblamed (h.resolve_left hblamed)

/-! ## Two orders of one list -/

def tiedDescriptors : List TensorDescriptor :=
  [plainDescriptor "b" 100 0, plainDescriptor "a" 100 8]

def tiedSwap : Equiv.Perm (Fin tiedDescriptors.length) := Equiv.swap ⟨0, by decide⟩ ⟨1, by decide⟩

theorem tied_order :
    (buildLayerReadPlan tiedDescriptors).isOk = true ∧
      buildLayerReadPlan (permuted tiedDescriptors tiedSwap) =
        .err "tensor ranges overlap at descriptor index 1" ∧
      ¬OrderFree tiedDescriptors := by
  have hswap : permuted tiedDescriptors tiedSwap =
      [plainDescriptor "a" 100 8, plainDescriptor "b" 100 0] := by decide +kernel
  have hok : (buildLayerReadPlan tiedDescriptors).isOk = true := by decide +kernel
  have herr : buildLayerReadPlan (permuted tiedDescriptors tiedSwap) =
      .err "tensor ranges overlap at descriptor index 1" := by
    rw [hswap]
    decide +kernel
  refine ⟨hok, herr, fun hfree => ?_⟩
  obtain ⟨plan, hplan⟩ := (hfree tiedSwap).1.mp (exists_of_isOk hok)
  cases herr.symm.trans hplan

end LayerReadPlan
end Ramforge
