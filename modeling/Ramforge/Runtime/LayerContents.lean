/-
The tensors of a loaded layer are those of the file, however they were read.

The charges of a load carry more than its bytes: a name is charged once, so a layer whose
tensors share a name does not load.
-/
import Ramforge.Runtime.HostInvariant
import Ramforge.Runtime.LayerLoadAtomic
import Ramforge.Runtime.LayerReadExact
import Ramforge.Runtime.TensorContents
import Ramforge.Rust.Rounds

namespace Ramforge

open Rust Rust.Exec GgufDataSource MemoryBudget

/-! ## The charges of the tensors taken so far -/

namespace LayerLoad

/-- Every tensor has its charge, and no two have the same name. -/
structure Charged (layerIdx : Nat) (taken : List TensorDescriptor) (b : MemoryBudget) : Prop where
  accounted : b.Accounted
  nodup : (taken.map TensorDescriptor.name).Nodup
  charged : ∀ desc ∈ taken, (b.get (chargeName layerIdx desc.name)).isSome

namespace Charged

variable {layerIdx : Nat} {taken : List TensorDescriptor} {b b' : MemoryBudget}

theorem nil (h : b.Accounted) : Charged layerIdx [] b :=
  ⟨h, List.nodup_nil, fun _ hmem => absurd hmem List.not_mem_nil⟩

theorem of_apart {own : String → Prop} (h : Charged layerIdx taken b) (hb : Apart own b b')
    (hown : ∀ name, ¬own (chargeName layerIdx name)) : Charged layerIdx taken b' :=
  ⟨hb.accounted, h.nodup, fun desc hmem => by rw [hb.get_eq _ (hown _)]; exact h.charged desc hmem⟩

/-- A charge that is granted is one of a new name. -/
theorem allocate {desc : TensorDescriptor} (h : Charged layerIdx taken b) (bytes : Nat) :
    Ends (MemoryBudget.allocate (chargeName layerIdx desc.name) bytes) b
      (fun _ => Charged layerIdx (taken ++ [desc])) (fun _ _ => True) fun _ _ => True := by
  have hstep := allocate_step h.accounted (chargeName layerIdx desc.name) bytes
  have hacc := hstep.accounted h.accounted
  unfold Ends
  rw [allocate_run h.accounted] at hacc ⊢
  split_ifs at hacc ⊢ with hzero hold hfit
  · trivial
  · trivial
  · have hnew : desc.name ∉ taken.map TensorDescriptor.name := by
      intro hmem
      obtain ⟨other, hother, hname⟩ := List.mem_map.mp hmem
      exact hold (hname ▸ h.charged other hother)
    refine ⟨hacc, ?_, fun other hmem => ?_⟩
    · rw [List.map_append, List.map_singleton]
      exact List.nodup_append.mpr ⟨h.nodup, List.nodup_singleton _, by
        intro a ha c hc he
        rw [List.mem_singleton.mp hc] at he
        exact hnew (he ▸ ha)⟩
    · rw [get_charge]
      split
      next => rfl
      next hne =>
        rcases List.mem_append.mp hmem with hmem | hmem
        · exact h.charged other hmem
        · exact absurd (by rw [List.mem_singleton.mp hmem]) hne
  · trivial

theorem resize (name : String) (bytes : Nat) :
    Keeps (Charged layerIdx taken) (MemoryBudget.resize name bytes) := by
  intro b h
  refine ⟨(resize_step h.accounted name bytes).accounted h.accounted, h.nodup, fun desc hmem => ?_⟩
  exact (keeps_isSome_resize _ name bytes b ⟨h.accounted, h.charged desc hmem⟩).2

end Charged

/-! ## The tensors taken so far -/

section collected

variable {R : Type} [F32 R] {source : GgufDataSource} {layerIdx : Nat} {layer : LayerDescriptor}
  {taken : List TensorDescriptor} {l : LoadedTensors R} {s : Host × MemoryBudget}

/-- A tensor under the name of its descriptor, as the files hold it. -/
def Matches (files : List (GgufShardLayout × List UInt8)) (desc : TensorDescriptor)
    (p : String × TensorData R) : Prop :=
  p.1 = desc.name ∧ Stored files desc p.2

def Collected (files : List (GgufShardLayout × List UInt8)) (taken : List TensorDescriptor)
    (l : LoadedTensors R) : Prop :=
  List.Forall₂ (Matches files) taken l.loaded

theorem ends_push {desc : TensorDescriptor} {tensor : TensorData R}
    (h : Collected source.files taken l) (hstored : Stored source.files desc tensor) :
    Ends (push l desc.name tensor) s
      (fun l' t => t = s ∧ Collected source.files (taken ++ [desc]) l') (fun _ _ => True)
      fun _ _ => True := by
  unfold push
  rw [ends_bind, ends_okOr]
  refine ⟨fun _ => trivial, fun total _ => ⟨rfl, ?_⟩⟩
  exact List.rel_append h (List.Forall₂.cons ⟨rfl, hstored⟩ List.Forall₂.nil)

/-- The state of a load between two tensors. -/
def Held (source : GgufDataSource) (layerIdx : Nat) (taken : List TensorDescriptor)
    (l : LoadedTensors R) (s : Host × MemoryBudget) : Prop :=
  OnHost (Serves source) s.1 ∧ Charged layerIdx taken s.2 ∧ Collected source.files taken l

variable (htiled : Tiled source.files)
include htiled

theorem ends_loadTensor (h : Held source layerIdx taken l s) (desc : TensorDescriptor) :
    Ends (loadTensor layerIdx l desc) s (Held source layerIdx (taken ++ [desc])) (fun _ _ => True)
      fun _ _ => True := by
  obtain ⟨hhost, hcharged, hcollected⟩ := h
  unfold loadTensor
  refine Keeps.then (I := (· = s)) (.resume _) rfl fun fileBytes t ht =>
    Keeps.then (I := (· = s)) (.resume _) ht fun loadCharge t ht => ?_
  rw [ht, ends_bind, ends_mapErr, ends_onSnd]
  refine (hcharged.allocate _).mono (fun _ b hb => ?_) (fun _ _ _ => trivial) fun _ _ _ => trivial
  have hload : Ends (onFst (loadTensorData desc) : Managed (TensorData R)) (s.1, b)
      (fun tensor t => (OnHost (Serves source) t.1 ∧ t.2 = b) ∧ Stored source.files desc tensor)
      (fun _ _ => True) fun _ _ => True := by
    rw [ends_onFst]
    have hkept := (readsKeep_serves htiled).loadTensorData (R := R) desc s.1 hhost
    unfold Ends
    rcases hrun : loadTensorData (R := R) desc s.1 with ⟨tensor | e | p, host⟩ <;>
      rw [hrun] at hkept
    · exact ⟨⟨hkept, rfl⟩, stored_of_loadTensorData htiled hhost hrun⟩
    · trivial
    · trivial
  refine hload.bind fun tensor t ⟨⟨hhost', hb'⟩, hstored⟩ =>
    (ends_push hcollected hstored).bind fun l' t' ⟨ht', hcollected'⟩ => ?_
  have hsettle : Keeps (fun t : Host × MemoryBudget => OnHost (Serves source) t.1 ∧
      Charged layerIdx (taken ++ [desc]) t.2)
      (settleCharge layerIdx desc.name (max loadCharge 1) tensor.residentBytes) := by
    unfold settleCharge
    split
    · exact .pure _
    · exact Keeps.bind (fun t ht => ⟨ht.1, Charged.resize _ _ t.2 ht.2⟩) fun _ => .pure _
  refine hsettle.then ?_ fun _ t'' ht'' => ⟨ht''.1, ht''.2, hcollected'⟩
  rw [ht', hb']
  exact ⟨hhost', hb⟩

theorem ends_loadIndividually (hhost : OnHost (Serves source) s.1) (hacc : s.2.Accounted) :
    Ends (loadIndividually layerIdx layer : Managed (LoadedTensors R)) s
      (Held source layerIdx layer.tensors) (fun _ _ => True) fun _ _ => True :=
  Ends.foldlM_taken (I := Held source layerIdx)
    ⟨hhost, .nil hacc, List.Forall₂.nil⟩ fun _ _ _ desc _ h => ends_loadTensor htiled h desc

omit htiled in
/-- The descriptors of planned tensors. -/
def listed (layer : LayerDescriptor) (tensors : List PlannedTensor) : List TensorDescriptor :=
  tensors.filterMap fun tensor => layer.tensors[tensor.descriptorIndex]?

omit htiled [F32 R] in
theorem of_descriptorAt {tensor : PlannedTensor} {desc : TensorDescriptor}
    (h : descriptorAt layer.tensors tensor = .ok desc) :
    layer.tensors[tensor.descriptorIndex]? = some desc := by
  unfold descriptorAt at h
  cases hget : layer.tensors[tensor.descriptorIndex]? with
  | none =>
    rw [hget] at h
    cases h
  | some found =>
    rw [hget] at h
    exact congrArg some (Outcome.ok.inj h)

omit htiled [F32 R] in
theorem of_knownBytes {desc : TensorDescriptor} {bytes : Nat} (h : desc.knownBytes = .ok bytes) :
    desc.byteLength = some bytes := by
  unfold TensorDescriptor.knownBytes at h
  cases hlen : desc.byteLength with
  | none =>
    rw [hlen] at h
    cases h
  | some len =>
    rw [hlen] at h
    exact congrArg some (Outcome.ok.inj h)

omit htiled [F32 R] in
/-- One more planned tensor, behind others. -/
theorem listed_snoc {tensors : List PlannedTensor} {tensor : PlannedTensor} {desc : TensorDescriptor}
    (h : layer.tensors[tensor.descriptorIndex]? = some desc) :
    listed layer (tensors ++ [tensor]) = listed layer tensors ++ [desc] := by
  rw [listed, List.filterMap_append, List.filterMap_cons, h]
  rfl

omit htiled [F32 R] in
theorem ends_chargeRange (kind : String) (range : PlannedReadRange) (h : Charged layerIdx taken s.2) :
    Ends (chargeRange kind layerIdx layer range) s
      (fun _ t => t.1 = s.1 ∧ Charged layerIdx (taken ++ listed layer range.tensors) t.2)
      (fun _ _ => True) fun _ _ => True := by
  refine Ends.forM_taken (I := fun tensors (t : Host × MemoryBudget) => t.1 = s.1 ∧
    Charged layerIdx (taken ++ listed layer tensors) t.2) ⟨rfl, ?_⟩ fun tensors t tensor _ ht => ?_
  · rw [listed, List.filterMap_nil, List.append_nil]
    exact h
  · unfold chargeTensor
    rw [ends_bind, ends_resume]
    refine ⟨fun desc hdesc => ?_, fun _ _ => trivial, fun _ _ => trivial⟩
    refine Keeps.then (I := (· = t)) (.resume _) rfl fun fileBytes u hu =>
      Keeps.then (I := (· = t)) (.ofResult _) hu fun resident u hu => ?_
    rw [hu, ends_mapErr, ends_onSnd]
    refine (ht.2.allocate _).mono (fun _ b hb => ⟨ht.1, ?_⟩) (fun _ _ _ => trivial) fun _ _ _ => trivial
    rw [listed_snoc (of_descriptorAt hdesc), ← List.append_assoc]
    exact hb

/-- The files and the tensors between two tensors of a range. -/
def Read (source : GgufDataSource) (taken : List TensorDescriptor) (l : LoadedTensors R)
    (host : Host) : Prop :=
  OnHost (Serves source) host ∧ Collected source.files taken l

variable [Zero R] [Sub R] [Mul R]

/-- A tensor lies in its range as the plan has it. -/
def Placed (layer : LayerDescriptor) (range : PlannedReadRange) : Prop :=
  ∀ tensor ∈ range.tensors, ∀ desc, layer.tensors[tensor.descriptorIndex]? = some desc →
    range.fileOffset + tensor.offsetInRange = desc.fileOffset

omit htiled in
theorem ends_decodeGrouped {range : PlannedReadRange} (hplaced : Placed layer range)
    {buffer : List UInt8} (hbuffer : IsRange source.files range.fileOffset range.byteLength buffer)
    (h : Read source taken l s.1) {tensor : PlannedTensor} (hmem : tensor ∈ range.tensors) :
    Ends (decodeGrouped layerIdx layer buffer l tensor) s
      (fun l' t => Read source (taken ++ listed layer [tensor]) l' t.1) (fun _ _ => True)
      fun _ _ => True := by
  unfold decodeGrouped
  rw [ends_bind, ends_resume]
  refine ⟨fun desc hdesc => ?_, fun _ _ => trivial, fun _ _ => trivial⟩
  have hget := of_descriptorAt hdesc
  rw [ends_bind, ends_resume]
  refine ⟨fun tensorBytes hbytes => ?_, fun _ _ => trivial, fun _ _ => trivial⟩
  rw [ends_bind, ends_okOr]
  refine ⟨fun _ => trivial, fun stop hstop => ?_⟩
  rw [ends_bind, ends_okOr]
  refine ⟨fun _ => trivial, fun bytes hslice => ?_⟩
  obtain ⟨-, rfl⟩ := checkedAdd_eq_some.mp hstop
  have hrange := hbuffer.slice hslice
  rw [hplaced tensor hmem desc hget, Nat.add_sub_cancel_left] at hrange
  have hkept := ReadsKeep.loadTensorDataFromBorrowedBytes (J := Serves source) (R := R) desc bytes s.1
    h.1
  rw [ends_bind, ends_onFst]
  unfold Ends
  rcases hrun : loadTensorDataFromBorrowedBytes (R := R) desc bytes s.1 with ⟨data | e | p, host⟩ <;>
    rw [hrun] at hkept
  · have hstored : Stored source.files desc data :=
      ⟨tensorBytes, bytes, of_knownBytes hbytes, hrange,
        contents_of_loadTensorDataFromBorrowedBytes hrun⟩
    show Ends _ _ _ _ _
    rw [ends_bind, ends_self, ends_bind, ends_failIf]
    refine ⟨fun _ => trivial, fun _ => (ends_push h.2 hstored).mono (fun l' t ht => ?_)
      (fun _ _ _ => trivial) fun _ _ _ => trivial⟩
    rw [ht.1, listed, List.filterMap_cons, hget]
    exact ⟨hkept, ht.2⟩
  · trivial
  · trivial

theorem ends_readAndDecodeGroupedRange {range : PlannedReadRange} (hplaced : Placed layer range)
    (rangeIndex : Nat) (buffer : List UInt8) (h : Read source taken l s.1) :
    Ends (readAndDecodeGroupedRange layer range layerIdx rangeIndex buffer l) s
      (fun r t => Read source (taken ++ listed layer range.tensors) r.2 t.1) (fun _ _ => True)
      fun _ _ => True := by
  unfold readAndDecodeGroupedRange
  refine Keeps.then (I := (· = s)) (.resume _) rfl fun descriptors t ht => ?_
  rw [ht, ends_bind, ends_onFst, ends_withLocal, ends_mapErr]
  have hkept := (readsKeep_serves htiled).readCoalescedTensorRangeInto descriptors range.fileOffset
    range.byteLength (buffer, s.1) h.1
  unfold Ends
  rcases hrun : readCoalescedTensorRangeInto descriptors range.fileOffset range.byteLength
    (buffer, s.1) with ⟨u | e | p, buffer', host⟩ <;> rw [hrun] at hkept
  · have hbuffer := isRange_of_readCoalescedTensorRangeInto htiled h.1 hrun
    show Ends _ _ _ _ _
    refine Ends.bind (Ends.foldlM_taken (I := fun tensors l' (t : Host × MemoryBudget) =>
      Read source (taken ++ listed layer tensors) l' t.1) ?_ fun tensors l' t tensor hmem ht => ?_)
      fun l' t ht => ht
    · rw [listed, List.filterMap_nil, List.append_nil]
      exact ⟨hkept, h.2⟩
    · rw [listed, List.filterMap_append, ← List.append_assoc]
      exact ends_decodeGrouped hplaced hbuffer ht hmem
  · trivial
  · trivial

/-! ## The three paths -/

omit htiled [F32 R] [Zero R] [Sub R] [Mul R] in
/-- The descriptors of ranges, in their order. -/
def listedRanges (layer : LayerDescriptor) (ranges : List PlannedReadRange) : List TensorDescriptor :=
  ranges.flatMap fun range => listed layer range.tensors

omit htiled [F32 R] [Zero R] [Sub R] [Mul R] in
theorem listedRanges_snoc (layer : LayerDescriptor) (ranges : List PlannedReadRange)
    (range : PlannedReadRange) :
    listedRanges layer (ranges ++ [range]) = listedRanges layer ranges ++ listed layer range.tensors := by
  rw [listedRanges, List.flatMap_append, List.flatMap_singleton]
  rfl

omit htiled [F32 R] [Zero R] [Sub R] [Mul R] in
theorem filterMap_range_getElem? {α : Type} (xs : List α) :
    (List.range xs.length).filterMap (fun i => xs[i]?) = xs := by
  induction xs with
  | nil => rfl
  | cons x xs ih =>
    rw [List.length_cons, List.range_succ_eq_map, List.filterMap_cons, List.filterMap_map]
    exact congrArg (x :: ·) ih

omit htiled [F32 R] [Zero R] [Sub R] [Mul R] in
/-- The ranges of an exact plan list every tensor once. -/
theorem perm_listed {plan : LayerReadPlan} (hplan : plan.Exact layer.tensors) :
    (listedRanges layer plan.ranges).Perm layer.tensors := by
  have hflat : ∀ ranges : List PlannedReadRange, listedRanges layer ranges =
      (ranges.flatMap fun range => range.tensors.map PlannedTensor.descriptorIndex).filterMap
        fun i => layer.tensors[i]? := by
    intro ranges
    induction ranges with
    | nil => rfl
    | cons range rest ih =>
      rw [listedRanges, List.flatMap_cons, List.flatMap_cons, List.filterMap_append, ← ih,
        List.filterMap_map]
      rfl
  rw [hflat]
  exact (hplan.each_once.filterMap _).trans (List.Perm.of_eq (filterMap_range_getElem? _))

omit htiled [F32 R] [Zero R] [Sub R] [Mul R] in
theorem placed_of_exact {plan : LayerReadPlan} (hplan : plan.Exact layer.tensors) :
    ∀ range ∈ plan.ranges, Placed layer range := by
  intro range hrange tensor htensor desc hdesc
  obtain ⟨found, bytes, hfound, -, hplace, -⟩ := hplan.placed range hrange tensor htensor
  obtain rfl := Option.some.inj (hfound.symm.trans hdesc)
  exact hplace

/-- All tensors of the layer, once each, as the files hold them. -/
def Complete (files : List (GgufShardLayout × List UInt8)) (layer : LayerDescriptor)
    (l : LoadedTensors R) : Prop :=
  ∃ taken, taken.Perm layer.tensors ∧ (taken.map TensorDescriptor.name).Nodup ∧
    Collected files taken l

theorem ends_loadReused {plan : LayerReadPlan} (hplan : plan.Exact layer.tensors) (scratchBytes : Nat)
    (hhost : OnHost (Serves source) s.1) (hacc : s.2.Accounted) :
    Ends (loadReused layerIdx layer plan scratchBytes : Managed (LoadedTensors R)) s
      (fun l _ => Complete source.files layer l) (fun _ _ => True) fun _ _ => True := by
  have hcharges : Ends (plan.ranges.forM (chargeRange "reusable grouped" layerIdx layer)) s
      (fun _ t => t.1 = s.1 ∧ Charged layerIdx (listedRanges layer plan.ranges) t.2)
      (fun _ _ => True) fun _ _ => True := by
    refine Ends.forM_taken (I := fun ranges (t : Host × MemoryBudget) => t.1 = s.1 ∧
      Charged layerIdx (listedRanges layer ranges) t.2) ⟨rfl, .nil hacc⟩ fun ranges t range _ ht => ?_
    refine (ends_chargeRange _ range ht.2).mono (fun _ u hu => ⟨hu.1.trans ht.1, ?_⟩)
      (fun _ _ _ => trivial) fun _ _ _ => trivial
    rw [listedRanges_snoc]
    exact hu.2
  unfold loadReused
  refine hcharges.bind fun _ t ⟨ht, hcharged⟩ => ?_
  refine ((MemoryBudget.ends_withTemp_fst (Q := fun l _ => Collected source.files
    (listedRanges layer plan.ranges) l) fun b => ?_)).mono
    (fun l _ hl => ⟨_, perm_listed hplan, hcharged.nodup, hl⟩) (fun _ _ _ => trivial)
    fun _ _ _ => trivial
  refine Keeps.then (I := fun t : Host × MemoryBudget => OnHost (Serves source) t.1)
    (fun u hu => ReadsKeep.reserveBuffer _ u.1 hu) (ht ▸ hhost) fun _ u hu => ?_
  refine Ends.bind (Ends.foldlM_taken (I := fun (ranges : List (PlannedReadRange × Nat))
    (r : List UInt8 × LoadedTensors R) (t : Host × MemoryBudget) =>
      Read source (listedRanges layer (ranges.map Prod.fst)) r.2 t.1) ?_
      fun ranges r t range hmem ht => ?_) fun r t ht => ?_
  · exact ⟨hu, List.Forall₂.nil⟩
  · rw [List.map_append, List.map_singleton, listedRanges_snoc]
    exact ends_readAndDecodeGroupedRange htiled
      (placed_of_exact hplan range.1 (List.fst_mem_of_mem_zipIdx hmem)) range.2 r.1 ht
  · rw [List.zipIdx_map_fst] at ht
    exact ht.2

omit htiled in
/-- Decoding a range changes no charge. -/
theorem readAndDecodeGroupedRange_sparing (range : PlannedReadRange) (rangeIndex : Nat)
    (buffer : List UInt8) :
    Sparing (fun _ => False) (readAndDecodeGroupedRange layer range layerIdx rangeIndex buffer l) := by
  intro b
  refine (Keeps.resume _).bind fun _ => Keeps.bind (Sparing.onFst _ b) fun r =>
    (Keeps.foldlM (fun l tensor => ?_) _ _).bind fun _ => .pure _
  exact (Keeps.resume _).bind fun _ => (Keeps.resume _).bind fun _ => (Keeps.okOr _ _).bind fun _ =>
    (Keeps.okOr _ _).bind fun _ => Keeps.bind (Sparing.onFst _ b) fun _ => Keeps.self.bind fun _ =>
      (Keeps.failIf _ _).bind fun _ => (Keeps.okOr _ _).bind fun _ => .pure _

theorem ends_loadGroupedRange {range : PlannedReadRange × Nat} (hplaced : Placed layer range.1)
    (h : Held source layerIdx taken l s) :
    Ends (loadGroupedRange layerIdx layer l range) s
      (Held source layerIdx (taken ++ listed layer range.1.tensors)) (fun _ _ => True)
      fun _ _ => True := by
  unfold loadGroupedRange
  split
  · refine (ends_chargeRange "grouped" range.1 h.2.1).bind fun _ t ⟨ht, hcharged⟩ => ?_
    have hread : Read source taken l t.1 := ⟨ht ▸ h.1, h.2.2⟩
    let body : Managed (LoadedTensors R) := do
      let r ← readAndDecodeGroupedRange layer range.1 layerIdx range.2 [] l
      return r.2
    -- The body changes no charge, and the scope gives its own back.
    have hsparing : Sparing (fun _ => False) (withTemp MemoryError.display
        (bufferName layerIdx (toString range.2)) range.1.byteLength body) :=
      .withTemp (fun b => (readAndDecodeGroupedRange_sparing range.1 range.2 [] b).bind
        fun _ => .pure _) (fun hf => hf) _
    have hvalue : Ends (withTemp MemoryError.display (bufferName layerIdx (toString range.2))
        range.1.byteLength body) t
        (fun l' u => Read source (taken ++ listed layer range.1.tensors) l' u.1) (fun _ _ => True)
        fun _ _ => True :=
      MemoryBudget.ends_withTemp_fst (Q := Read source (taken ++ listed layer range.1.tensors))
        fun b => Ends.bind (ends_readAndDecodeGroupedRange htiled hplaced range.2 [] hread)
          fun _ _ hr => hr
    have hkept := hsparing t.2 t (.refl hcharged.accounted)
    unfold Ends at hvalue ⊢
    rcases hrun : withTemp MemoryError.display (bufferName layerIdx (toString range.2))
      range.1.byteLength body t with ⟨l' | e | p, u⟩ <;> rw [hrun] at hkept hvalue
    · exact ⟨hvalue.1, hcharged.of_apart hkept fun _ hf => hf, hvalue.2⟩
    · trivial
    · trivial
  · refine Ends.foldlM_taken (I := fun tensors =>
      Held source layerIdx (taken ++ listed layer tensors)) ?_ fun tensors l' t tensor _ ht => ?_
    · rw [listed, List.filterMap_nil, List.append_nil]
      exact h
    · unfold loadPlanned
      rw [ends_bind, ends_resume]
      refine ⟨fun desc hdesc => ?_, fun _ _ => trivial, fun _ _ => trivial⟩
      rw [listed_snoc (of_descriptorAt hdesc), ← List.append_assoc]
      exact ends_loadTensor htiled ht desc

/-- Whatever the path, the tensors are those of the layer, each as the files hold it. -/
theorem ends_loadTensors {plan : LayerReadPlan} (hplan : plan.Exact layer.tensors) (path : ReadPath)
    (hhost : OnHost (Serves source) s.1) (hacc : s.2.Accounted) :
    Ends (loadTensors layerIdx layer plan path : Managed (LoadedTensors R)) s
      (fun l _ => Complete source.files layer l) (fun _ _ => True) fun _ _ => True := by
  cases path with
  | individual =>
    exact (ends_loadIndividually htiled hhost hacc).mono
      (fun l t ht => ⟨_, .refl _, ht.2.1.nodup, ht.2.2⟩) (fun _ _ _ => trivial) fun _ _ _ => trivial
  | reused scratchBytes => exact ends_loadReused htiled hplan scratchBytes hhost hacc
  | grouped =>
    have hranges : Ends (loadGrouped layerIdx layer plan : Managed (LoadedTensors R)) s
        (Held source layerIdx (listedRanges layer (plan.ranges.zipIdx.map Prod.fst)))
        (fun _ _ => True) fun _ _ => True := by
      refine Ends.foldlM_taken (I := fun (ranges : List (PlannedReadRange × Nat)) =>
        Held source layerIdx (listedRanges layer (ranges.map Prod.fst))) ?_
        fun ranges l t range hmem ht => ?_
      · exact ⟨hhost, .nil hacc, List.Forall₂.nil⟩
      · rw [List.map_append, List.map_singleton, listedRanges_snoc]
        exact ends_loadGroupedRange htiled (placed_of_exact hplan range.1
          (List.fst_mem_of_mem_zipIdx hmem)) ht
    refine hranges.mono (fun l t ht => ?_) (fun _ _ _ => trivial) fun _ _ _ => trivial
    rw [List.zipIdx_map_fst] at ht
    exact ⟨_, perm_listed hplan, ht.2.1.nodup, ht.2.2⟩

end collected

/-! ## The weights -/

section weights

variable {R : Type} [F32 R] {files : List (GgufShardLayout × List UInt8)} {layer : LayerDescriptor}
  {l l' : LoadedTensors R}

theorem Collected.exists_mem {taken : List TensorDescriptor} (h : Collected files taken l)
    {p : String × TensorData R} (hp : p ∈ l.loaded) : ∃ desc ∈ taken, Matches files desc p := by
  obtain ⟨loaded, total⟩ := l
  change List.Forall₂ _ taken loaded at h
  induction h with
  | nil => cases hp
  | cons head _ ih =>
    rcases List.mem_cons.mp hp with rfl | hp
    · exact ⟨_, List.mem_cons_self, head⟩
    · obtain ⟨desc, hdesc, hmatches⟩ := ih hp
      exact ⟨desc, List.mem_cons_of_mem _ hdesc, hmatches⟩

theorem Collected.exists_loaded {taken : List TensorDescriptor} (h : Collected files taken l)
    {desc : TensorDescriptor} (hdesc : desc ∈ taken) : ∃ p ∈ l.loaded, Matches files desc p := by
  obtain ⟨loaded, total⟩ := l
  change List.Forall₂ _ taken loaded at h
  induction h with
  | nil => cases hdesc
  | cons head _ ih =>
    rcases List.mem_cons.mp hdesc with rfl | hdesc
    · exact ⟨_, List.mem_cons_self, head⟩
    · obtain ⟨p, hp, hmatches⟩ := ih hdesc
      exact ⟨p, List.mem_cons_of_mem _ hp, hmatches⟩

theorem Collected.map_fst {taken : List TensorDescriptor} (h : Collected files taken l) :
    l.loaded.map Prod.fst = taken.map TensorDescriptor.name := by
  obtain ⟨loaded, total⟩ := l
  change List.Forall₂ _ taken loaded at h
  induction h with
  | nil => rfl
  | cons head _ ih => rw [List.map_cons, List.map_cons, ih, head.1]

/-- What one load has, another one has. -/
theorem Complete.mem_loaded (h : Complete files layer l) (h' : Complete files layer l')
    {p : String × TensorData R} (hp : p ∈ l.loaded) : p ∈ l'.loaded := by
  obtain ⟨taken, hperm, -, hcollected⟩ := h
  obtain ⟨taken', hperm', -, hcollected'⟩ := h'
  obtain ⟨desc, hdesc, hname, hstored⟩ := hcollected.exists_mem hp
  obtain ⟨p', hp', hname', hstored'⟩ :=
    hcollected'.exists_loaded (hperm'.symm.subset (hperm.subset hdesc))
  rwa [show p = p' from Prod.ext (hname.trans hname'.symm) (hstored.unique hstored')]

theorem Complete.nodup (h : Complete files layer l) : (l.loaded.map Prod.fst).Nodup := by
  obtain ⟨taken, -, hnodup, hcollected⟩ := h
  rwa [hcollected.map_fst]

/-- Two loads of one layer from the same files give the same map. -/
theorem Complete.tensorMap_eq (h : Complete files layer l) (h' : Complete files layer l') :
    tensorMap l.loaded = tensorMap l'.loaded := by
  refine Std.ExtTreeMap.ext_getElem? fun name => Option.ext fun tensor => ?_
  rw [tensorMap, tensorMap, MapSum.getElem?_foldl_insert h.nodup,
    MapSum.getElem?_foldl_insert h'.nodup]
  exact ⟨h.mem_loaded h', h'.mem_loaded h⟩

variable [Zero R] [Sub R] [Mul R] {source : GgufDataSource} {model : StreamingLlamaModel R}
  {layerIdx : Nat}

/-- The read plans of a model are plans of its layers. -/
def Planned (model : StreamingLlamaModel R) : Prop :=
  ∀ (i : Nat) layer plan, model.layerDescriptors[i]? = some layer →
    model.layerReadPlans[i]? = some plan → plan.Exact layer.tensors

/-- What a load that has returned has put into the weights. -/
theorem complete_of_loadLayer (htiled : Tiled source.files) (hplanned : Planned model)
    {s t : ResidencyStats × Host × MemoryBudget} {weights : StreamingLayerWeights R}
    (hhost : OnHost (Serves source) s.2.1) (hacc : s.2.2.Accounted)
    (h : model.loadLayer layerIdx s = (.ok weights, t)) :
    ∃ layer l, model.layerDescriptors[layerIdx]? = some layer ∧ Complete source.files layer l ∧
      (extractWeights model.config layerIdx (tensorMap l.loaded)).1 = .ok weights := by
  obtain ⟨layer, hlayer, h⟩ := of_okOr_bind_ok h
  obtain ⟨plan, hplan, h⟩ := of_expect_bind_ok h
  obtain ⟨path, s₁, hpath, h⟩ := of_bind_ok h
  obtain ⟨result, s₂, hload, h⟩ := of_bind_ok h
  have hs₁ : s₁ = s := ((LayerLoad.readPath_looks layerIdx model plan).onSnd s).of_ok hpath
  cases result with
  | error error =>
    obtain ⟨_, _, -, h⟩ := of_bind_ok h
    cases h
  | ok l =>
    obtain ⟨_, s₃, -, h⟩ := of_bind_ok h
    obtain ⟨extracted, s₄, hextract, h⟩ := of_bind_ok h
    cases extracted with
    | error error =>
      obtain ⟨_, _, -, h⟩ := of_bind_ok h
      cases h
    | ok found =>
      cases h
      obtain ⟨hload, -⟩ := of_onSnd_ok (of_attempt_value hload)
      rw [hs₁] at hload
      refine ⟨layer, l, hlayer, ?_, (Prod.mk.inj (of_attempt_value hextract)).1⟩
      exact (ends_loadTensors htiled (hplanned layerIdx layer plan hlayer hplan) path hhost hacc).of_ok
        hload

end weights

end LayerLoad
end Ramforge
