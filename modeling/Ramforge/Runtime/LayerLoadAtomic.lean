/-
A failed load of a layer and the budget.

Every path of the load charges under the prefix of its layer only, and the cleanup gives
back everything under that prefix.  It does not ask which of these charges the load has
made itself.
-/
import Ramforge.Core.MemoryAccounting
import Ramforge.Core.MemoryPrefix
import Ramforge.Runtime.LayerCacheRun
import Ramforge.Runtime.LayerLoad
import Ramforge.Runtime.StartupAgreement

namespace Ramforge

open Rust Rust.Exec GgufDataSource MemoryBudget

namespace LayerLoad

theorem chargeName_under (layerIdx : Nat) (name : String) :
    Text.startsWith (chargeName layerIdx name) (LayerCache.activePrefix layerIdx) = true :=
  Text.startsWith_append _ _

/-- A temporary charge does not start like that of a layer. -/
theorem bufferName_outside (layerIdx : Nat) (which : String) :
    Text.startsWith (bufferName layerIdx which) (LayerCache.activePrefix layerIdx) = false := by
  refine Bool.eq_false_iff.mpr fun h => ?_
  have hlist := Text.startsWith_iff.mp h
  unfold bufferName LayerCache.activePrefix at hlist
  simp [String.toList_append] at hlist

variable {R : Type} [F32 R] (layerIdx : Nat) (layer : LayerDescriptor)

section steps

omit [F32 R] in
theorem push_confined (l : LoadedTensors R) (name : String) (tensorData : TensorData R) :
    Confined (LayerCache.activePrefix layerIdx) (push l name tensorData) :=
  (Confined.okOr _ _).bind fun _ => .pure _

omit [F32 R] in
theorem settleCharge_confined (name : String) (charge resident : Nat) :
    Confined (LayerCache.activePrefix layerIdx) (settleCharge layerIdx name charge resident) := by
  unfold settleCharge
  split
  · exact .pure _
  · exact ((Confined.resize (chargeName_under layerIdx name) _).mapErr _).bind fun _ => .pure _

theorem loadTensor_confined (l : LoadedTensors R) (desc : TensorDescriptor) :
    Confined (LayerCache.activePrefix layerIdx) (loadTensor layerIdx l desc) := by
  refine (Confined.resume _).bind fun fileBytes => (Confined.resume _).bind fun loadCharge => ?_
  refine ((Confined.allocate (chargeName_under layerIdx desc.name) _).mapErr _).bind fun _ => ?_
  refine (Confined.onFst _).bind fun tensorData => ?_
  refine (push_confined layerIdx l desc.name tensorData).bind fun l => ?_
  exact (settleCharge_confined layerIdx desc.name _ _).bind fun _ => .pure l

theorem chargeRange_confined (kind : String) (range : PlannedReadRange) :
    Confined (LayerCache.activePrefix layerIdx) (chargeRange kind layerIdx layer range) := by
  refine Confined.forM (fun tensor => ?_) _
  refine (Confined.resume _).bind fun desc => (Confined.resume _).bind fun fileBytes => ?_
  refine (Confined.ofResult _).bind fun resident => ?_
  exact (Confined.allocate (chargeName_under layerIdx desc.name) _).mapErr _

variable [Zero R] [Sub R] [Mul R]

theorem decodeGrouped_confined (buffer : List UInt8) (l : LoadedTensors R) (tensor : PlannedTensor) :
    Confined (LayerCache.activePrefix layerIdx) (decodeGrouped layerIdx layer buffer l tensor) := by
  refine (Confined.resume _).bind fun desc => (Confined.resume _).bind fun tensorBytes => ?_
  refine (Confined.okOr _ _).bind fun stop => (Confined.okOr _ _).bind fun bytes => ?_
  refine (Confined.onFst _).bind fun tensorData => Confined.self.bind fun s => ?_
  exact (Confined.failIf _ _).bind fun _ => push_confined layerIdx l desc.name tensorData

theorem readAndDecodeGroupedRange_confined (range : PlannedReadRange) (rangeIndex : Nat)
    (buffer : List UInt8) (l : LoadedTensors R) :
    Confined (LayerCache.activePrefix layerIdx)
      (readAndDecodeGroupedRange layer range layerIdx rangeIndex buffer l) := by
  refine (Confined.resume _).bind fun descriptors => (Confined.onFst _).bind fun r => ?_
  exact (Confined.foldlM (decodeGrouped_confined layerIdx layer r.2) _ l).bind fun _ => .pure _

end steps

/-! ## The three paths -/

variable [Zero R] [Sub R] [Mul R]

theorem loadReused_confined (plan : LayerReadPlan) (scratchBytes : Nat) :
    Confined (LayerCache.activePrefix layerIdx)
      (loadReused (R := R) layerIdx layer plan scratchBytes) := by
  refine (Confined.forM (chargeRange_confined layerIdx layer _) _).bind fun _ => ?_
  refine Confined.withTemp (bufferName_outside layerIdx _) ?_ _
  refine (Confined.onFst _).bind fun _ => Confined.bind ?_ fun r => .pure _
  refine Confined.foldlM (fun r range => ?_) _ _
  exact readAndDecodeGroupedRange_confined layerIdx layer range.1 range.2 r.1 r.2

theorem loadGroupedRange_confined (l : LoadedTensors R) (range : PlannedReadRange × Nat) :
    Confined (LayerCache.activePrefix layerIdx) (loadGroupedRange layerIdx layer l range) := by
  unfold loadGroupedRange
  split
  · refine (chargeRange_confined layerIdx layer _ _).bind fun _ => ?_
    refine Confined.withTemp (bufferName_outside layerIdx _) ?_ _
    exact (readAndDecodeGroupedRange_confined layerIdx layer _ _ _ l).bind fun _ => .pure _
  · refine Confined.foldlM (fun l tensor => ?_) _ l
    exact (Confined.resume _).bind fun desc => loadTensor_confined layerIdx l desc

theorem loadTensors_confined (plan : LayerReadPlan) (path : ReadPath) :
    Confined (LayerCache.activePrefix layerIdx)
      (loadTensors (R := R) layerIdx layer plan path) := by
  cases path with
  | individual => exact Confined.foldlM (loadTensor_confined layerIdx) _ _
  | reused scratchBytes => exact loadReused_confined layerIdx layer plan scratchBytes
  | grouped => exact Confined.foldlM (loadGroupedRange_confined layerIdx layer) _ _

/-! ## The choice of the path -/

theorem canAllocate_looks {κ ε : Type} (bytes : Nat) :
    Looks (onSnd (canAllocate bytes) : Exec (κ × MemoryBudget) ε Bool) := by
  have havailable : Looks (availableBytes : Exec MemoryBudget ε Nat) :=
    Looks.self.bind fun _ => .expect _ _
  exact Looks.onSnd (havailable.bind fun _ => .pure _)

variable (model : StreamingLlamaModel R)

omit [F32 R] [Zero R] [Sub R] [Mul R] in
theorem readPath_looks (plan : LayerReadPlan) : Looks (readPath model layerIdx plan) := by
  refine Looks.bind ?_ fun grouped => Looks.bind ?_ fun peak => Looks.bind ?_ fun _ => .pure _
  · unfold useGroupedReads
    split
    · exact (Looks.expect _ _).bind fun _ => canAllocate_looks _
    · exact .pure _
  · unfold reusablePeak
    split
    · exact .pure _
    · exact (Looks.expect _ _).bind fun _ => .pure _
  · unfold useReusableBuffer
    split
    · split
      · exact .pure _
      · exact canAllocate_looks _
    · exact .pure _

end LayerLoad

namespace StreamingLlamaModel

open LayerLoad

/-! ## The cleanup -/

theorem checkReleasable_run {ε : Type} {names : List String}
    {s : ResidencyStats × Host × MemoryBudget} (h : ∀ name ∈ names, (s.2.2.get name).isSome) :
    (names.forM checkReleasable : Exec _ ε Unit) s = (.ok (), s) := by
  induction names with
  | nil => rfl
  | cons name rest ih =>
    obtain ⟨bytes, hbytes⟩ := Option.isSome_iff_exists.mp (h name List.mem_cons_self)
    have hcheck : (checkReleasable name : Exec _ ε Unit) s = (.ok (), s) := by
      rw [checkReleasable, self_bind_run, hbytes]
      rfl
    show (checkReleasable name >>= fun _ => rest.forM checkReleasable) s = _
    rw [bind_of_ok hcheck]
    exact ih fun n hn => h n (List.mem_cons_of_mem _ hn)

theorem releaseLayer_run {ε : Type} {s : ResidencyStats × Host × MemoryBudget} (layerIdx : Nat)
    (h : s.2.2.Accounted) :
    (releaseLayer layerIdx : Exec _ ε Unit) s =
      let b := dischargeAll (s.2.2.namesUnder (LayerCache.activePrefix layerIdx)) s.2.2
      (.ok (), (s.1.onLayerRelease b.used, s.2.1, b)) := by
  have hlive : ∀ name ∈ s.2.2.namesUnder (LayerCache.activePrefix layerIdx),
      (s.2.2.get name).isSome := fun _ => isSome_of_mem_namesUnder
  rw [releaseLayer, self_bind_run, bind_of_ok (checkReleasable_run hlive), bind_run, onSnd_run,
    LayerCache.releaseNames_run _ h (nodup_namesUnder _ _) hlive]
  rfl

/-! ## Failed loads -/

variable {R : Type} [F32 R] [Zero R] [Sub R] [Mul R] (model : StreamingLlamaModel R)
  {layerIdx : Nat}

/-- What a failed load leaves: the cleanup after some confined call. -/
def CleanedUp (layerIdx : Nat) (s t : ResidencyStats × Host × MemoryBudget) : Prop :=
  ∃ b, Outside (LayerCache.activePrefix layerIdx) s.2.2 b ∧
    t.2.2 = dischargeAll (b.namesUnder (LayerCache.activePrefix layerIdx)) b

/-- The release that ends a failed load. -/
theorem release_cleanedUp {α : Type} {s t : ResidencyStats × Host × MemoryBudget} (error : String)
    (h : Outside (LayerCache.activePrefix layerIdx) s.2.2 t.2.2) :
    Ends (do releaseLayer layerIdx; throw error : LayerCall α) t (fun _ _ => True)
      (fun _ => CleanedUp layerIdx s) fun _ _ => True := by
  rw [ends_bind, ends_of_ok (releaseLayer_run layerIdx h.accounted), ends_throw]
  exact ⟨t.2.2, h, rfl⟩

theorem loadLayer_ends {s : ResidencyStats × Host × MemoryBudget} (h : s.2.2.Accounted)
    (hlayer : layerIdx < model.layerDescriptors.length) :
    Ends (model.loadLayer layerIdx) s (fun _ _ => True) (fun _ => CleanedUp layerIdx s)
      fun _ _ => True := by
  unfold loadLayer
  rw [ends_bind, ends_okOr, List.getElem?_eq_getElem hlayer]
  refine ⟨fun hnone => (Option.some_ne_none _ hnone).elim, fun layer _ => ?_⟩
  rw [ends_bind, ends_expect]
  refine ⟨fun _ => trivial, fun plan _ => ?_⟩
  rw [ends_bind, ends_onSnd]
  refine (readPath_looks layerIdx model plan s.2).mono ?_ (fun _ _ hfalse => hfalse.elim) fun _ _ _ => trivial
  rintro path _ rfl
  rw [ends_bind, ends_attempt, ends_onSnd]
  have hload := (loadTensors_confined (R := R) layerIdx layer plan path s.2.2).ends (s := s.2) (.refl h)
  refine hload.mono (fun l t ht => ?_) (fun error t ht => release_cleanedUp error ht)
    fun _ _ _ => trivial
  show Ends (modify _ >>= _) _ _ _ _
  rw [ends_bind, ends_modify, ends_bind, ends_attempt, ends_resume]
  exact ⟨fun _ _ => trivial, fun error _ => release_cleanedUp error ht, fun _ _ => trivial⟩

/-- A failed load leaves the charges as they were if and only if it stopped at the index or
no charge of the layer was live. -/
theorem loadLayer_atomic_iff {s t : ResidencyStats × Host × MemoryBudget} {error : String}
    (h : s.2.2.Accounted) (hrun : model.loadLayer layerIdx s = (.err error, t)) :
    t.2.2.allocations = s.2.2.allocations ↔
      model.layerDescriptors.length ≤ layerIdx ∨
        s.2.2.namesUnder (LayerCache.activePrefix layerIdx) = [] := by
  rcases Nat.lt_or_ge layerIdx model.layerDescriptors.length with hlt | hge
  · obtain ⟨b, houtside, hb⟩ := (loadLayer_ends model h hlt).of_err hrun
    rw [hb, houtside.cleanup_eq_iff]
    exact ⟨.inr, fun hor => hor.resolve_left (Nat.not_le.mpr hlt)⟩
  · refine ⟨fun _ => .inl hge, fun _ => ?_⟩
    unfold loadLayer at hrun
    rw [List.getElem?_eq_none hge, okOr_none, throw_bind_run] at hrun
    cases hrun
    rfl

/-! ### The small file -/

/-- A process that has opened the small file. -/
def opened (total : Nat) : ResidencyStats × Host × MemoryBudget :=
  (.new, Planner.sampleHost Planner.sampleGguf,
    { total := total
      allocations := ∅
      used := 0
      peakUsed := 0 })

def loadSample : LayerCall (StreamingLlamaModel ℚ) := do
  let loaded ← onSnd (@loadInternal ℚ _ _ Planner.sampleText none)
  return loaded.1

/-- A budget of 100 bytes has room for the first tensor of the layer and not for the second. -/
theorem loadLayer_atomic_iff_small :
    ∃ model s error t, loadSample (opened 10000) = (.ok model, s) ∧
      model.loadLayer 0 (opened 100) = (.err error, t) ∧ t.2.2.allocations = ∅ := by
  have hrun : ((loadSample >>= fun model => attempt (resume (model.loadLayer 0 (opened 100)).1))
      (opened 10000)).1.map (·.isOk) = .ok false := by
    decide +kernel
  obtain ⟨result, hresult, hfalse⟩ := Outcome.of_map_ok hrun
  obtain ⟨_, hresult⟩ := exists_of_fst_ok hresult
  obtain ⟨model, s, hmodel, hagain⟩ := of_bind_ok hresult
  rcases of_attempt_ok hagain with ⟨weights, rfl, -⟩ | ⟨error, rfl, herror⟩
  · cases hfalse
  have hlayer : model.loadLayer 0 (opened 100) = (.err error, (model.loadLayer 0 (opened 100)).2) :=
    Prod.ext (Prod.mk.inj herror).1 rfl
  have hlt : 100 < u64Bound := by decide
  have hacc := (accounted_new hlt rfl).1
  exact ⟨model, s, error, _, hmodel, hlayer, (loadLayer_atomic_iff model hacc hlayer).mpr (.inr rfl)⟩

/-- A layer is loaded again while it is live: the load fails on its first charge, and the
charges of the live copy are gone. -/
theorem reload_drops_live :
    ∃ model s weights s' error t, loadSample (opened 10000) = (.ok model, s) ∧
      model.loadLayer 0 s = (.ok weights, s') ∧ model.loadLayer 0 s' = (.err error, t) ∧
      s'.2.2.get "layer:0:blk.0.attn_norm.weight" = some 32 ∧
      t.2.2.allocations ≠ s'.2.2.allocations := by
  have hrun : ((do
      let model ← loadSample
      let _ ← model.loadLayer 0
      let live ← self
      let again ← attempt (model.loadLayer 0)
      let left ← self
      return (again.isOk, live.2.2.get "layer:0:blk.0.attn_norm.weight",
        left.2.2.get "layer:0:blk.0.attn_norm.weight") : LayerCall _) (opened 10000)).1 =
      .ok (false, some 32, none) := by
    decide +kernel
  obtain ⟨_, hrun⟩ := exists_of_fst_ok hrun
  obtain ⟨model, s, hmodel, hrun⟩ := of_bind_ok hrun
  obtain ⟨weights, s', hfirst, hrun⟩ := of_bind_ok hrun
  rw [self_bind_run] at hrun
  obtain ⟨again, t, hagain, hrun⟩ := of_bind_ok hrun
  rw [self_bind_run] at hrun
  have hends := Outcome.ok.inj (Prod.mk.inj hrun).1
  obtain ⟨hok, hlive, hleft⟩ : again.isOk = false ∧ _ = some 32 ∧ _ = none :=
    ⟨(Prod.mk.inj hends).1, (Prod.mk.inj (Prod.mk.inj hends).2).1, (Prod.mk.inj (Prod.mk.inj hends).2).2⟩
  rcases of_attempt_ok hagain with ⟨_, rfl, -⟩ | ⟨error, rfl, hsecond⟩
  · cases hok
  refine ⟨model, s, weights, s', error, t, hmodel, hfirst, hsecond, hlive, fun heq => ?_⟩
  rw [MemoryBudget.get, heq] at hleft
  exact absurd (hlive.symm.trans hleft) (Option.some_ne_none 32)

end StreamingLlamaModel
end Ramforge
