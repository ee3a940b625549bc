/-
The persistent weights in a plan and at startup.

A plan adds up charges by descriptors.  Startup makes them, one weight after the
other, and settles each; the ledger mirrors the plan after every step.
-/
import Ramforge.Core.MemoryStep
import Ramforge.Runtime.ModelLoad
import Ramforge.Runtime.WeightLoad

namespace Ramforge

open Rust Rust.Exec GgufDataSource

namespace Planner

/-- The policy on a descriptor. -/
def keptResident (ramBudgetBytes : Nat) (desc : TensorDescriptor) : Bool :=
  desc.residentSize.any (shouldKeepResident · ramBudgetBytes)

/-- What startup asks of a tensor that it keeps: bytes to charge, and whole blocks. -/
def Holdable (desc : TensorDescriptor) : Prop := desc.residentSize ≠ some 0 ∧ desc.WholeBlocks

instance (desc : TensorDescriptor) : Decidable (Holdable desc) :=
  inferInstanceAs (Decidable (_ ∧ _))

/-- A tensor that the plan has counted. -/
structure Counted (desc : TensorDescriptor) (fileBytes resident charge : Nat) : Prop where
  length : desc.byteLength = some fileBytes
  resident : TensorData.residentBytesFor desc.ggmlType desc.numElements fileBytes = .ok resident
  charge : tensorLoadChargeBytes desc.ggmlType fileBytes = .ok charge

/-- The totals with one more resident tensor. -/
def PersistentTotals.keep (totals : PersistentTotals) (resident charge : Nat) : PersistentTotals :=
  { residentBytes := totals.residentBytes + max resident 1
    startupPeakBytes := max totals.startupPeakBytes (totals.residentBytes + max charge 1)
    residentCount := totals.residentCount + 1
    streamedCount := totals.streamedCount }

theorem PersistentTotals.add_cases {ramBudgetBytes : Nat} {totals totals' : PersistentTotals}
    {desc : TensorDescriptor} (h : totals.add ramBudgetBytes desc = .ok totals') :
    (keptResident ramBudgetBytes desc = true ∧
      ∃ fileBytes resident charge, Counted desc fileBytes resident charge ∧
        totals' = totals.keep resident charge) ∨
    (keptResident ramBudgetBytes desc = false ∧
      (∃ fileBytes resident, desc.byteLength = some fileBytes ∧
        TensorData.residentBytesFor desc.ggmlType desc.numElements fileBytes = .ok resident) ∧
      totals' = { totals with streamedCount := totals.streamedCount + 1 }) := by
  obtain ⟨fileBytes, hlen, h⟩ := Outcome.of_okOr_bind_ok h
  obtain ⟨resident, hlift, h⟩ := Outcome.of_bind_ok h
  have hresident : TensorData.residentBytesFor desc.ggmlType desc.numElements fileBytes =
      .ok resident := by
    cases hsize : TensorData.residentBytesFor desc.ggmlType desc.numElements fileBytes with
    | error e =>
      rw [hsize] at hlift
      cases hlift
    | ok bytes =>
      rw [hsize] at hlift
      cases hlift
      rfl
  have hkept : keptResident ramBudgetBytes desc = shouldKeepResident resident ramBudgetBytes := by
    rw [keptResident, TensorDescriptor.residentSize_eq hlen hresident]
    rfl
  split at h
  · rename_i hkeep
    obtain ⟨charge, hcharge, h⟩ := Outcome.of_bind_ok h
    obtain ⟨peak, hpeak, h⟩ := Outcome.of_bind_ok h
    obtain ⟨settled, hsettled, h⟩ := Outcome.of_bind_ok h
    cases h
    refine .inl ⟨hkept.trans hkeep, fileBytes, resident, charge, ⟨hlen, hresident, hcharge⟩, ?_⟩
    rw [(labelledAdd_ok hpeak).1, (labelledAdd_ok hsettled).1]
    rfl
  · rename_i hkeep
    cases h
    exact .inr ⟨hkept.trans (Bool.eq_false_iff.mpr hkeep), ⟨fileBytes, resident, hlen, hresident⟩, rfl⟩

/-! ## One weight -/

/-- The ledger holds what the plan has added up so far, under the given names. -/
structure Mirrors (ramBudgetBytes : Nat) (totals : PersistentTotals) (names : List String)
    (b : MemoryBudget) : Prop where
  accounted : b.Accounted
  total : b.total = ramBudgetBytes
  used : b.used = totals.residentBytes
  peak : b.peakUsed = totals.startupPeakBytes
  small : totals.residentBytes ≤ totals.residentCount * (ramBudgetBytes / 4)
  names : ∀ name, (b.get name).isSome = true → name ∈ names

namespace Mirrors

variable {ramBudgetBytes : Nat} {totals : PersistentTotals} {names : List String} {b : MemoryBudget}

theorem stream (h : Mirrors ramBudgetBytes totals names b) :
    Mirrors ramBudgetBytes { totals with streamedCount := totals.streamedCount + 1 } names b :=
  ⟨h.accounted, h.total, h.used, h.peak, h.small, h.names⟩

variable {desc : TensorDescriptor} {fileBytes resident charge : Nat} {name : String}

/-- Two tensors in place leave room for the load of a third. -/
theorem fits (h : Mirrors ramBudgetBytes totals names b) (hcount : totals.residentCount ≤ 2)
    (hcharge : 2 * charge ≤ 3 * resident) (hkeep : resident ≤ ramBudgetBytes / 4) :
    b.used + charge ≤ b.total := by
  have hsmall := h.small
  have hle := Nat.mul_le_mul_right (ramBudgetBytes / 4) hcount
  rw [h.used, h.total]
  omega

theorem keep (h : Mirrors ramBudgetBytes totals names b) (hfresh : name ∉ names)
    (hpos : 0 < resident) (hle : resident ≤ charge) (hfits : b.used + charge ≤ b.total)
    (hkeep : resident ≤ ramBudgetBytes / 4) :
    Mirrors ramBudgetBytes (totals.keep resident charge) (names ++ [name])
      ((b.charge name charge).recharge name charge resident) := by
  have hnone : b.get name = none := by
    cases hget : b.get name with
    | none => rfl
    | some bytes => exact absurd (h.names name (by rw [hget]; rfl)) hfresh
  have hcharged : (b.charge name charge).Accounted :=
    (MemoryBudget.Step.charge (by omega) hnone hfits).accounted h.accounted
  have hget : (b.charge name charge).get name = some charge := by
    rw [MemoryBudget.get_charge, if_pos rfl]
  have hused : (b.charge name charge).used - charge + resident = b.used + resident := by
    rw [MemoryBudget.charge_used, Nat.add_sub_cancel]
  have hrefits : (b.charge name charge).used - charge + resident ≤
      (b.charge name charge).total := by
    rw [hused]
    exact Nat.le_trans (Nat.add_le_add_left hle _) hfits
  refine ⟨(MemoryBudget.Step.recharge hpos hget hrefits).accounted hcharged, h.total, ?_, ?_, ?_, ?_⟩
  · show (b.charge name charge).used - charge + resident = totals.residentBytes + max resident 1
    rw [hused, h.used, Nat.max_eq_left hpos]
  · show max (max b.peakUsed (b.used + charge)) ((b.charge name charge).used - charge + resident) =
      max totals.startupPeakBytes (totals.residentBytes + max charge 1)
    rw [hused, h.used, h.peak]
    omega
  · show totals.residentBytes + max resident 1 ≤ (totals.residentCount + 1) * (ramBudgetBytes / 4)
    have hsmall := h.small
    rw [Nat.add_mul]
    omega
  · intro other hother
    rw [MemoryBudget.get, MemoryBudget.recharge, MapSum.getElem?_insert'] at hother
    by_cases heq : other = name
    · rw [heq]
      exact List.mem_append_right _ List.mem_cons_self
    · rw [if_neg heq] at hother
      have hbefore : (b.charge name charge).get other = b.get other := by
        rw [MemoryBudget.get_charge, if_neg heq]
      rw [MemoryBudget.get] at hbefore
      rw [hbefore] at hother
      exact List.mem_append_left _ (h.names other hother)

end Mirrors

variable {R : Type}

section weight

variable [F32 R]

/-- The read that the policy makes for a tensor. -/
def readKept (ramBudgetBytes : Nat) (desc : TensorDescriptor) : Exec Host DataSourceError Unit :=
  if keptResident ramBudgetBytes desc then readPayload desc else pure ()

/-- The charge that a tensor has once it is loaded. -/
def chargeNamesOf (ramBudgetBytes : Nat) (desc : TensorDescriptor) : List String :=
  if keptResident ramBudgetBytes desc then [weightCharge desc.name] else []

theorem getDescriptor_of_findTensor {source : GgufDataSource} {name : String}
    {desc : TensorDescriptor} (h : source.model.findTensor name = some desc) :
    source.getDescriptor name = .ok desc := by
  unfold GgufModel.findTensor at h
  unfold getDescriptor
  rw [h]

theorem fileBytes_lt {desc : TensorDescriptor} {fileBytes resident charge ramBudgetBytes : Nat}
    (hsized : desc.Sized) (hcounted : Counted desc fileBytes resident charge)
    (hkeep : resident ≤ ramBudgetBytes / 4) (hbudget : ramBudgetBytes < u64Bound) :
    fileBytes < isizeBound := by
  have hbounds := hsized.loadCharge_bounds hcounted.length hcounted.resident hcounted.charge
  have hle : fileBytes ≤ charge := by
    rw [← tensorLoadChargeBytes_eq_ok hcounted.charge]
    refine Nat.le_mul_of_pos_right _ ?_
    unfold loadFactor
    split <;> decide
  have := two_mul_isizeBound
  omega

theorem settlePersistent_run {desc : TensorDescriptor} {name : String}
    {fileBytes resident charge : Nat} {host host' : Host} {b : MemoryBudget} {tensor : TensorData R}
    (hcounted : Counted desc fileBytes resident charge)
    (hload : loadTensorData desc host = (.ok tensor, host')) (hb : b.Accounted)
    (hget : b.get (weightCharge name) = some charge) (hpos : 0 < resident)
    (hfits : b.used - charge + resident ≤ b.total) :
    settlePersistent desc name resident (host, b) =
      (.ok tensor, (host', b.recharge (weightCharge name) charge resident)) := by
  have hbytes := residentBytes_of_loadTensorData hload hcounted.length hcounted.resident
  have hresize : MemoryBudget.resize (weightCharge name) tensor.residentBytes b =
      (.ok charge, b.recharge (weightCharge name) charge resident) := by
    rw [hbytes, MemoryBudget.resize_run hb, if_neg (by omega), hget]
    simp only [if_pos hfits]
  have hread : onFst (κ := Host) (loadTensorData desc) (host, b) = (.ok tensor, (host', b)) := by
    rw [onFst_run, hload]
  unfold settlePersistent
  rw [bind_of_ok hread]
  rw [failIf_bind_run, if_neg (not_not.mpr hbytes)]
  simp only [bind_run, mapErr_run, onSnd_run, hresize]
  rfl

def isResident : PersistentWeight R → Bool
  | .resident _ => true
  | .streamed _ => false

theorem loadPersistentWeight_mirrors {ramBudgetBytes : Nat} {totals totals' : PersistentTotals}
    {names : List String} {b : MemoryBudget} {host host' : Host} {name : String}
    {desc : TensorDescriptor} (hm : Mirrors ramBudgetBytes totals names b)
    (hbudget : ramBudgetBytes < u64Bound) (hfind : host.2.2.model.findTensor name = some desc)
    (hfresh : weightCharge name ∉ names) (hcount : totals.residentCount ≤ 2)
    (hadd : totals.add ramBudgetBytes desc = .ok totals') (hsized : desc.Sized)
    (hhold : keptResident ramBudgetBytes desc = true → Holdable desc)
    (hread : readKept ramBudgetBytes desc host = (.ok (), host')) :
    ∃ (weight : PersistentWeight R) (charge : Option String) (b' : MemoryBudget),
      loadPersistentWeight name (host, b) = (.ok (weight, charge), (host', b')) ∧
        isResident weight = keptResident ramBudgetBytes desc ∧
        charge.toList = chargeNamesOf ramBudgetBytes desc ∧
        Mirrors ramBudgetBytes totals' (names ++ charge.toList) b' := by
  have hname : desc.name = name := (findTensor_eq_some hfind).2
  have hdesc := getDescriptor_of_findTensor hfind
  obtain ⟨hkept, fileBytes, resident, charge, hcounted, rfl⟩ |
    ⟨hkept, ⟨fileBytes, resident, hlen, hresident⟩, rfl⟩ := PersistentTotals.add_cases hadd
  · have hsize := TensorDescriptor.residentSize_eq hcounted.length hcounted.resident
    have hkeep : shouldKeepResident resident ramBudgetBytes = true := by
      rw [keptResident, hsize] at hkept
      exact hkept
    have hle : resident ≤ ramBudgetBytes / 4 := of_decide_eq_true hkeep
    obtain ⟨hne, hblocks⟩ := hhold hkept
    have hpos : 0 < resident := Nat.pos_of_ne_zero fun hzero => hne (by rw [hsize, hzero])
    obtain ⟨hcover, hhalf⟩ := hsized.loadCharge_bounds hcounted.length hcounted.resident
      hcounted.charge
    have hfits := hm.fits hcount hhalf hle
    rw [readKept, if_pos hkept] at hread
    obtain ⟨tensor, hload⟩ := exists_loadTensorData (R := R) hsized hcounted.length
      hcounted.resident (fileBytes_lt hsized hcounted hle hbudget) hblocks hread
    have hnone : b.get (weightCharge name) = none := by
      cases hget : b.get (weightCharge name) with
      | none => rfl
      | some bytes => exact absurd (hm.names _ (by rw [hget]; rfl)) hfresh
    have halloc : MemoryBudget.allocate (weightCharge name) charge b =
        (.ok (), b.charge (weightCharge name) charge) := by
      rw [MemoryBudget.allocate_run hm.accounted, if_neg (by omega), hnone,
        if_neg (by simp), if_pos hfits]
    have hcharged : (b.charge (weightCharge name) charge).Accounted :=
      (MemoryBudget.Step.charge (by omega) hnone hfits).accounted hm.accounted
    have hsettle := settlePersistent_run (b := b.charge (weightCharge name) charge) hcounted hload
      hcharged (by rw [MemoryBudget.get_charge, if_pos rfl]) hpos (by
        rw [MemoryBudget.charge_used, MemoryBudget.charge_total]
        omega)
    refine ⟨.resident tensor, some (weightCharge name), _, ?_, hkept.symm, ?_,
      hm.keep hfresh hpos hcover hfits hle⟩
    · unfold loadPersistentWeight
      rw [self_bind_run, hdesc]
      show ((okOr desc.byteLength _ >>= _) _) = _
      rw [okOr_bind_run, hcounted.length]
      simp only [hcounted.resident]
      show (if !shouldKeepResident resident b.total then _ else _ : Managed _) _ = _
      rw [hm.total, hkeep]
      show (resume (tensorLoadChargeBytes desc.ggmlType fileBytes) >>= _) _ = _
      rw [hcounted.charge]
      show (failIf _ _ >>= _) _ = _
      rw [failIf_bind_run, if_neg (Nat.not_lt.mpr hcover)]
      simp only [bind_run, mapErr_run, onSnd_run, halloc]
      simp only [Outcome.mapErr, attempt, hsettle]
      rfl
    · rw [chargeNamesOf, if_pos hkept, hname]
      rfl
  · have hkeep : shouldKeepResident resident ramBudgetBytes = false := by
      rw [keptResident, TensorDescriptor.residentSize_eq hlen hresident] at hkept
      exact hkept
    rw [readKept, hkept] at hread
    cases hread
    refine ⟨.streamed desc, none, b, ?_, hkept.symm, ?_, ?_⟩
    · unfold loadPersistentWeight
      rw [self_bind_run, hdesc]
      show ((okOr desc.byteLength _ >>= _) _) = _
      rw [okOr_bind_run, hlen]
      simp only [hresident]
      show (if !shouldKeepResident resident b.total then _ else _ : Managed _) _ = _
      rw [hm.total, hkeep]
      rfl
    · rw [chargeNamesOf, hkept]
      rfl
    · rw [Option.toList_none, List.append_nil]
      exact hm.stream

/-- What was kept could be held. -/
theorem holdable_of_loadPersistentWeight {ramBudgetBytes : Nat} {name : String}
    {desc : TensorDescriptor} {s s' : Host × MemoryBudget}
    {r : PersistentWeight R × Option String} (h : loadPersistentWeight name s = (.ok r, s'))
    (hfind : s.1.2.2.model.findTensor name = some desc) (htotal : s.2.total = ramBudgetBytes)
    (hkept : keptResident ramBudgetBytes desc = true) : Holdable desc := by
  have hdesc := getDescriptor_of_findTensor hfind
  unfold loadPersistentWeight at h
  rw [self_bind_run, hdesc] at h
  obtain ⟨fileBytes, hlen, h⟩ := of_okOr_bind_ok h
  obtain ⟨resident, hmapped, h⟩ := of_ofResult_bind_ok h
  have hresident : TensorData.residentBytesFor desc.ggmlType desc.numElements fileBytes =
      .ok resident := by
    cases hsize : TensorData.residentBytesFor desc.ggmlType desc.numElements fileBytes with
    | error e =>
      rw [hsize] at hmapped
      cases hmapped
    | ok bytes =>
      rw [hsize] at hmapped
      cases hmapped
      rfl
  have hsize := TensorDescriptor.residentSize_eq hlen hresident
  have hkeep : shouldKeepResident resident s.2.total = true := by
    rw [htotal]
    rw [keptResident, hsize] at hkept
    exact hkept
  rw [hkeep] at h
  obtain ⟨charge, _, -, h⟩ := of_bind_ok h
  obtain ⟨_, h⟩ := of_failIf_bind_ok h
  obtain ⟨_, s₁, halloc, h⟩ := of_bind_ok h
  obtain ⟨result, s₂, hsettle, h⟩ := of_bind_ok h
  cases result with
  | error error =>
    obtain ⟨_, _, _, h⟩ := of_bind_ok h
    cases h
  | ok tensor =>
    have hsettled : settlePersistent desc name resident s₁ = (.ok tensor, s₂) :=
      of_attempt_value hsettle
    unfold settlePersistent at hsettled
    obtain ⟨tensor', s₃, hload, hsettled⟩ := of_bind_ok hsettled
    obtain ⟨heq, hsettled⟩ := of_failIf_bind_ok hsettled
    obtain ⟨old, s₄, hresize, -⟩ := of_bind_ok hsettled
    refine ⟨?_, wholeBlocks_of_loadTensorData (of_onFst_ok hload).1⟩
    obtain ⟨hresize, -⟩ := of_onSnd_ok (of_mapErr_ok hresize)
    unfold MemoryBudget.resize at hresize
    rw [self_bind_run] at hresize
    obtain ⟨hne, -⟩ := of_failIf_bind_ok hresize
    rw [hsize]
    intro hzero
    rw [not_not.mp heq, Option.some.inj hzero] at hne
    exact hne rfl

/-! ## The three weights -/

/-- A sound ledger of this size. -/
def SoundAt (ramBudgetBytes : Nat) (b : MemoryBudget) : Prop :=
  b.Accounted ∧ b.total = ramBudgetBytes

/-- What a load leaves as it was. -/
def Held (source : GgufDataSource) (ramBudgetBytes : Nat) (s : Host × MemoryBudget) : Prop :=
  HostUnwritten source s.1 ∧ SoundAt ramBudgetBytes s.2

theorem keeps_of_step {α : Type} {ramBudgetBytes : Nat} {m : Exec MemoryBudget MemoryError α}
    (h : ∀ b, b.Accounted → MemoryBudget.Step b (m b).2) :
    Keeps (SoundAt ramBudgetBytes) m := by
  intro b hb
  have hstep := h b hb.1
  exact ⟨hstep.accounted hb.1, hstep.total_eq.trans hb.2⟩

theorem keeps_loadTensorData (source : GgufDataSource) (desc : TensorDescriptor) :
    Keeps (HostUnwritten source) (loadTensorData (R := R) desc) := by
  unfold loadTensorData
  split
  · exact ((keeps_readF32TensorRangeByDescriptor source desc _ _).mapErr _).bind fun _ => .ofResult _
  · exact ((keeps_readTensorByDescriptor source desc).mapErr _).bind fun _ => .ofResult _

theorem keeps_settlePersistent (source : GgufDataSource) (ramBudgetBytes : Nat)
    (desc : TensorDescriptor) (name : String) (resident : Nat) :
    Keeps (Held source ramBudgetBytes) (settlePersistent (R := R) desc name resident) := by
  refine Keeps.bind (Keeps.onFst_both (keeps_loadTensorData source desc)) fun tensor =>
    (Keeps.failIf _ _).bind fun _ => Keeps.bind (Keeps.mapErr (Keeps.onSnd_both ?_) _) fun _ => .pure _
  exact keeps_of_step fun b hb => MemoryBudget.resize_step hb _ _

theorem keeps_loadPersistentWeight (source : GgufDataSource) (ramBudgetBytes : Nat) (name : String) :
    Keeps (Held source ramBudgetBytes) (loadPersistentWeight (R := R) name) := by
  refine Keeps.self.bind fun s => (Keeps.ofResult _).bind fun desc => (Keeps.okOr _ _).bind fun fileBytes =>
    (Keeps.ofResult _).bind fun resident => ?_
  split
  · exact .pure _
  · refine (Keeps.resume _).bind fun charge => (Keeps.failIf _ _).bind fun _ =>
      ((Keeps.onSnd_both (keeps_of_step fun b hb => MemoryBudget.allocate_step hb _ _)).mapErr _).bind
        fun _ => (keeps_settlePersistent source ramBudgetBytes desc name _).attempt.bind
          fun result => ?_
    cases result
    · exact ((Keeps.onSnd_both (keeps_of_step fun b hb =>
        MemoryBudget.release_step hb _)).orPanic _).bind fun _ => .throw _
    · exact .pure _

theorem keeps_loadOwned (source : GgufDataSource) (ramBudgetBytes : Nat) (name : String) :
    Keeps (fun s : List String × Host × MemoryBudget => Held source ramBudgetBytes s.2)
      (loadOwned (R := R) name) := by
  refine (keeps_loadPersistentWeight source ramBudgetBytes name).onSnd.bind fun r => ?_
  exact Keeps.bind (fun _ hs => hs) fun _ => .pure _

theorem loadOwned_of_ok {names : List String} {s s' : Host × MemoryBudget} {name : String}
    {weight : PersistentWeight R} {charge : Option String}
    (h : loadPersistentWeight name s = (.ok (weight, charge), s')) :
    loadOwned name (names, s) = (.ok weight, (names ++ charge.toList, s')) := by
  have hload : onSnd (loadPersistentWeight name) (names, s) = (.ok (weight, charge), (names, s')) := by
    rw [onSnd_run, h]
  unfold loadOwned
  rw [bind_of_ok hload]
  rfl

theorem of_loadOwned_ok {s s' : List String × Host × MemoryBudget} {name : String}
    {weight : PersistentWeight R} (h : loadOwned name s = (.ok weight, s')) :
    ∃ charge, loadPersistentWeight name s.2 = (.ok (weight, charge), s'.2) := by
  obtain ⟨⟨found, charge⟩, s₁, hload, h⟩ := of_bind_ok h
  cases h
  exact ⟨charge, (of_onSnd_ok hload).1⟩

/-- Where the load of the persistent weights stands: what is left of the plan and of the
reads, and what is done of both. -/
structure Loading (model : GgufModel) (ramBudgetBytes : Nat) (planned : PersistentTotals)
    (hostEnd : Host) (rest : List TensorDescriptor) (loaded : Nat)
    (s : List String × Host × MemoryBudget) : Prop where
  model : s.2.1.2.2.model = model
  plan : ∃ totals, rest.foldlM (PersistentTotals.add ramBudgetBytes) totals = .ok planned ∧
    Mirrors ramBudgetBytes totals s.1 s.2.2 ∧ totals.residentCount ≤ loaded
  reads : rest.forM (readKept ramBudgetBytes) s.2.1 = (.ok (), hostEnd)

theorem Loading.next {model : GgufModel} {ramBudgetBytes loaded : Nat} {planned : PersistentTotals}
    {hostEnd : Host} {rest : List TensorDescriptor} {s : List String × Host × MemoryBudget}
    {name : String} {desc : TensorDescriptor}
    (h : Loading model ramBudgetBytes planned hostEnd (desc :: rest) loaded s)
    (hbudget : ramBudgetBytes < u64Bound) (hfind : model.findTensor name = some desc)
    (hfresh : weightCharge name ∉ s.1) (hloaded : loaded ≤ 2) (hsized : desc.Sized)
    (hhold : keptResident ramBudgetBytes desc = true → Holdable desc) :
    ∃ (weight : PersistentWeight R) (s' : List String × Host × MemoryBudget),
      loadOwned name s = (.ok weight, s') ∧ isResident weight = keptResident ramBudgetBytes desc ∧
        s'.1 = s.1 ++ chargeNamesOf ramBudgetBytes desc ∧
        Loading model ramBudgetBytes planned hostEnd rest (loaded + 1) s' := by
  obtain ⟨hmodel, ⟨totals, hfold, hmirrors, hcount⟩, hreads⟩ := h
  obtain ⟨names, host, b⟩ := s
  rw [List.foldlM_cons] at hfold
  obtain ⟨totals', hadd, hfold⟩ := Outcome.of_bind_ok hfold
  obtain ⟨_, host', hread, hreads⟩ := of_bind_ok
    (show (readKept ramBudgetBytes desc >>= fun _ => rest.forM (readKept ramBudgetBytes)) host =
      (.ok (), hostEnd) from hreads)
  obtain ⟨weight, charge, b', hload, hresident, hcharge, hmirrors'⟩ :=
    loadPersistentWeight_mirrors (R := R) hmirrors hbudget (by rw [hmodel]; exact hfind) hfresh
      (Nat.le_trans hcount hloaded) hadd hsized hhold hread
  have hheld : Held host.2.2 ramBudgetBytes (host, b) :=
    ⟨SameData.refl _, hmirrors.accounted, hmirrors.total⟩
  have hkept := keeps_loadPersistentWeight (R := R) host.2.2 ramBudgetBytes name _ hheld
  rw [hload] at hkept
  refine ⟨weight, _, loadOwned_of_ok hload, hresident, by rw [hcharge],
    hkept.1.model.trans hmodel, ⟨totals', hfold, hmirrors', ?_⟩, hreads⟩
  obtain ⟨-, _, _, _, -, rfl⟩ | ⟨-, -, rfl⟩ := PersistentTotals.add_cases hadd
  · exact Nat.succ_le_succ hcount
  · exact Nat.le_succ_of_le hcount

theorem mem_chargeNamesOf {ramBudgetBytes : Nat} {desc : TensorDescriptor} {name : String}
    (h : name ∈ chargeNamesOf ramBudgetBytes desc) : name = weightCharge desc.name := by
  unfold chargeNamesOf at h
  split at h
  · exact List.mem_singleton.mp h
  · cases h

variable {model : GgufModel} {ramBudgetBytes : Nat}

/-- The persistent tensors of a model that has the two it must have. -/
theorem present_cases (htoken : model.hasTensor "token_embd.weight" = true)
    (hnorm : model.hasTensor "output_norm.weight" = true) :
    ∃ token norm, model.findTensor "token_embd.weight" = some token ∧
      model.findTensor "output_norm.weight" = some norm ∧
      (PersistentDescriptors.fromModel model).present =
        token :: norm :: (model.findTensor "output.weight").toList := by
  rw [← isSome_findTensor] at htoken hnorm
  obtain ⟨token, htoken⟩ := Option.isSome_iff_exists.mp htoken
  obtain ⟨norm, hnorm⟩ := Option.isSome_iff_exists.mp hnorm
  refine ⟨token, norm, htoken, hnorm, ?_⟩
  unfold PersistentDescriptors.fromModel PersistentDescriptors.present
  simp only [htoken, hnorm]
  cases model.findTensor "output.weight" <;> rfl

/-- The weights in the order they are loaded in. -/
def loadedWeights (weights : PersistentWeights R) : List (PersistentWeight R) :=
  weights.tokenEmbd :: weights.outputNorm :: weights.output.toList

theorem loadPersistents_run {planned : PersistentTotals} {hostEnd : Host}
    {s : List String × Host × MemoryBudget} (htoken : model.hasTensor "token_embd.weight" = true)
    (hnorm : model.hasTensor "output_norm.weight" = true)
    (h : Loading model ramBudgetBytes planned hostEnd (PersistentDescriptors.fromModel model).present
      0 s) (hempty : s.1 = []) (hbudget : ramBudgetBytes < u64Bound)
    (hsized : ∀ desc ∈ model.tensors, desc.Sized)
    (hhold : ∀ desc ∈ (PersistentDescriptors.fromModel model).present,
      keptResident ramBudgetBytes desc = true → Holdable desc) :
    ∃ (weights : PersistentWeights R) (names : List String) (host : Host) (b : MemoryBudget),
      loadPersistents model s = (.ok weights, (names, host, b)) ∧
        (loadedWeights weights).map isResident =
          (PersistentDescriptors.fromModel model).present.map (keptResident ramBudgetBytes) ∧
        names = (PersistentDescriptors.fromModel model).present.flatMap
          (chargeNamesOf ramBudgetBytes) ∧
        Mirrors ramBudgetBytes planned names b := by
  obtain ⟨token, norm, hfindToken, hfindNorm, hpresent⟩ := present_cases htoken hnorm
  rw [hpresent] at h hhold ⊢
  obtain ⟨htokenMem, htokenName⟩ := findTensor_eq_some hfindToken
  obtain ⟨hnormMem, hnormName⟩ := findTensor_eq_some hfindNorm
  obtain ⟨tokenEmbd, s₁, hload₁, hresident₁, hnames₁, h₁⟩ := h.next (R := R) hbudget hfindToken
    (by rw [hempty]; exact List.not_mem_nil) (by decide) (hsized token htokenMem)
    (hhold token List.mem_cons_self)
  rw [hempty, List.nil_append] at hnames₁
  obtain ⟨outputNorm, s₂, hload₂, hresident₂, hnames₂, h₂⟩ := h₁.next (R := R) hbudget hfindNorm (by
      rw [hnames₁]
      intro hmem
      have heq := mem_chargeNamesOf hmem
      rw [htokenName] at heq
      revert heq
      decide) (by decide) (hsized norm hnormMem)
    (hhold norm (List.mem_cons_of_mem _ List.mem_cons_self))
  rw [hnames₁] at hnames₂
  unfold loadPersistents
  rw [bind_of_ok hload₁, bind_of_ok hload₂]
  cases hfindOutput : model.findTensor "output.weight" with
  | none =>
    rw [hfindOutput] at h₂
    have habsent : model.hasTensor "output.weight" = false := by
      rw [← isSome_findTensor, hfindOutput]
      rfl
    obtain ⟨totals, hfold, hmirrors, -⟩ := h₂.plan
    cases hfold
    rw [habsent]
    refine ⟨⟨tokenEmbd, outputNorm, none⟩, s₂.1, s₂.2.1, s₂.2.2, rfl, ?_, ?_, hmirrors⟩
    · show [_, _] = [_, _]
      rw [hresident₁, hresident₂]
    · rw [hnames₂]
      show _ = _ ++ (_ ++ [])
      rw [List.append_nil]
  | some output =>
    obtain ⟨houtputMem, houtputName⟩ := findTensor_eq_some hfindOutput
    rw [hfindOutput] at h₂ hhold
    have hthere : model.hasTensor "output.weight" = true := by
      rw [← isSome_findTensor, hfindOutput]
      rfl
    obtain ⟨outputWeight, s₃, hload₃, hresident₃, hnames₃, h₃⟩ := h₂.next (R := R) hbudget hfindOutput
      (by
        rw [hnames₂]
        intro hmem
        rcases List.mem_append.mp hmem with hmem | hmem
        · have heq := mem_chargeNamesOf hmem
          rw [htokenName] at heq
          revert heq
          decide
        · have heq := mem_chargeNamesOf hmem
          rw [hnormName] at heq
          revert heq
          decide) (by decide) (hsized output houtputMem)
      (hhold output (List.mem_cons_of_mem _ (List.mem_cons_of_mem _ List.mem_cons_self)))
    obtain ⟨totals, hfold, hmirrors, -⟩ := h₃.plan
    cases hfold
    rw [hthere]
    refine ⟨⟨tokenEmbd, outputNorm, some outputWeight⟩, s₃.1, s₃.2.1, s₃.2.2, ?_, ?_, ?_, hmirrors⟩
    · show (loadOwned _ >>= _) _ = _
      rw [bind_of_ok hload₃]
      rfl
    · show [_, _, _] = [_, _, _]
      rw [hresident₁, hresident₂, hresident₃]
    · rw [hnames₃, hnames₂]
      show _ = _ ++ (_ ++ (_ ++ []))
      rw [List.append_nil, List.append_assoc]

/-- Where all weights were loaded, those that were kept could be held. -/
theorem holdable_of_loadPersistents {s s' : List String × Host × MemoryBudget}
    {weights : PersistentWeights R} (h : loadPersistents model s = (.ok weights, s'))
    (hmodel : s.2.1.2.2.model = model) (hsound : SoundAt ramBudgetBytes s.2.2) :
    ∀ desc ∈ (PersistentDescriptors.fromModel model).present,
      keptResident ramBudgetBytes desc = true → Holdable desc := by
  have hstep : ∀ {name : String} {s₁ s₂ : List String × Host × MemoryBudget}
      {weight : PersistentWeight R}, loadOwned name s₁ = (.ok weight, s₂) →
      Held s.2.1.2.2 ramBudgetBytes s₁.2 →
      Held s.2.1.2.2 ramBudgetBytes s₂.2 ∧ ∀ desc, model.findTensor name = some desc →
        keptResident ramBudgetBytes desc = true → Holdable desc := by
    intro name s₁ s₂ weight hload hheld
    have hkept := keeps_loadOwned (R := R) s.2.1.2.2 ramBudgetBytes name s₁ hheld
    rw [hload] at hkept
    refine ⟨hkept, fun desc hfind hkeep => ?_⟩
    obtain ⟨charge, hload⟩ := of_loadOwned_ok hload
    refine holdable_of_loadPersistentWeight hload ?_ hheld.2.2 hkeep
    rw [hheld.1.model, hmodel]
    exact hfind
  have hstart : Held s.2.1.2.2 ramBudgetBytes s.2 := ⟨SameData.refl _, hsound⟩
  obtain ⟨tokenEmbd, s₁, hload₁, h⟩ := of_bind_ok h
  obtain ⟨hheld₁, htoken⟩ := hstep hload₁ hstart
  obtain ⟨outputNorm, s₂, hload₂, h⟩ := of_bind_ok h
  obtain ⟨hheld₂, hnorm⟩ := hstep hload₂ hheld₁
  intro desc hmem hkeep
  obtain ⟨found, hfound, rfl⟩ := List.mem_filterMap.mp hmem
  simp only [PersistentDescriptors.fromModel, List.mem_cons, List.not_mem_nil, or_false] at hfound
  obtain hfound | hfound | hfound := hfound
  · exact htoken desc hfound.symm hkeep
  · exact hnorm desc hfound.symm hkeep
  · have hthere : model.hasTensor "output.weight" = true := by
      rw [← isSome_findTensor, ← hfound]
      rfl
    rw [hthere] at h
    obtain ⟨output, s₃, hload₃, -⟩ := of_bind_ok h
    exact (hstep hload₃ hheld₂).2 desc hfound.symm hkeep

end weight

end Planner
end Ramforge
