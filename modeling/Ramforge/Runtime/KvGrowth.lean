/-
The K/V cache and its charge in a budget.

A growth reserves the new bytes beside the old ones, builds the new buffers, and makes the
two charges one.  The owner of the cache calls its methods; in between, and in scopes around
them, the budget is used by others who leave the charge of the cache alone.
-/
import Ramforge.Core.MemoryAccounting
import Ramforge.Core.MemoryFrame
import Ramforge.Runtime.KvHistory

namespace Ramforge

open Rust Rust.Exec Rust.MapSum

namespace KvCache

/-- `none` where the product panics. -/
def totalBytes {α : Type} (c : KvCache α) : Option Nat := checkedMul c.bytesPerLayer c.nLayers

/-! ## Sizes -/

variable {α : Type} {c : KvCache α} {b : MemoryBudget} {name : String}

theorem tryBytesForTokens_eq_ok {tokens bytes : Nat} (h : c.tryBytesForTokens tokens = .ok bytes) :
    bytes = tokens * (c.nKvHeads * c.headDim) * 4 * 2 * c.nLayers ∧ bytes < u64Bound := by
  rw [tryBytesForTokens] at h
  split at h
  · rename_i n hn
    cases h
    obtain ⟨x, hx, hn⟩ := Option.bind_eq_some_iff.mp hn
    obtain ⟨y, hy, hx⟩ := Option.bind_eq_some_iff.mp hx
    obtain ⟨z, hz, hy⟩ := Option.bind_eq_some_iff.mp hy
    obtain ⟨w, hw, hz⟩ := Option.bind_eq_some_iff.mp hz
    obtain ⟨-, rfl⟩ := checkedMul_eq_some.mp hw
    obtain ⟨-, rfl⟩ := checkedMul_eq_some.mp hz
    obtain ⟨-, rfl⟩ := checkedMul_eq_some.mp hy
    obtain ⟨-, rfl⟩ := checkedMul_eq_some.mp hx
    obtain ⟨hlt, rfl⟩ := checkedMul_eq_some.mp hn
    rw [Nat.mul_assoc tokens, sizeOfF32] at *
    exact ⟨rfl, hlt⟩
  · cases h

/-- The buffers that a growth returns have the layout of the new capacity. -/
theorem layout_of_allocateGrownBuffers [Zero α] {reserve : Reserve} {capacity : Nat} {s : KvCache α}
    {r : List (List α) × List (List α) × KvLayout} (hlt : c.maxSeqLen < capacity)
    (h : allocateGrownBuffers reserve capacity c = (.ok r, s)) :
    layout c.nLayers c.nKvHeads c.headDim capacity = .ok r.2.2 := by
  rw [allocateGrownBuffers, self_bind_run, if_neg (Nat.not_le.mpr hlt)] at h
  obtain ⟨l, hl, h⟩ := of_ofResult_bind_ok h
  obtain ⟨old, -, h⟩ := of_okOr_bind_ok h
  obtain ⟨-, -, h⟩ := of_ofResult_bind_ok h
  obtain ⟨-, -, h⟩ := of_ofResult_bind_ok h
  obtain ⟨buffers, s', -, h⟩ := of_bind_ok h
  cases h
  exact hl

/-! ## The charge -/

variable [Zero α]

/-- The bytes of the buffers are charged under the name. -/
structure Charged (name : String) (s : KvCache α × MemoryBudget) : Prop where
  accounted : s.2.Accounted
  stores : ∃ h, Stores s.1 h
  bytes : s.1.bytesPerLayer = s.1.maxSeqLen * (s.1.nKvHeads * s.1.headDim) * 4 * 2
  charge : s.2.get name = some (s.1.bytesPerLayer * s.1.nLayers)

theorem Charged.totalBytes {s : KvCache α × MemoryBudget} (h : Charged name s) :
    s.1.totalBytes = some (s.1.bytesPerLayer * s.1.nLayers) := by
  obtain ⟨history, hstores⟩ := h.stores
  refine checkedMul_of_lt ?_
  rw [h.bytes]
  exact hstores.sized.fits

/-- The charges and the use of a budget, without its peak. -/
def SameCharges (b b' : MemoryBudget) : Prop :=
  b'.allocations = b.allocations ∧ b'.used = b.used ∧ b'.total = b.total

/-- What a budgeted growth has to respect that takes `s` to `t` and answers `o`. -/
structure GrowthKept (name : String) (capacity : Nat) (s t : KvCache α × MemoryBudget)
    (o : Outcome String Unit) : Prop where
  no_panic : ∀ message, o ≠ .panic message
  charge : ∃ bytes, t.1.totalBytes = some bytes ∧ t.2.get name = some bytes
  atomic : ∀ message, o = .err message → t.1 = s.1 ∧ SameCharges s.2 t.2
  enough : o = .ok () → capacity ≤ s.1.maxSeqLen → t = s
  /-- Both buffers were charged at one time, and the charge of the new one stays. -/
  overlap : o = .ok () → s.1.maxSeqLen < capacity → t.1.maxSeqLen = capacity ∧
    ∃ oldBytes newBytes, s.1.totalBytes = some oldBytes ∧ t.1.totalBytes = some newBytes ∧
      t.2.allocations = s.2.allocations.insert name newBytes ∧
      MemoryBudget.charged (s.2.allocations.erase name) + oldBytes + newBytes ≤ t.2.peakUsed

theorem growth_ne (name : String) : name ++ ":growth" ≠ name := by
  intro h
  have hlength := congrArg String.length h
  rw [String.length_append] at hlength
  have hgrowth : (":growth" : String).length = 7 := rfl
  omega

theorem GrowthKept.refused {message : String} {capacity : Nat} {b' : MemoryBudget}
    (h : Charged name (c, b)) (hsame : SameCharges b b') :
    GrowthKept name capacity (c, b) (c, b') (.err message) where
  no_panic := nofun
  charge := by
    refine ⟨_, h.totalBytes, ?_⟩
    show b'.allocations[name]? = _
    rw [hsame.1]
    exact h.charge
  atomic := fun _ _ => ⟨rfl, hsame⟩
  enough := nofun
  overlap := nofun

theorem Charged.of_same {b' : MemoryBudget} (h : Charged name (c, b)) (hacc : b'.Accounted)
    (hget : b'.get name = b.get name) : Charged name (c, b') :=
  ⟨hacc, h.stores, h.bytes, hget.trans h.charge⟩

/-- A charge made and given back leaves the charges as they were. -/
theorem sameCharges_roundTrip {other : String} (hnew : b.get other = none) (bytes : Nat) :
    SameCharges b ((b.charge other bytes).discharge other bytes) := by
  refine ⟨erase_insert_of_none hnew bytes, ?_, rfl⟩
  show b.used + bytes - bytes = b.used
  exact Nat.add_sub_cancel _ _

/-! ## Growth -/

omit [Zero α] in
theorem rollbackGrowth_run {κ β : Type} {k : κ} {reservation : String} {bytes : Nat}
    (hacc : b.Accounted) (hget : b.get reservation = some bytes) (message note : String) :
    (rollbackGrowth reservation message note : Exec (κ × MemoryBudget) String β) (k, b) =
      (.err message, (k, b.discharge reservation bytes)) := by
  rw [rollbackGrowth, bind_run, attempt, onSnd_run, MemoryBudget.release_run hacc, hget]
  rfl

/-- The end of a growth, once the reservation stands. -/
def growReserved (reserve : Reserve) (capacity : Nat) (name : String) (oldBytes newBytes : Nat) :
    Exec (KvCache α × MemoryBudget) String Unit := do
  let s ← self
  if s.2.get name ≠ some oldBytes then
    let message := "existing KV cache charge '" ++ name ++
      s!"' does not match physical cache size {oldBytes}"
    rollbackGrowth (name ++ ":growth") message
      (message ++ "; growth reservation rollback failed: ")
  else
    match ← attempt (onFst (allocateGrownBuffers reserve capacity)) with
    | .error error =>
      rollbackGrowth (name ++ ":growth") error
        ("KV cache growth failed: " ++ error ++ "; growth reservation rollback failed: ")
    | .ok buffers =>
      onFst (replaceBuffers capacity buffers)
      orPanic (onSnd (MemoryBudget.commitResize name (name ++ ":growth") newBytes))
        fun error => "KV cache budget commit failed after physical replacement: " ++ error.display

theorem growToWithBudget_of_lt (reserve : Reserve) (name : String) {capacity : Nat} (hlt : c.maxSeqLen < capacity)
    (hacc : b.Accounted) :
    (∃ message, growToWithBudget reserve capacity name (c, b) = (.err message, (c, b))) ∨
    ∃ oldBytes newBytes, c.tryBytesForTokens c.maxSeqLen = .ok oldBytes ∧
      c.tryBytesForTokens capacity = .ok newBytes ∧ 0 < newBytes ∧
      b.get (name ++ ":growth") = none ∧ b.used + newBytes ≤ b.total ∧
      growToWithBudget reserve capacity name (c, b) =
        growReserved reserve capacity name oldBytes newBytes
          (c, b.charge (name ++ ":growth") newBytes) := by
  rw [growToWithBudget, self_bind_run, if_neg (Nat.not_le.mpr hlt)]
  cases c.tryBytesForTokens c.maxSeqLen with
  | error e => exact .inl ⟨e, rfl⟩
  | ok oldBytes =>
    rw [ofResult_ok_bind_run]
    cases c.tryBytesForTokens capacity with
    | error e => exact .inl ⟨e, rfl⟩
    | ok newBytes =>
      rw [ofResult_ok_bind_run, bind_run, mapErr_run, onSnd_run, MemoryBudget.allocate_run hacc]
      by_cases hzero : newBytes = 0
      · rw [if_pos hzero]
        exact .inl ⟨_, rfl⟩
      rw [if_neg hzero]
      by_cases hused : (b.get (name ++ ":growth")).isSome
      · rw [if_pos hused]
        exact .inl ⟨_, rfl⟩
      rw [if_neg hused]
      by_cases hfit : b.used + newBytes ≤ b.total
      · rw [if_pos hfit]
        exact .inr ⟨oldBytes, newBytes, rfl, rfl, Nat.pos_of_ne_zero hzero,
          Option.not_isSome_iff_eq_none.mp hused, hfit, rfl⟩
      · rw [if_neg hfit]
        exact .inl ⟨_, rfl⟩

theorem Charged.old_eq (h : Charged name (c, b)) {oldBytes : Nat}
    (hold : c.tryBytesForTokens c.maxSeqLen = .ok oldBytes) : b.get name = some oldBytes := by
  rw [(tryBytesForTokens_eq_ok hold).1, ← h.bytes]
  exact h.charge

/-- With the reservation made, the growth gives it back or makes the two charges one. -/
theorem growReserved_run (h : Charged name (c, b)) (reserve : Reserve) {capacity oldBytes newBytes : Nat}
    (hlt : c.maxSeqLen < capacity) (hold : c.tryBytesForTokens c.maxSeqLen = .ok oldBytes)
    (hpos : 0 < newBytes) (hres : b.get (name ++ ":growth") = none)
    (hfit : b.used + newBytes ≤ b.total) :
    (∃ message, growReserved reserve capacity name oldBytes newBytes
        (c, b.charge (name ++ ":growth") newBytes) =
      (.err message, (c, (b.charge (name ++ ":growth") newBytes).discharge (name ++ ":growth") newBytes))) ∨
    ∃ bytes, layout c.nLayers c.nKvHeads c.headDim capacity = .ok bytes ∧
      growReserved reserve capacity name oldBytes newBytes
        (c, b.charge (name ++ ":growth") newBytes) =
      (.ok (), (grown capacity bytes.bytesPerLayer c,
        (b.charge (name ++ ":growth") newBytes).settle name (name ++ ":growth") oldBytes newBytes
          newBytes)) := by
  have hne := growth_ne name
  have hacc := (MemoryBudget.Step.charge hpos hres hfit).accounted h.accounted
  have hreserved : (b.charge (name ++ ":growth") newBytes).get (name ++ ":growth") = some newBytes := by
    rw [MemoryBudget.get_charge, if_pos rfl]
  have hcharge : (b.charge (name ++ ":growth") newBytes).get name = some oldBytes := by
    rw [MemoryBudget.get_charge, if_neg hne.symm, h.old_eq hold]
  have hle := h.accounted.le_used (h.old_eq hold)
  have htotal := h.accounted.total_lt
  obtain ⟨history, hstores⟩ := h.stores
  rw [growReserved, self_bind_run]
  simp only
  rw [if_neg (fun hdiff => hdiff hcharge), bind_run, attempt, onFst_run]
  rcases allocateGrownBuffers_run hstores.k hstores.v reserve hlt with ⟨e, hrun⟩ | ⟨l, hrun, hsized⟩
  · rw [hrun]
    simp only
    rw [rollbackGrowth_run hacc hreserved]
    exact .inl ⟨e, rfl⟩
  · have hlayout := layout_of_allocateGrownBuffers hlt hrun
    have hbase : (b.charge (name ++ ":growth") newBytes).baseUsed oldBytes newBytes + newBytes ≤ b.total := by
      rw [MemoryBudget.baseUsed, MemoryBudget.charge_used]
      omega
    have hcommit : MemoryBudget.commitResize name (name ++ ":growth") newBytes
        (b.charge (name ++ ":growth") newBytes) = (.ok (), (b.charge (name ++ ":growth") newBytes).settle
          name (name ++ ":growth") oldBytes newBytes newBytes) := by
      rw [MemoryBudget.commitResize_run hacc, if_neg (by omega), if_neg hne.symm, hcharge, hreserved]
      simp only
      rw [if_neg (Nat.not_le.mpr (Nat.lt_of_le_of_lt hbase htotal)), MemoryBudget.charge_total,
        if_pos hbase]
    refine .inr ⟨l, hlayout, ?_⟩
    rw [hrun]
    simp only
    rw [replaceBuffers, bind_run, onFst_run, modify_run]
    simp only
    rw [orPanic, onSnd_run, hcommit]
    rfl

omit [Zero α] in
/-- The charges after a growth: the new bytes under the name, nothing under the reservation. -/
theorem settle_allocations {oldBytes newBytes : Nat} (hres : b.get (name ++ ":growth") = none) :
    ((b.charge (name ++ ":growth") newBytes).settle name (name ++ ":growth") oldBytes newBytes
      newBytes).allocations = b.allocations.insert name newBytes := by
  refine Std.ExtTreeMap.ext_getElem? fun other => ?_
  show ((((b.allocations.insert (name ++ ":growth") newBytes).erase name).erase
    (name ++ ":growth")).insert name newBytes)[other]? = _
  rw [getElem?_insert', getElem?_insert', getElem?_erase', getElem?_erase', getElem?_insert']
  by_cases hname : other = name
  · rw [if_pos hname, if_pos hname]
  · by_cases hgrowth : other = name ++ ":growth"
    · simp only [if_neg hname, if_pos hgrowth]
      rw [hgrowth]
      exact hres.symm
    · simp only [if_neg hname, if_neg hgrowth]

/-- The state after a growth to a larger capacity. -/
theorem growth_kept_of_settled (h : Charged name (c, b)) {capacity oldBytes newBytes : Nat} {l : KvLayout}
    (hlt : c.maxSeqLen < capacity) (hold : c.tryBytesForTokens c.maxSeqLen = .ok oldBytes)
    (hnew : c.tryBytesForTokens capacity = .ok newBytes) (hpos : 0 < newBytes)
    (hres : b.get (name ++ ":growth") = none) (hfit : b.used + newBytes ≤ b.total)
    (hlayout : layout c.nLayers c.nKvHeads c.headDim capacity = .ok l) {t : KvCache α × MemoryBudget}
    (ht : t = (grown capacity l.bytesPerLayer c,
      (b.charge (name ++ ":growth") newBytes).settle name (name ++ ":growth") oldBytes newBytes newBytes)) :
    GrowthKept name capacity (c, b) t (.ok ()) ∧ Charged name t := by
  subst ht
  have hne := growth_ne name
  have haccounted := (MemoryBudget.Step.charge hpos hres hfit).accounted h.accounted
  have hreserved : (b.charge (name ++ ":growth") newBytes).get (name ++ ":growth") = some newBytes := by
    rw [MemoryBudget.get_charge, if_pos rfl]
  have hcharge : (b.charge (name ++ ":growth") newBytes).get name = some oldBytes := by
    rw [MemoryBudget.get_charge, if_neg hne.symm, h.old_eq hold]
  have hle := h.accounted.le_used (h.old_eq hold)
  have hbytes : newBytes = l.bytesPerLayer * c.nLayers := by
    rw [(layout_eq_ok hlayout).2.2.1]
    exact (tryBytesForTokens_eq_ok hnew).1
  obtain ⟨history, hstores⟩ := h.stores
  have hcharged : Charged name (grown capacity l.bytesPerLayer c,
      (b.charge (name ++ ":growth") newBytes).settle name (name ++ ":growth") oldBytes newBytes newBytes) := by
    refine ⟨?_, ⟨history, grown_stores hstores hlt (layout_eq_ok hlayout).1 _⟩, (layout_eq_ok hlayout).2.2.1, ?_⟩
    · refine (MemoryBudget.Step.settle hpos hne.symm hcharge hreserved ?_).accounted haccounted
      rw [MemoryBudget.charge_used, MemoryBudget.charge_total]
      omega
    · show ((b.charge (name ++ ":growth") newBytes).settle name _ oldBytes newBytes newBytes).allocations[name]? = _
      rw [settle_allocations hres, getElem?_insert', if_pos rfl, hbytes]
      rfl
  refine ⟨⟨nofun, ⟨_, hcharged.totalBytes, hcharged.charge⟩, nofun, fun _ hsmall => ?_, fun _ _ => ?_⟩, hcharged⟩
  · exact absurd hlt (Nat.not_lt.mpr hsmall)
  · have hothers : MemoryBudget.charged (b.allocations.erase name) + oldBytes = b.used := by
      rw [MemoryBudget.charged, sumOver_erase_of_some _ (h.old_eq hold), ← MemoryBudget.charged,
        ← h.accounted.used_eq]
      exact Nat.sub_add_cancel hle
    refine ⟨rfl, oldBytes, newBytes, ?_, ?_, settle_allocations hres, ?_⟩
    · rw [h.totalBytes, ← h.charge]
      exact h.old_eq hold
    · rw [hcharged.totalBytes, hbytes]
      rfl
    · show _ ≤ max (max b.peakUsed (b.used + newBytes)) _
      rw [hothers]
      exact Nat.le_trans (Nat.le_max_right _ _) (Nat.le_max_left _ _)

/-- A budgeted growth of a charged cache, however it ends. -/
theorem growToWithBudget_kept (h : Charged name (c, b)) (reserve : Reserve) (capacity : Nat) :
    GrowthKept name capacity (c, b) (growToWithBudget reserve capacity name (c, b)).2
        (growToWithBudget reserve capacity name (c, b)).1 ∧
      Charged name (growToWithBudget reserve capacity name (c, b)).2 := by
  rcases Nat.lt_or_ge c.maxSeqLen capacity with hlt | hle
  · rcases growToWithBudget_of_lt reserve name hlt h.accounted with
      ⟨message, hrun⟩ | ⟨oldBytes, newBytes, hold, hnew, hpos, hres, hfit, hrun⟩
    · rw [hrun]
      exact ⟨GrowthKept.refused h ⟨rfl, rfl, rfl⟩, h⟩
    · rw [hrun]
      rcases growReserved_run h reserve hlt hold hpos hres hfit with ⟨message, hend⟩ | ⟨l, hlayout, hend⟩
      · rw [hend]
        have hsame := sameCharges_roundTrip hres newBytes
        have hstep := MemoryBudget.Step.charge hpos hres hfit
        have hreserved : (b.charge (name ++ ":growth") newBytes).get (name ++ ":growth") = some newBytes := by
          rw [MemoryBudget.get_charge, if_pos rfl]
        refine ⟨GrowthKept.refused h hsame, h.of_same ?_ ?_⟩
        · exact (MemoryBudget.Step.discharge hreserved).accounted (hstep.accounted h.accounted)
        · rw [MemoryBudget.get, hsame.1]
          rfl
      · rw [hend]
        exact growth_kept_of_settled h hlt hold hnew hpos hres hfit hlayout rfl
  · have hrun : growToWithBudget reserve capacity name (c, b) = (.ok (), (c, b)) := by
      rw [growToWithBudget, self_bind_run, if_pos hle]
      rfl
    rw [hrun]
    refine ⟨⟨fun _ hend => ?_, ⟨_, h.totalBytes, h.charge⟩, fun _ hend => ?_, fun _ _ => rfl,
      fun _ hlt => absurd hlt (Nat.not_lt.mpr hle)⟩, h⟩
    · cases hend
    · cases hend

/-! ## Construction -/

/-- What a construction under a charge has to respect that takes `b` to `b'` and answers `o`. -/
structure NewKept (name : String) (b b' : MemoryBudget) (o : Outcome String (KvCache α)) : Prop where
  no_panic : ∀ message, o ≠ .panic message
  atomic : ∀ message, o = .err message → SameCharges b b'
  charge : ∀ c, o = .ok c → ∃ bytes, c.totalBytes = some bytes ∧
    b'.allocations = b.allocations.insert name bytes

omit [Zero α] in
theorem NewKept.refused {message : String} {b' : MemoryBudget} (h : SameCharges b b') :
    NewKept name b b' (.err message : Outcome String (KvCache α)) :=
  ⟨nofun, fun _ _ => h, nofun⟩

theorem newWithBudget_cases (reserve : Reserve) (nLayers nKvHeads headDim maxSeqLen : Nat)
    (name : String) (hacc : b.Accounted) :
    (∃ message b', (newWithBudget reserve nLayers nKvHeads headDim maxSeqLen name b :
        Outcome String (KvCache α) × MemoryBudget) = (.err message, b') ∧ SameCharges b b') ∨
    ∃ (l : KvLayout) (c : KvCache α), layout nLayers nKvHeads headDim maxSeqLen = .ok l ∧
      allocateFromLayout reserve nLayers nKvHeads headDim maxSeqLen l = .ok c ∧
      0 < l.totalBytes ∧ b.get name = none ∧ b.used + l.totalBytes ≤ b.total ∧
      newWithBudget reserve nLayers nKvHeads headDim maxSeqLen name b =
        (.ok c, b.charge name l.totalBytes) := by
  rw [newWithBudget]
  cases hl : layout nLayers nKvHeads headDim maxSeqLen with
  | error e => exact .inl ⟨e, b, rfl, rfl, rfl, rfl⟩
  | ok l =>
    rw [ofResult_ok_bind_run, bind_run, mapErr_run, MemoryBudget.allocate_run hacc]
    by_cases hzero : l.totalBytes = 0
    · rw [if_pos hzero]
      exact .inl ⟨_, b, rfl, rfl, rfl, rfl⟩
    rw [if_neg hzero]
    by_cases hused : (b.get name).isSome
    · rw [if_pos hused]
      exact .inl ⟨_, b, rfl, rfl, rfl, rfl⟩
    rw [if_neg hused]
    by_cases hfit : b.used + l.totalBytes ≤ b.total
    swap
    · rw [if_neg hfit]
      exact .inl ⟨_, b, rfl, rfl, rfl, rfl⟩
    rw [if_pos hfit]
    have hnone := Option.not_isSome_iff_eq_none.mp hused
    have hpos := Nat.pos_of_ne_zero hzero
    simp only [Outcome.mapErr_ok]
    cases hal : (allocateFromLayout reserve nLayers nKvHeads headDim maxSeqLen l :
        Except String (KvCache α)) with
    | ok c => exact .inr ⟨l, c, rfl, hal, hpos, hnone, hfit, rfl⟩
    | error e =>
      have hget : (b.charge name l.totalBytes).get name = some l.totalBytes := by
        rw [MemoryBudget.get_charge, if_pos rfl]
      have haccounted := (MemoryBudget.Step.charge hpos hnone hfit).accounted hacc
      refine .inl ⟨e, _, ?_, sameCharges_roundTrip hnone l.totalBytes⟩
      simp only [bind_run, attempt, MemoryBudget.release_run haccounted, hget]
      rfl

theorem newWithBudget_kept (reserve : Reserve) (nLayers nKvHeads headDim maxSeqLen : Nat)
    (name : String) (hacc : b.Accounted) :
    NewKept (α := α) name b (newWithBudget reserve nLayers nKvHeads headDim maxSeqLen name b :
        Outcome String (KvCache α) × MemoryBudget).2
      (newWithBudget reserve nLayers nKvHeads headDim maxSeqLen name b).1 ∧
    ∀ (c : KvCache α) b', newWithBudget reserve nLayers nKvHeads headDim maxSeqLen name b = (.ok c, b') →
      Charged name (c, b') := by
  rcases newWithBudget_cases (α := α) reserve nLayers nKvHeads headDim maxSeqLen name hacc with
    ⟨message, b', hrun, hsame⟩ | ⟨l, c, hlayout, hal, hpos, hnone, hfit, hrun⟩
  · rw [hrun]
    exact ⟨.refused hsame, nofun⟩
  · have hnew : KvCache.new reserve nLayers nKvHeads headDim maxSeqLen = .ok c :=
      newWithBudget_eq_ok (congrArg Prod.fst hrun)
    obtain ⟨-, -, hbytes, htotal⟩ := layout_eq_ok hlayout
    have hc := allocateFromLayout_eq_ok hal
    have hcharged : Charged name (c, b.charge name l.totalBytes) := by
      refine ⟨(MemoryBudget.Step.charge hpos hnone hfit).accounted hacc, ⟨_, (new_stores hnew).1⟩, ?_, ?_⟩
      · rw [hc]
        exact hbytes
      · show (b.charge name l.totalBytes).get name = _
        rw [MemoryBudget.get_charge, if_pos rfl, htotal, hc]
    rw [hrun]
    refine ⟨⟨nofun, nofun, fun c' hc' => ?_⟩, fun c' b' hrun' => ?_⟩
    · cases hc'
      refine ⟨l.totalBytes, ?_, rfl⟩
      rw [hcharged.totalBytes, htotal, hc]
    · cases hrun'
      exact hcharged

end KvCache

/-! ## Runs -/

/-- A call of the owner of a cache under a charge. -/
inductive KvOwnerCall (α : Type) where
  | append (layer : Nat) (k v : List α)
  | increment (debugAssertions : Bool)
  | clear
  | grow (reserve : Reserve) (capacity : Nat)

namespace KvOwnerCall

variable {α : Type} [Zero α]

def run (name : String) : KvOwnerCall α → Exec (KvCache α × MemoryBudget) String Unit
  | .append layer k v => onFst (KvCache.append layer k v)
  | .increment debugAssertions => onFst (KvCache.incrementSeqLen debugAssertions)
  | .clear => onFst KvCache.clear
  | .grow reserve capacity => KvCache.growToWithBudget reserve capacity name

end KvOwnerCall

namespace KvCache

variable {α : Type} [Zero α] {name : String} {s t : KvCache α × MemoryBudget}

/-- A budget call that does not act on the charge of the cache. -/
def Spares (name : String) (call : Call (KvOwnerCall α)) (s : KvCache α × MemoryBudget) : Prop :=
  name ∉ call.names s.2

instance (call : Call (KvOwnerCall α)) (s : KvCache α × MemoryBudget) : Decidable (Spares name call s) :=
  inferInstanceAs (Decidable (name ∉ call.names s.2))

/-- A call of the cache alone, with the buffers and the position of a history after it. -/
theorem Charged.of_step {c c' : KvCache α} {b : MemoryBudget} (h : Charged name (c, b)) (call : KvCall α)
    (hrun : (call.run c).2 = c') (hcapacity : c'.maxSeqLen = c.maxSeqLen)
    (hbytes : c'.bytesPerLayer = c.bytesPerLayer) : Charged name (c', b) := by
  obtain ⟨history, hstores⟩ := h.stores
  obtain ⟨hstep, hlayers, hheads, hdim⟩ := step_stores (s := (c, history)) hstores call
  simp only [KvCall.step, hrun] at hstep hlayers hheads hdim
  refine ⟨h.accounted, ⟨_, hstep⟩, ?_, ?_⟩
  · show c'.bytesPerLayer = c'.maxSeqLen * (c'.nKvHeads * c'.headDim) * 4 * 2
    rw [hbytes, hcapacity, hheads, hdim]
    exact h.bytes
  · show b.get name = some (c'.bytesPerLayer * c'.nLayers)
    rw [hbytes, hlayers]
    exact h.charge

/-- The calls that are not growths leave the size of the buffers. -/
theorem append_size {c : KvCache α} {h : KvHistory α} (hst : Stores c h) (layer : Nat) (k v : List α) :
    (append layer k v c).2.maxSeqLen = c.maxSeqLen ∧
      (append layer k v c).2.bytesPerLayer = c.bytesPerLayer := by
  have hrun := append_run hst layer k v
  split at hrun
  · obtain ⟨kCaches, vCaches, he, -⟩ := hrun
    rw [he]
    exact ⟨rfl, rfl⟩
  · obtain ⟨e, he⟩ := hrun
    rw [he]
    exact ⟨rfl, rfl⟩

omit [Zero α] in
theorem incrementSeqLen_size {ε : Type} (c : KvCache α) (debugAssertions : Bool) :
    ((incrementSeqLen debugAssertions : Exec (KvCache α) ε Unit) c).2.maxSeqLen = c.maxSeqLen ∧
      ((incrementSeqLen debugAssertions : Exec (KvCache α) ε Unit) c).2.bytesPerLayer =
        c.bytesPerLayer := by
  rw [incrementSeqLen, self_bind_run, expect_bind_run]
  split
  · rw [expect_bind_run]
    split <;> exact ⟨rfl, rfl⟩
  · exact ⟨rfl, rfl⟩

/-- A call of the owner keeps the charge equal to the bytes. -/
theorem Charged.owner (h : Charged name s) (call : KvOwnerCall α) : Charged name (call.run name s).2 := by
  obtain ⟨c, b⟩ := s
  obtain ⟨history, hstores⟩ := h.stores
  cases call with
  | append layer k v =>
    obtain ⟨hcapacity, hbytes⟩ := append_size hstores layer k v
    exact h.of_step (.append layer k v) rfl hcapacity hbytes
  | increment debugAssertions =>
    obtain ⟨hcapacity, hbytes⟩ := incrementSeqLen_size (ε := String) c debugAssertions
    exact h.of_step (.increment debugAssertions) rfl hcapacity hbytes
  | clear => exact h.of_step .clear rfl rfl rfl
  | grow reserve capacity => exact (growToWithBudget_kept h reserve capacity).2

/-- One call, of the owner or of anyone else. -/
theorem Charged.atom (h : Charged name s) (hcall : Call.Atom (KvOwnerCall.run name) (Spares name) s t) :
    Charged name t := by
  obtain ⟨c, b⟩ := s
  rcases hcall.step _ h.accounted with ⟨i, -, rfl⟩ | ⟨hfst, hstep⟩
  · exact h.owner i
  · obtain ⟨call, hspares, hprimitive⟩ := hcall
    by_cases hother : ∀ i, call ≠ .other i
    · have hget := Call.run_get (KvOwnerCall.run name) hprimitive hother h.accounted hspares
      rcases hend : (call.run (KvOwnerCall.run name) (c, b)).2 with ⟨c', b'⟩
      rw [hend] at hfst hstep hget
      obtain rfl : c' = c := hfst
      exact h.of_same (hstep.accounted h.accounted) hget
    · obtain ⟨i, hi⟩ := not_forall.mp hother
      obtain rfl : call = .other i := not_not.mp hi
      rw [Call.run]
      exact h.owner i

/-- A construction and every growth keep the charge equal to the bytes, undo what they did where
they fail, and charge both buffers at one time where they succeed. -/
theorem budgetedGrowth (reserve : Reserve) (nLayers nKvHeads headDim maxSeqLen : Nat) (name : String)
    (b : MemoryBudget) (hb : b.Reachable) :
    NewKept (α := α) name b
      (newWithBudget reserve nLayers nKvHeads headDim maxSeqLen name b :
        Outcome String (KvCache α) × MemoryBudget).2
      (newWithBudget reserve nLayers nKvHeads headDim maxSeqLen name b).1 ∧
    ∀ (c : KvCache α) (b' : MemoryBudget),
      newWithBudget reserve nLayers nKvHeads headDim maxSeqLen name b = (.ok c, b') →
      ∀ calls : List (Call (KvOwnerCall α)),
        Call.EachOf (KvOwnerCall.run name) (Spares name) calls (c, b') →
        ∀ s ∈ (c, b') :: Call.visitedAll (KvOwnerCall.run name) calls (c, b'),
          (∃ bytes, s.1.totalBytes = some bytes ∧ s.2.get name = some bytes) ∧
          ∀ reserve capacity, GrowthKept name capacity s
            (growToWithBudget reserve capacity name s).2 (growToWithBudget reserve capacity name s).1 := by
  obtain ⟨hkept, hnew⟩ := newWithBudget_kept (α := α) reserve nLayers nKvHeads headDim maxSeqLen name
    hb.accounted
  refine ⟨hkept, fun c b' hrun calls hspares s hs => ?_⟩
  have hpath := Call.runAll_path _ calls (c, b') hspares
  have hcharged : Charged name s :=
    hpath.invariant (fun _ _ hcall h => h.atom hcall) (hnew c b' hrun) s hs
  exact ⟨⟨_, hcharged.totalBytes, hcharged.charge⟩,
    fun reserve capacity => (growToWithBudget_kept hcharged reserve capacity).1⟩

def hundredBytes : MemoryBudget := { total := 100, allocations := ∅, used := 0, peakUsed := 0 }

def fourTokens : KvCache Int :=
  { nLayers := 1
    nKvHeads := 1
    headDim := 1
    maxSeqLen := 4
    seqLen := 0
    kCaches := [[0, 0, 0, 0]]
    vCaches := [[0, 0, 0, 0]]
    bytesPerLayer := 32 }

/-- A growth in a scope of someone else, and one for which the budget is too small. -/
def growingCalls : List (Call (KvOwnerCall Int)) :=
  [.allocate "layer:0" 4, .other (.append 0 [1] [2]), .other (.increment true),
    .withTemp "scratch" 8 [.other (.grow granted 6)] (.ok ()), .other (.grow granted 9),
    .release "layer:0"]

theorem budgetedGrowth_growing :
    (∃ bytes, (Call.runAll (KvOwnerCall.run "kv_cache") growingCalls
        (fourTokens, hundredBytes.charge "kv_cache" 32)).2.1.totalBytes = some bytes ∧
      (Call.runAll (KvOwnerCall.run "kv_cache") growingCalls
        (fourTokens, hundredBytes.charge "kv_cache" 32)).2.2.get "kv_cache" = some bytes) ∧
    (Call.runAll (KvOwnerCall.run "kv_cache") growingCalls
        (fourTokens, hundredBytes.charge "kv_cache" 32)).2.1.maxSeqLen = 6 := by
  have hreachable : hundredBytes.Reachable :=
    ⟨100, hundredBytes, [], by decide, by decide, rfl, List.mem_cons_self⟩
  have hnew : newWithBudget granted 1 1 1 4 "kv_cache" hundredBytes =
      (.ok fourTokens, hundredBytes.charge "kv_cache" 32) := rfl
  have hspares : Call.EachOf (KvOwnerCall.run "kv_cache") (Spares "kv_cache") growingCalls
      (fourTokens, hundredBytes.charge "kv_cache" 32) := by decide +kernel
  have hlast := (Call.runAll_path _ growingCalls _ hspares).last_mem
  exact ⟨((budgetedGrowth granted 1 1 1 4 "kv_cache" hundredBytes hreachable).2 fourTokens _ hnew
    growingCalls hspares _ hlast).1, by decide +kernel⟩

end KvCache
end Ramforge
