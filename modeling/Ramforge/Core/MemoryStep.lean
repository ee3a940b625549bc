/-
What one budget operation can do.

Under the accounting invariant every operation has a closed form: a test on its
arguments and on the map, then one of five changes to the ledger.  `Step` lists
the five, and the invariant is derived from that list once.
-/
import Ramforge.Core.Memory
import Ramforge.Rust.KeyMove

namespace Ramforge
namespace MemoryBudget

open Rust Rust.Exec Rust.MapSum Rust.KeyMove

/-- The bytes charged in a map of allocations. -/
def charged (m : Std.ExtTreeMap String Nat) : Nat := sumOver (fun _ bytes => bytes) m

/-- The counters agree with the map and stay below the total. -/
structure Accounted (b : MemoryBudget) : Prop where
  used_eq : b.used = charged b.allocations
  used_le : b.used ≤ b.total
  total_lt : b.total < u64Bound
  pos : ∀ name bytes, b.get name = some bytes → 0 < bytes
  peak : b.used ≤ b.peakUsed

/-! ## The five changes -/

def charge (b : MemoryBudget) (name : String) (bytes : Nat) : MemoryBudget :=
  { b with
    allocations := b.allocations.insert name bytes
    used := b.used + bytes
    peakUsed := max b.peakUsed (b.used + bytes) }

def discharge (b : MemoryBudget) (name : String) (bytes : Nat) : MemoryBudget :=
  { b with allocations := b.allocations.erase name, used := b.used - bytes }

def recharge (b : MemoryBudget) (name : String) (oldBytes newBytes : Nat) : MemoryBudget :=
  { b with
    allocations := b.allocations.insert name newBytes
    used := b.used - oldBytes + newBytes
    peakUsed := max b.peakUsed (b.used - oldBytes + newBytes) }

def settle (b : MemoryBudget) (target reservation : String)
    (oldBytes reservedBytes finalBytes : Nat) : MemoryBudget :=
  { b with
    allocations := ((b.allocations.erase target).erase reservation).insert target finalBytes
    used := b.used - oldBytes - reservedBytes + finalBytes
    peakUsed := max b.peakUsed (b.used - oldBytes - reservedBytes + finalBytes) }

def move (b : MemoryBudget) (l : List (String × String)) : MemoryBudget :=
  { b with allocations := moveKeys l b.allocations }

section projections

variable (b : MemoryBudget) (name other : String) (bytes : Nat)

@[simp] theorem charge_total : (b.charge name bytes).total = b.total := rfl
@[simp] theorem charge_used : (b.charge name bytes).used = b.used + bytes := rfl
@[simp] theorem discharge_total : (b.discharge name bytes).total = b.total := rfl
@[simp] theorem discharge_used : (b.discharge name bytes).used = b.used - bytes := rfl
@[simp] theorem discharge_peakUsed : (b.discharge name bytes).peakUsed = b.peakUsed := rfl
@[simp] theorem move_total (l : List (String × String)) : (b.move l).total = b.total := rfl
@[simp] theorem move_used (l : List (String × String)) : (b.move l).used = b.used := rfl
@[simp] theorem move_peakUsed (l : List (String × String)) :
    (b.move l).peakUsed = b.peakUsed := rfl

theorem get_charge :
    (b.charge name bytes).get other = if other = name then some bytes else b.get other :=
  getElem?_insert' _ _ _ _

theorem get_discharge :
    (b.discharge name bytes).get other = if other = name then none else b.get other :=
  getElem?_erase' _ _ _

end projections

/-- The changes an operation can make, with what it checked first. -/
inductive Step (b : MemoryBudget) : MemoryBudget → Prop where
  | stay : Step b b
  | charge {name : String} {bytes : Nat} (hpos : 0 < bytes) (hnew : b.get name = none)
      (hfit : b.used + bytes ≤ b.total) : Step b (b.charge name bytes)
  | discharge {name : String} {bytes : Nat} (hold : b.get name = some bytes) :
      Step b (b.discharge name bytes)
  | recharge {name : String} {oldBytes newBytes : Nat} (hpos : 0 < newBytes)
      (hold : b.get name = some oldBytes)
      (hfit : b.used - oldBytes + newBytes ≤ b.total) :
      Step b (b.recharge name oldBytes newBytes)
  | settle {target reservation : String} {oldBytes reservedBytes finalBytes : Nat}
      (hpos : 0 < finalBytes) (hne : target ≠ reservation)
      (hold : b.get target = some oldBytes) (hres : b.get reservation = some reservedBytes)
      (hfit : b.used - oldBytes - reservedBytes + finalBytes ≤ b.total) :
      Step b (b.settle target reservation oldBytes reservedBytes finalBytes)
  | move {l : List (String × String)} (h : Movable l b.allocations) : Step b (b.move l)

/-- Two charges under different names fit together in `used`. -/
theorem Accounted.add_le {b : MemoryBudget} (h : Accounted b) {n m : String} {x y : Nat}
    (hn : b.get n = some x) (hm : b.get m = some y) (hne : m ≠ n) : x + y ≤ b.used := by
  rw [h.used_eq]
  exact add_le_sumOver (fun _ bytes => bytes) hn hm hne

theorem Accounted.le_used {b : MemoryBudget} (h : Accounted b) {n : String} {x : Nat}
    (hn : b.get n = some x) : x ≤ b.used := by
  rw [h.used_eq]
  exact le_sumOver (fun _ bytes => bytes) hn

namespace Step

variable {b b' : MemoryBudget}

/-- One change keeps the counters in agreement with the map. -/
theorem accounted (hs : Step b b') (h : Accounted b) : Accounted b' := by
  obtain ⟨hu, hle, hlt, hp, hpk⟩ := h
  cases hs with
  | stay => exact ⟨hu, hle, hlt, hp, hpk⟩
  | @charge name bytes hpos hnew hfit =>
    refine ⟨?_, hfit, hlt, fun n k hk => ?_, Nat.le_max_right _ _⟩
    · rw [charge_used, MemoryBudget.charge, charged, sumOver_insert_of_none _ hnew, hu, charged]
      exact Nat.add_comm _ _
    · rw [get_charge] at hk
      split at hk
      · cases hk; exact hpos
      · exact hp n k hk
  | @discharge name bytes hold =>
    refine ⟨?_, Nat.le_trans (Nat.sub_le _ _) hle, hlt, fun n k hk => ?_,
      Nat.le_trans (Nat.sub_le _ _) hpk⟩
    · rw [discharge_used, MemoryBudget.discharge, charged, sumOver_erase_of_some _ hold, hu, charged]
    · rw [get_discharge] at hk
      split at hk
      · cases hk
      · exact hp n k hk
  | @recharge name oldBytes newBytes hpos hold hfit =>
    refine ⟨?_, hfit, hlt, fun n k hk => ?_, Nat.le_max_right _ _⟩
    · show b.used - oldBytes + newBytes = charged (b.allocations.insert name newBytes)
      rw [charged, sumOver_insert_of_some _ hold, hu, charged]
      exact Nat.add_comm _ _
    · have hk' : (b.allocations.insert name newBytes)[n]? = some k := hk
      rw [getElem?_insert'] at hk'
      split at hk'
      · cases hk'; exact hpos
      · exact hp n k hk'
  | @settle target reservation oldBytes reservedBytes finalBytes hpos hne hold hres hfit =>
    have hres' : (b.allocations.erase target)[reservation]? = some reservedBytes := by
      rw [getElem?_erase', if_neg (Ne.symm hne)]
      exact hres
    have hgone : ((b.allocations.erase target).erase reservation)[target]? = none := by
      rw [getElem?_erase', getElem?_erase', if_pos rfl, ite_self]
    refine ⟨?_, hfit, hlt, fun n k hk => ?_, Nat.le_max_right _ _⟩
    · show b.used - oldBytes - reservedBytes + finalBytes =
        charged (((b.allocations.erase target).erase reservation).insert target finalBytes)
      rw [charged, sumOver_insert_of_none _ hgone, sumOver_erase_of_some _ hres',
        sumOver_erase_of_some _ hold, hu, charged]
      exact Nat.add_comm _ _
    · have hk' : (((b.allocations.erase target).erase reservation).insert target
          finalBytes)[n]? = some k := hk
      rw [getElem?_insert', getElem?_erase', getElem?_erase'] at hk'
      split at hk'
      · cases hk'; exact hpos
      · split at hk'
        · cases hk'
        · exact hp n k hk'
  | @move l hm =>
    refine ⟨?_, hle, hlt, fun n k hk => ?_, hpk⟩
    · rw [move_used, MemoryBudget.move, charged, sumOver_moveKeys (fun bytes => bytes) hm, hu, charged]
    · have hk' : (moveKeys l b.allocations)[n]? = some k := hk
      by_cases ht : n ∈ l.map Prod.snd
      · obtain ⟨p, hpl, rfl⟩ := List.mem_map.mp ht
        rw [getElem?_moveKeys_target hm hpl] at hk'
        exact hp _ k hk'
      · by_cases hs : n ∈ l.map Prod.fst
        · obtain ⟨p, hpl, rfl⟩ := List.mem_map.mp hs
          rw [getElem?_moveKeys_source hm hpl] at hk'
          cases hk'
        · rw [getElem?_moveKeys_of_notMem hm hs ht] at hk'
          exact hp n k hk'

/-- One change moves the peak to the larger of itself and the new usage. -/
theorem peakUsed_eq (hs : Step b b') (h : Accounted b) :
    b'.peakUsed = max b.peakUsed b'.used := by
  have hpk := h.peak
  cases hs with
  | stay => exact (Nat.max_eq_left hpk).symm
  | charge => rfl
  | discharge =>
    exact (Nat.max_eq_left (Nat.le_trans (Nat.sub_le _ _) hpk)).symm
  | recharge => rfl
  | settle => rfl
  | move => exact (Nat.max_eq_left hpk).symm

theorem total_eq (hs : Step b b') : b'.total = b.total := by
  cases hs <;> rfl

end Step

/-! ## Closed forms -/

variable {b : MemoryBudget}

theorem contains_eq_isSome (b : MemoryBudget) (name : String) :
    b.allocations.contains name = (b.get name).isSome :=
  Std.ExtTreeMap.contains_eq_isSome_getElem?

theorem availableBytes_run {ε : Type} (h : b.used ≤ b.total) :
    (availableBytes : Exec MemoryBudget ε Nat) b = (.ok (b.total - b.used), b) := by
  simp [availableBytes, checkedSub_of_le h, expect]

theorem canAllocate_run {ε : Type} (h : b.used ≤ b.total) (bytes : Nat) :
    (canAllocate bytes : Exec MemoryBudget ε Bool) b =
      (.ok (decide (b.used + bytes ≤ b.total)), b) := by
  have hfit : (bytes ≤ b.total - b.used) ↔ (b.used + bytes ≤ b.total) := by omega
  rw [canAllocate, bind_of_ok (availableBytes_run h), pure_run]
  simp only [hfit]

theorem allocate_run (h : Accounted b) (name : String) (bytes : Nat) :
    allocate name bytes b =
      if bytes = 0 then (.err (.invalidSize bytes), b)
      else if (b.get name).isSome then (.err (.alreadyExists name), b)
      else if b.used + bytes ≤ b.total then (.ok (), b.charge name bytes)
      else (.err (.insufficient name bytes (b.total - b.used) b.total b.used), b) := by
  have hlt := h.total_lt
  unfold allocate
  rw [self_bind_run, failIf_bind_run, failIf_bind_run, contains_eq_isSome,
    bind_of_ok (canAllocate_run h.used_le bytes), failIfM_bind_run]
  by_cases hfit : b.used + bytes ≤ b.total
  · simp [hfit, checkedAdd_of_lt (Nat.lt_of_le_of_lt hfit hlt), charge]
  · simp [hfit, bind_of_ok (availableBytes_run h.used_le)]

theorem release_run (h : Accounted b) (name : String) :
    release name b =
      match b.get name with
      | none => (.err (.notFound name), b)
      | some bytes => (.ok bytes, b.discharge name bytes) := by
  unfold release
  rw [self_bind_run, okOr_bind_run]
  cases hn : b.get name with
  | none => rfl
  | some bytes => simp [checkedSub_of_le (h.le_used hn), discharge]

theorem resize_run (h : Accounted b) (name : String) (newBytes : Nat) :
    resize name newBytes b =
      if newBytes = 0 then (.err (.invalidSize newBytes), b)
      else match b.get name with
      | none => (.err (.notFound name), b)
      | some oldBytes =>
        if b.used - oldBytes + newBytes ≤ b.total then
          (.ok oldBytes, b.recharge name oldBytes newBytes)
        else
          (.err (.insufficient name (newBytes - oldBytes) (b.total - b.used) b.total b.used), b) := by
  have hlt := h.total_lt
  have hle := h.used_le
  unfold resize
  rw [self_bind_run, failIf_bind_run, okOr_bind_run]
  by_cases h0 : newBytes = 0
  · rw [if_pos h0, if_pos h0]
  rw [if_neg h0, if_neg h0]
  cases hn : b.get name with
  | none => rfl
  | some oldBytes =>
    have hold := h.le_used hn
    simp only
    by_cases hgt : newBytes > oldBytes
    · have hfit_iff : b.used + (newBytes - oldBytes) ≤ b.total ↔
          b.used - oldBytes + newBytes ≤ b.total := by omega
      have hsum : b.used + (newBytes - oldBytes) = b.used - oldBytes + newBytes := by omega
      rw [if_pos hgt]
      by_cases hfit : b.used - oldBytes + newBytes ≤ b.total
      · have hfit' := hfit_iff.mpr hfit
        simp [bind_of_ok (canAllocate_run hle _), hfit, hn,
          checkedAdd_of_lt (Nat.lt_of_le_of_lt hfit' hlt), recharge, hsum]
      · have hfit' : ¬ b.used + (newBytes - oldBytes) ≤ b.total := fun e => hfit (hfit_iff.mp e)
        simp [bind_of_ok (canAllocate_run hle _), bind_of_ok (availableBytes_run hle), hfit', hfit]
    · have hfit : b.used - oldBytes + newBytes ≤ b.total := by omega
      have hsub : b.used - (oldBytes - newBytes) = b.used - oldBytes + newBytes := by omega
      rw [if_neg hgt, if_pos hfit]
      simp [checkedSub_of_le (a := b.used) (b := oldBytes - newBytes) (by omega), hn, recharge, hsub]

/-- What `commit_resize` has left in use once both charges are taken off. -/
def baseUsed (b : MemoryBudget) (oldBytes reservedBytes : Nat) : Nat :=
  b.used - oldBytes - reservedBytes

theorem commitResize_run (h : Accounted b) (target reservation : String) (finalBytes : Nat) :
    commitResize target reservation finalBytes b =
      if finalBytes = 0 then (.err (.invalidSize finalBytes), b)
      else if target = reservation then (.err (.alreadyExists reservation), b)
      else match b.get target with
      | none => (.err (.notFound target), b)
      | some oldBytes =>
        match b.get reservation with
        | none => (.err (.notFound reservation), b)
        | some reservedBytes =>
          let base := b.baseUsed oldBytes reservedBytes
          if u64Bound ≤ base + finalBytes then
            (.err (.accountingOverflow target finalBytes base), b)
          else if base + finalBytes ≤ b.total then
            (.ok (), b.settle target reservation oldBytes reservedBytes finalBytes)
          else (.err (.insufficient target finalBytes (b.total - base) b.total base), b) := by
  unfold commitResize
  rw [self_bind_run, failIf_bind_run, failIf_bind_run, okOr_bind_run]
  by_cases h0 : finalBytes = 0
  · rw [if_pos h0, if_pos h0]
  by_cases hne : target = reservation
  · rw [if_neg h0, if_neg h0, if_pos hne, if_pos hne]
  rw [if_neg h0, if_neg h0, if_neg hne, if_neg hne]
  cases hn : b.get target with
  | none => rfl
  | some oldBytes =>
    simp only [okOr_bind_run]
    cases hm : b.get reservation with
    | none => rfl
    | some reservedBytes =>
      have hsum := h.add_le hn hm (Ne.symm hne)
      have hbase : b.baseUsed oldBytes reservedBytes ≤ b.total :=
        Nat.le_trans (by unfold baseUsed; omega) h.used_le
      have hsub : (checkedSub b.used oldBytes).bind (checkedSub · reservedBytes) =
          some (b.baseUsed oldBytes reservedBytes) := by
        rw [checkedSub_of_le (by omega), Option.bind_some, checkedSub_of_le (by omega), baseUsed]
      simp only [hsub]
      by_cases hov : u64Bound ≤ b.baseUsed oldBytes reservedBytes + finalBytes
      · rw [checkedAdd_eq_none.mpr hov, if_pos hov]
      · rw [checkedAdd_of_lt (Nat.lt_of_not_le hov), if_neg hov]
        simp only [failIfM_bind_run, bind_assoc]
        by_cases hfit : b.baseUsed oldBytes reservedBytes + finalBytes ≤ b.total
        · rw [if_neg (Nat.not_lt.mpr hfit), if_pos hfit]
          simp [settle, baseUsed]
        · rw [if_pos (Nat.lt_of_not_le hfit), if_neg hfit, expect_bind_run,
            checkedSub_of_le hbase]
          rfl

/-! ## The prefix rename -/

theorem mem_allocations {name : String} : name ∈ b.allocations ↔ (b.get name).isSome := by
  rw [← contains_eq_isSome, Std.ExtTreeMap.mem_iff_contains]

theorem renamed_injective {oldPrefix newPrefix n m : String}
    (hn : Text.startsWith n oldPrefix = true) (hm : Text.startsWith m oldPrefix = true)
    (h : renamed oldPrefix newPrefix n = renamed oldPrefix newPrefix m) : n = m := by
  rw [renamed, renamed, Text.append_left_inj] at h
  rw [← Text.append_dropLen hn, ← Text.append_dropLen hm, h]

theorem mem_namesUnder {pre name : String} :
    name ∈ b.namesUnder pre ↔ (b.get name).isSome ∧ Text.startsWith name pre = true := by
  rw [namesUnder, List.mem_filter, Std.ExtTreeMap.mem_keys, mem_allocations]

theorem nodup_namesUnder (b : MemoryBudget) (pre : String) : (b.namesUnder pre).Nodup :=
  Std.ExtTreeMap.nodup_keys.filter _

theorem mem_renames {oldPrefix newPrefix : String} {p : String × String} :
    p ∈ b.renames oldPrefix newPrefix ↔
      (b.get p.1).isSome ∧ Text.startsWith p.1 oldPrefix = true ∧
        p.2 = renamed oldPrefix newPrefix p.1 := by
  obtain ⟨n, m⟩ := p
  simp only [renames, List.mem_map, mem_namesUnder, Prod.mk.injEq]
  constructor
  · intro ⟨a, ⟨ha, hs⟩, hn, hm⟩
    subst hn
    exact ⟨ha, hs, hm.symm⟩
  · intro ⟨ha, hs, hm⟩
    exact ⟨n, ⟨ha, hs⟩, rfl, hm.symm⟩

/-- Once no destination exists, the pairs of a prefix rename are safe moves. -/
theorem movable_renames {oldPrefix newPrefix : String}
    (h : ∀ p ∈ b.renames oldPrefix newPrefix, b.get p.2 = none) :
    Movable (b.renames oldPrefix newPrefix) b.allocations := by
  have hkeys := nodup_namesUnder b oldPrefix
  refine ⟨?_, ?_, fun p hp => ?_, h⟩
  · rw [renames, List.map_map]
    simpa [Function.comp_def] using hkeys
  · rw [renames, List.map_map]
    refine List.Nodup.map_on (fun n hn m hm he => ?_) hkeys
    exact renamed_injective (mem_namesUnder.mp hn).2 (mem_namesUnder.mp hm).2 he
  · exact Option.isSome_iff_exists.mp (mem_renames.mp hp).1

/-- The destination check passed: no destination exists. -/
theorem absent_of_find?_eq_none {l : List (String × String)}
    (h : l.find? (fun p => b.allocations.contains p.2) = none) :
    ∀ p ∈ l, b.get p.2 = none := by
  intro p hp
  have hc := List.find?_eq_none.mp h p hp
  rw [contains_eq_isSome] at hc
  exact Option.not_isSome_iff_eq_none.mp hc

theorem checkDestinations_run (l : List (String × String)) :
    checkDestinations l b =
      match l.find? (fun p => b.allocations.contains p.2) with
      | some p => (.err (.alreadyExists p.2), b)
      | none => (.ok (), b) := by
  induction l with
  | nil => rfl
  | cons p rest ih =>
    obtain ⟨n, m⟩ := p
    rw [checkDestinations, self_bind_run, failIf_bind_run, List.find?_cons]
    cases b.allocations.contains m with
    | true => rfl
    | false => exact ih

theorem moveAll_run {l : List (String × String)} (h : Movable l b.allocations) :
    moveAll l b = (.ok (l.map Prod.snd), b.move l) := by
  induction l generalizing b with
  | nil => rfl
  | cons p rest ih =>
    obtain ⟨n, m⟩ := p
    obtain ⟨bytes, hn⟩ := h.present (n, m) List.mem_cons_self
    have hget : b.get n = some bytes := hn
    have hkey : moveKey b.allocations n m = (b.allocations.erase n).insert m bytes := by
      rw [moveKey, hn]
    have ht := ih (b := { b with allocations := moveKey b.allocations n m }) h.tail
    rw [hkey] at ht
    rw [moveAll, self_bind_run, hget, expect_some, pure_bind_run, modify_bind_run,
      modify_bind_run, bind_of_ok ht, pure_run, move, move, moveKeys, hkey]
    rfl

theorem renamePrefix_run (b : MemoryBudget) (oldPrefix newPrefix : String) :
    renamePrefix oldPrefix newPrefix b =
      if b.renames oldPrefix newPrefix = [] then (.err (.notFound oldPrefix), b)
      else match (b.renames oldPrefix newPrefix).find? (fun p => b.allocations.contains p.2) with
      | some p => (.err (.alreadyExists p.2), b)
      | none => (.ok ((b.renames oldPrefix newPrefix).map Prod.snd),
          b.move (b.renames oldPrefix newPrefix)) := by
  rw [renamePrefix, self_bind_run, failIf_bind_run]
  simp only [List.isEmpty_iff]
  by_cases he : b.renames oldPrefix newPrefix = []
  · rw [if_pos he, if_pos he]
  rw [if_neg he, if_neg he, bind_run, checkDestinations_run]
  cases hf : (b.renames oldPrefix newPrefix).find? (fun p => b.allocations.contains p.2) with
  | some p => rfl
  | none =>
    exact moveAll_run (movable_renames (absent_of_find?_eq_none hf))

/-! ## Every operation makes one step -/

theorem allocate_step (h : Accounted b) (name : String) (bytes : Nat) :
    Step b (allocate name bytes b).2 := by
  rw [allocate_run h]
  split_ifs with h0 hs hfit
  · exact .stay
  · exact .stay
  · exact .charge (Nat.pos_of_ne_zero h0) (Option.not_isSome_iff_eq_none.mp hs) hfit
  · exact .stay

theorem release_step (h : Accounted b) (name : String) : Step b (release name b).2 := by
  rw [release_run h]
  cases hn : b.get name with
  | none => exact .stay
  | some bytes => exact .discharge hn

theorem resize_step (h : Accounted b) (name : String) (newBytes : Nat) :
    Step b (resize name newBytes b).2 := by
  rw [resize_run h]
  split_ifs with h0
  · exact .stay
  · cases hn : b.get name with
    | none => exact .stay
    | some oldBytes =>
      simp only
      split_ifs with hfit
      · exact .recharge (Nat.pos_of_ne_zero h0) hn hfit
      · exact .stay

theorem commitResize_step (h : Accounted b) (target reservation : String) (finalBytes : Nat) :
    Step b (commitResize target reservation finalBytes b).2 := by
  rw [commitResize_run h]
  split_ifs with h0 hne
  · exact .stay
  · exact .stay
  · cases hn : b.get target with
    | none => exact .stay
    | some oldBytes =>
      cases hm : b.get reservation with
      | none => exact .stay
      | some reservedBytes =>
        simp only
        split_ifs with hov hfit
        · exact .stay
        · exact .settle (Nat.pos_of_ne_zero h0) hne hn hm hfit
        · exact .stay

theorem renamePrefix_step (b : MemoryBudget) (oldPrefix newPrefix : String) :
    Step b (renamePrefix oldPrefix newPrefix b).2 := by
  rw [renamePrefix_run]
  split_ifs with he
  · exact .stay
  · cases hf : (b.renames oldPrefix newPrefix).find? (fun p => b.allocations.contains p.2) with
    | some p => exact .stay
    | none => exact .move (movable_renames (absent_of_find?_eq_none hf))

end MemoryBudget
end Ramforge
