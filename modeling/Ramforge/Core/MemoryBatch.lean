/-
Several charges at once: their bytes together, their release one after another,
and their rename.
-/
import Ramforge.Core.MemoryStep

namespace Ramforge
namespace MemoryBudget

open Rust Rust.Exec Rust.MapSum Rust.KeyMove

/-- The bytes charged under a name, 0 without a charge. -/
def bytesOf (b : MemoryBudget) (name : String) : Nat := (b.get name).getD 0

def sumOf (b : MemoryBudget) (names : List String) : Nat := (names.map b.bytesOf).sum

def dischargeAll : List String → MemoryBudget → MemoryBudget
  | [], b => b
  | name :: rest, b => dischargeAll rest (b.discharge name (b.bytesOf name))

variable {b b' : MemoryBudget} {names : List String} {name : String}

@[simp] theorem sumOf_nil (b : MemoryBudget) : b.sumOf [] = 0 := rfl

@[simp] theorem sumOf_cons (b : MemoryBudget) (name : String) (names : List String) :
    b.sumOf (name :: names) = b.bytesOf name + b.sumOf names := rfl

theorem sumOf_congr (h : ∀ n ∈ names, b.get n = b'.get n) : b.sumOf names = b'.sumOf names := by
  refine congrArg List.sum (List.map_congr_left fun n hn => ?_)
  rw [bytesOf, bytesOf, h n hn]

theorem sumOf_perm {l : List String} (h : names.Perm l) : b.sumOf names = b.sumOf l :=
  (h.map _).sum_eq

theorem get_eq_some_bytesOf (h : (b.get name).isSome) : b.get name = some (b.bytesOf name) := by
  obtain ⟨bytes, hb⟩ := Option.isSome_iff_exists.mp h
  rw [bytesOf, hb, Option.getD_some]

theorem sumOf_discharge (h : name ∉ names) (bytes : Nat) :
    (b.discharge name bytes).sumOf names = b.sumOf names := by
  refine sumOf_congr fun n hn => ?_
  rw [get_discharge, if_neg (ne_of_mem_of_not_mem hn h)]

theorem get_dischargeAll (b : MemoryBudget) (names : List String) (other : String) :
    (dischargeAll names b).get other = if other ∈ names then none else b.get other := by
  induction names generalizing b with
  | nil => simp [dischargeAll]
  | cons n rest ih =>
    rw [dischargeAll, ih, get_discharge]
    by_cases hr : other ∈ rest
    · simp [hr]
    · by_cases hn : other = n
      · simp [hn]
      · simp [hr, hn]

@[simp] theorem dischargeAll_total (names : List String) :
    (dischargeAll names b).total = b.total := by
  induction names generalizing b with
  | nil => rfl
  | cons n rest ih => exact ih

theorem dischargeAll_used (hnd : names.Nodup) :
    (dischargeAll names b).used = b.used - b.sumOf names := by
  induction names generalizing b with
  | nil => rfl
  | cons n rest ih =>
    obtain ⟨hn, hrest⟩ := List.nodup_cons.mp hnd
    rw [dischargeAll, ih hrest, sumOf_discharge hn, discharge_used, sumOf_cons]
    omega

theorem dischargeAll_accounted (h : Accounted b) (hnd : names.Nodup)
    (hs : ∀ n ∈ names, (b.get n).isSome) : Accounted (dischargeAll names b) := by
  induction names generalizing b with
  | nil => exact h
  | cons n rest ih =>
    obtain ⟨hn, hrest⟩ := List.nodup_cons.mp hnd
    have hstep := Step.discharge (get_eq_some_bytesOf (hs n List.mem_cons_self))
    refine ih (hstep.accounted h) hrest fun m hm => ?_
    rw [get_discharge, if_neg (ne_of_mem_of_not_mem hm hn)]
    exact hs m (List.mem_cons_of_mem _ hm)

/-- Charges under different names fit together in `used`. -/
theorem Accounted.sumOf_le (h : Accounted b) (hnd : names.Nodup)
    (hs : ∀ n ∈ names, (b.get n).isSome) : b.sumOf names ≤ b.used := by
  induction names generalizing b with
  | nil => exact Nat.zero_le _
  | cons n rest ih =>
    obtain ⟨hn, hrest⟩ := List.nodup_cons.mp hnd
    have hget := get_eq_some_bytesOf (hs n List.mem_cons_self)
    have hle := h.le_used hget
    have hstep := Step.discharge hget
    have hih := ih (hstep.accounted h) hrest fun m hm => by
      rw [get_discharge, if_neg (ne_of_mem_of_not_mem hm hn)]
      exact hs m (List.mem_cons_of_mem _ hm)
    rw [sumOf_discharge hn, discharge_used] at hih
    rw [sumOf_cons]
    omega

theorem isSome_of_mem_namesUnder {pre : String} (h : name ∈ b.namesUnder pre) :
    (b.get name).isSome := (mem_namesUnder.mp h).1

/-- The bytes charged under a prefix. -/
def sumUnder (b : MemoryBudget) (pre : String) : Nat := b.sumOf (b.namesUnder pre)

theorem Accounted.sumUnder_le (h : Accounted b) (pre : String) : b.sumUnder pre ≤ b.used :=
  h.sumOf_le (nodup_namesUnder b pre) fun _ => isSome_of_mem_namesUnder

/-- Budgets that agree under a prefix have the same bytes under it. -/
theorem sumUnder_congr {pre : String}
    (h : ∀ n, Text.startsWith n pre = true → b.get n = b'.get n) :
    b.sumUnder pre = b'.sumUnder pre := by
  have hperm : (b.namesUnder pre).Perm (b'.namesUnder pre) := by
    refine (List.perm_ext_iff_of_nodup (nodup_namesUnder _ _) (nodup_namesUnder _ _)).mpr
      fun n => ?_
    rw [mem_namesUnder, mem_namesUnder]
    exact and_congr_left fun hn => by rw [h n hn]
  rw [sumUnder, sumUnder, sumOf_perm hperm]
  exact sumOf_congr fun n hn => h n (mem_namesUnder.mp hn).2

theorem foldlM_checkedAdd (l : List (String × Nat)) (total : Nat)
    (h : total + (l.map Prod.snd).sum < u64Bound) :
    l.foldlM (fun total p => checkedAdd total p.2) total =
      some (total + (l.map Prod.snd).sum) := by
  induction l generalizing total with
  | nil => rfl
  | cons p rest ih =>
    simp only [List.map_cons, List.sum_cons] at h ⊢
    have hsum : total + p.2 + (rest.map Prod.snd).sum =
        total + (p.2 + (rest.map Prod.snd).sum) := by omega
    rw [List.foldlM_cons, checkedAdd_of_lt (by omega)]
    simp only [Option.bind_eq_bind, Option.bind_some]
    rw [ih _ (by omega), hsum]

/-- The entries under a prefix add up to the bytes of the names under it. -/
theorem sum_toList_filter (b : MemoryBudget) (pre : String) :
    ((b.allocations.toList.filter fun p => Text.startsWith p.1 pre).map Prod.snd).sum =
      b.sumUnder pre := by
  have hnames : b.namesUnder pre =
      (b.allocations.toList.filter fun p => Text.startsWith p.1 pre).map Prod.fst := by
    rw [namesUnder, ← Std.ExtTreeMap.map_fst_toList_eq_keys, List.filter_map]
    rfl
  rw [sumUnder, sumOf, hnames, List.map_map]
  refine congrArg List.sum (List.map_congr_left fun p hp => ?_)
  have hp' := Std.ExtTreeMap.mem_toList_iff_getElem?_eq_some.mp (List.mem_of_mem_filter hp)
  show p.2 = (b.allocations[p.1]?).getD 0
  rw [hp', Option.getD_some]

/-! ## A group of charges renamed -/

variable {l : List (String × String)}

theorem get_move_target (h : Movable l b.allocations) {p : String × String} (hp : p ∈ l) :
    (b.move l).get p.2 = b.get p.1 :=
  getElem?_moveKeys_target h (s := p.1) (t := p.2) hp

theorem get_move_source (h : Movable l b.allocations) {p : String × String} (hp : p ∈ l) :
    (b.move l).get p.1 = none :=
  getElem?_moveKeys_source h (s := p.1) (t := p.2) hp

theorem get_move_other (h : Movable l b.allocations) (hs : name ∉ l.map Prod.fst)
    (ht : name ∉ l.map Prod.snd) : (b.move l).get name = b.get name :=
  getElem?_moveKeys_of_notMem h hs ht

/-- The renamed charges weigh what the charges weighed. -/
theorem sumOf_move (h : Movable l b.allocations) :
    (b.move l).sumOf (l.map Prod.snd) = b.sumOf (l.map Prod.fst) := by
  rw [sumOf, sumOf, List.map_map, List.map_map]
  refine congrArg List.sum (List.map_congr_left fun p hp => ?_)
  show (b.move l).bytesOf p.2 = b.bytesOf p.1
  rw [bytesOf, bytesOf, get_move_target h hp]

theorem map_fst_renames (b : MemoryBudget) (oldPrefix newPrefix : String) :
    (b.renames oldPrefix newPrefix).map Prod.fst = b.namesUnder oldPrefix := by
  rw [renames, List.map_map]
  exact List.map_id' _

end MemoryBudget
end Ramforge
