/-
One cache and one budget over whole runs.

The cache's client calls the budgeted operations in any order; in between, and in
scopes around them, the budget is used by others under names of their own.
-/
import Ramforge.Core.CacheRun
import Ramforge.Core.MemoryFrame
import Ramforge.Core.MemoryAccounting

namespace Ramforge

open Rust Rust.Exec Rust.MapSum

inductive CacheCall where
  | insertBudgeted (key : String) (data : List UInt8)
  | insertBudgetedWith (key : String) (size : Nat) (build : Outcome CacheError (List UInt8))
  | removeBudgeted (key : String) (reserves : Bool)
  | clearBudgeted
  | get (key : String)

namespace CacheCall

/-- A cache method, its result dropped. -/
def onCache {α : Type} (m : Exec (BoundedCache × MemoryBudget) CacheError α) :
    Exec (BoundedCache × MemoryBudget) String Unit :=
  mapErr CacheError.display (do let _ ← m; pure ())

def run : CacheCall → Exec (BoundedCache × MemoryBudget) String Unit
  | .insertBudgeted key data => onCache (BoundedCache.insertBudgeted key data)
  | .insertBudgetedWith key size build => onCache (BoundedCache.insertBudgetedWith key size build)
  | .removeBudgeted key reserves => onCache (BoundedCache.removeBudgeted key reserves)
  | .clearBudgeted => onCache BoundedCache.clearBudgeted
  | .get key => onCache (onFst (BoundedCache.get key))

theorem onCache_snd {α : Type} (m : Exec (BoundedCache × MemoryBudget) CacheError α)
    (s : BoundedCache × MemoryBudget) : (onCache m s).2 = (m s).2 := by
  rw [onCache, mapErr_run, bind_run]
  rcases m s with ⟨_ | _ | _, _⟩ <;> rfl

/-- A call of the cache's client is a sequence of changes. -/
theorem run_changes {s : BoundedCache × MemoryBudget} (h : BoundedCache.Coherent s)
    (c : CacheCall) : BoundedCache.Changes s (c.run s).2 := by
  cases c with
  | insertBudgeted key data =>
    rw [run, onCache_snd]
    exact BoundedCache.insertBudgeted_changes h key data
  | insertBudgetedWith key size build =>
    rw [run, onCache_snd]
    exact BoundedCache.insertBudgetedWith_changes h key size build
  | removeBudgeted key reserves =>
    rw [run, onCache_snd]
    exact BoundedCache.removeBudgeted_changes h key reserves
  | clearBudgeted =>
    rw [run, onCache_snd]
    exact BoundedCache.clearBudgeted_changes h
  | get key =>
    rw [run, onCache_snd]
    exact BoundedCache.get_changes h key

end CacheCall

namespace BoundedCache

/-- The name under which every cache charge is made. -/
def chargePrefix : String := "cache:"

/-- The cache's counter, its order of keys and its charges in the budget agree
with its entries. -/
structure InStep (capacity : Nat) (s : BoundedCache × MemoryBudget) : Prop where
  used_eq : s.1.used = (s.1.entries.toList.map fun p => p.2.data.length).sum
  used_le : s.1.used ≤ capacity
  lru_nodup : s.1.lru.Nodup
  lru_perm : s.1.lru.Perm s.1.entries.keys
  charges : ∀ name bytes, Text.startsWith name chargePrefix = true →
    (s.2.get name = some bytes ↔
      ∃ key e, name = budgetKey key ∧ s.1.entries[key]? = some e ∧
        e.size = bytes ∧ e.data.length = bytes)

variable {s t : BoundedCache × MemoryBudget}

theorem startsWith_budgetKey (key : String) :
    Text.startsWith (budgetKey key) chargePrefix = true := Text.startsWith_append _ _

theorem held_eq_sum (h : Coherent s) :
    held s.1.entries = (s.1.entries.toList.map fun p => p.2.data.length).sum := by
  rw [held, sumOver]
  refine congrArg List.sum (List.map_congr_left fun p hp => ?_)
  exact h.size_eq p.1 p.2 (Std.ExtTreeMap.mem_toList_iff_getElem?_eq_some.mp hp)

theorem Coherent.lru_perm (h : Coherent s) : s.1.lru.Perm s.1.entries.keys := by
  refine (List.perm_ext_iff_of_nodup h.lru_nodup Std.ExtTreeMap.nodup_keys).mpr fun key => ?_
  rw [h.lru_mem, Std.ExtTreeMap.mem_keys, Std.ExtTreeMap.mem_iff_isSome_getElem?]

theorem Coherent.inStep (h : Coherent s) : InStep s.1.capacity s where
  used_eq := h.used_eq.trans (held_eq_sum h)
  used_le := h.used_le
  lru_nodup := h.lru_nodup
  lru_perm := h.lru_perm
  charges name bytes hname := by
    obtain ⟨key, rfl⟩ : ∃ key, name = budgetKey key :=
      ⟨_, (Text.append_dropLen hname).symm⟩
    rw [h.charge_eq, Option.map_eq_some_iff]
    constructor
    · intro ⟨e, he, hsize⟩
      exact ⟨key, e, rfl, he, hsize, (h.size_eq key e he).symm.trans hsize⟩
    · intro ⟨k, e, hk, he, hsize, _⟩
      obtain rfl := budgetKey_injective hk
      exact ⟨e, he, hsize⟩

/-- A change of the budget under other names keeps the agreement. -/
theorem Coherent.of_frame (h : Coherent s) (hfst : t.1 = s.1) (hacc : t.2.Accounted)
    (hget : ∀ name, Text.startsWith name chargePrefix = true → t.2.get name = s.2.get name) :
    Coherent t := by
  obtain ⟨c, b⟩ := t
  obtain rfl : c = s.1 := hfst
  refine ⟨hacc, h.used_eq, h.used_le, h.capacity_lt, h.lru_nodup, h.lru_mem, fun key => ?_,
    h.size_eq⟩
  exact (hget _ (startsWith_budgetKey key)).trans (h.charge_eq key)

theorem Change.capacity_eq (h : Change s t) : t.1.capacity = s.1.capacity := by
  cases h <;> rfl

theorem Changes.capacity_eq (h : Changes s t) : t.1.capacity = s.1.capacity := by
  induction h with
  | refl => rfl
  | tail _ hstep ih => exact hstep.capacity_eq.trans ih

/-- One call, of the cache's client or of anyone else, keeps the agreement. -/
theorem atom_coherent
    (h : Call.Atom CacheCall.run (Call.Avoids chargePrefix) s t) (hs : Coherent s) :
    Coherent t ∧ t.1.capacity = s.1.capacity := by
  rcases h.frame CacheCall.run hs.accounted with ⟨i, rfl⟩ | ⟨hfst, hacc, -, hget⟩
  · have hc := CacheCall.run_changes hs i
    exact ⟨hc.coherent hs, hc.capacity_eq⟩
  · exact ⟨hs.of_frame hfst hacc hget, by rw [hfst]⟩

theorem coherent_new {capacity total : Nat} {c : BoundedCache} {b : MemoryBudget}
    (hcap : capacity < u64Bound) (htotal : total < u64Bound)
    (hc : BoundedCache.new capacity = .ok c) (hb : MemoryBudget.new total = .ok b) :
    Coherent (c, b) ∧ c.capacity = capacity := by
  obtain ⟨hacc, -, -, -, halloc⟩ := MemoryBudget.accounted_new htotal hb
  rw [BoundedCache.new] at hc
  split at hc
  · cases hc
  cases hc
  refine ⟨⟨hacc, ?_, Nat.zero_le _, hcap, List.nodup_nil, fun key => ?_, fun key => ?_,
    fun key e he => ?_⟩, rfl⟩
  · rw [held, sumOver_empty]
  · simp
  · simp [MemoryBudget.get, halloc]
  · simp at he

/-- In every run in which the other users of the budget keep to names without the
cache's prefix, the cache and the budget are in step after every call. -/
theorem runs_inStep {capacity total : Nat} {c : BoundedCache} {b : MemoryBudget}
    (hcap : capacity < u64Bound) (htotal : total < u64Bound)
    (hc : BoundedCache.new capacity = .ok c) (hb : MemoryBudget.new total = .ok b)
    (calls : List (Call CacheCall))
    (havoid : Call.EachOf CacheCall.run (Call.Avoids chargePrefix) calls (c, b)) :
    ∀ s ∈ (c, b) :: Call.visitedAll CacheCall.run calls (c, b), InStep capacity s := by
  have hnew := coherent_new hcap htotal hc hb
  have hpath := Call.runAll_path CacheCall.run calls (c, b) havoid
  intro s hs
  have hinv := hpath.invariant (I := fun s => Coherent s ∧ s.1.capacity = capacity)
    (fun x y hxy hx => by
      obtain ⟨hy, hcapy⟩ := atom_coherent hxy hx.1
      exact ⟨hy, hcapy.trans hx.2⟩) hnew s hs
  have h := hinv.1.inStep
  rwa [hinv.2] at h

/-- A builder that lies about its size, an eviction and a failed replacement, with
another user's charges in between. -/
def busyCalls : List (Call CacheCall) :=
  [.allocate "layer:0:w" 3,
    .other (.insertBudgeted "a" [1, 2]),
    .other (.insertBudgetedWith "b" 2 (.ok [1])),
    .withTemp "scratch" 1
      [.other (.insertBudgetedWith "b" 3 (.ok [1, 2, 3])), .renamePrefix "layer:" "kept:"]
      (.err "stopped"),
    .other (.insertBudgetedWith "a" 4 (.err (.general "read failed")))]

def smallCache : BoundedCache :=
  { capacity := 4, used := 0, entries := ∅, lru := [], stats := { capacityBytes := 4 } }

def smallBudget : MemoryBudget := { total := 9, allocations := ∅, used := 0, peakUsed := 0 }

theorem runs_inStep_busy :
    InStep 4 (Call.runAll CacheCall.run busyCalls (smallCache, smallBudget)).2 := by
  have hcap : 4 < u64Bound := by decide
  have htotal : 9 < u64Bound := by decide
  have havoid : Call.EachOf CacheCall.run (Call.Avoids chargePrefix) busyCalls
      (smallCache, smallBudget) := by decide
  exact runs_inStep hcap htotal rfl rfl busyCalls havoid _
    (Call.runAll_path CacheCall.run busyCalls _ havoid).last_mem

end BoundedCache
end Ramforge
