/-
The cache of decoded layers, whose charges are the loader's own.

A loaded layer arrives with live charges `layer:<i>:*`.  Keeping it renames those
charges to `cache:layer:<i>:*`; eviction releases exactly the renamed names, which
the entry remembers.
-/
import Ramforge.Core.Memory
import Ramforge.Rust.Loop

namespace Ramforge

open Rust Rust.Exec

structure LayerEntry (α : Type) where
  value : α
  bytes : Nat
  chargeNames : List String

inductive InsertOutcome (α : Type) where
  | cached (evictions : Nat)
  | skipped (value : α) (evictions : Nat)

structure LayerCache (α : Type) where
  capacityBytes : Nat
  usedBytes : Nat
  entries : Std.ExtTreeMap Nat (LayerEntry α)
  /-- Most recently used first. -/
  lru : List Nat

namespace LayerCache

variable {α ρ : Type}

/-- A call on a layer cache and the budget it shares. -/
abbrev Method (α β : Type) : Type := Exec (LayerCache α × MemoryBudget) String β

def new (capacityBytes : Nat) : LayerCache α :=
  { capacityBytes, usedBytes := 0, entries := ∅, lru := [] }

def activePrefix (layerIndex : Nat) : String := "layer:" ++ toString layerIndex ++ ":"

def cachePrefix (layerIndex : Nat) : String := "cache:layer:" ++ toString layerIndex ++ ":"

def touch {ε : Type} (layerIndex : Nat) : Exec (LayerCache α) ε Unit := do
  modify fun c => { c with lru := c.lru.filter (· ≠ layerIndex) }
  modify fun c => { c with lru := layerIndex :: c.lru }

def withEntry {ε : Type} (layerIndex : Nat) (useEntry : α → ρ) :
    Exec (LayerCache α) ε (Option ρ) := do
  let c ← self
  if c.entries.contains layerIndex then
    touch layerIndex
    return (c.entries[layerIndex]?).map fun entry => useEntry entry.value
  else return none

/-- The check of `release_entry` that every charge of the entry still exists. -/
def checkCharges (layerIndex : Nat) : List String → Method α Unit
  | [] => return ()
  | chargeName :: rest => do
    let s ← self
    failIf ((s.2.get chargeName).isNone)
      (s!"cached layer {layerIndex} charge '" ++ chargeName ++ "' missing before eviction")
    checkCharges layerIndex rest

/-- The `try_fold` of `release_entry` over the charges of the entry. -/
def sumCharges (layerIndex : Nat) : List String → Nat → Method α Nat
  | [], total => return total
  | name :: rest, total => do
    let s ← self
    let charge ← okOr (s.2.get name)
      (s!"cached layer {layerIndex} charge '" ++ name ++ "' disappeared during eviction")
    let total ← okOr (checkedAdd total charge) s!"cached layer {layerIndex} charge total overflow"
    sumCharges layerIndex rest total

/-- `budget.release(name)` for each name, with a panic on an error. -/
def releaseNames {κ ε : Type} (message : String → MemoryError → String) :
    List String → Exec (κ × MemoryBudget) ε Unit
  | [] => return ()
  | name :: rest => do
    let _ ← orPanic (onSnd (MemoryBudget.release name)) (message name)
    releaseNames message rest

def releaseEntry (layerIndex : Nat) : Method α Unit := do
  let s ← self
  let entry ← okOr (s.1.entries[layerIndex]?)
    s!"cached layer {layerIndex} missing during eviction"
  checkCharges layerIndex entry.chargeNames
  let entry ← expect (s.1.entries[layerIndex]?) "cached layer validated above"
  let chargeBytes ← sumCharges layerIndex entry.chargeNames 0
  failIf (chargeBytes ≠ entry.bytes)
    s!"cached layer {layerIndex} charge total {chargeBytes} does not match entry size {entry.bytes}"
  let newUsedBytes ← okOr (checkedSub s.1.usedBytes entry.bytes)
    "layer cache byte accounting underflow"
  let entry ← expect (s.1.entries[layerIndex]?) "cached layer validated above"
  onFst (modify fun c => { c with entries := c.entries.erase layerIndex })
  releaseNames (fun chargeName error =>
    s!"failed to release cached layer {layerIndex} charge '" ++ chargeName ++
      "' after dropping value: " ++ error.display) entry.chargeNames
  onFst (modify fun c => { c with usedBytes := newUsedBytes })

def evictLru : Method α Bool := do
  let s ← self
  match s.1.lru.getLast? with
  | none => return false
  | some layerIndex =>
    releaseEntry layerIndex
    onFst (modify fun c => { c with lru := c.lru.dropLast })
    return true

def evictLayer (layerIndex : Nat) : Method α Unit := do
  releaseEntry layerIndex
  onFst (modify fun c => { c with lru := c.lru.filter (· ≠ layerIndex) })

/-- The `try_fold` over the active charges of a layer. -/
def activeChargeBytes (b : MemoryBudget) (pre : String) : Option Nat :=
  (b.allocations.toList.filter fun p => Text.startsWith p.1 pre).foldlM
    (fun total p => checkedAdd total p.2) 0

/-- The check and the releases of `release_budget_prefix`. -/
def checkPrefix : List String → Method α Unit
  | [] => return ()
  | name :: rest => do
    let s ← self
    failIf ((s.2.get name).isNone)
      ("charge '" ++ name ++ "' disappeared during prefix cleanup")
    checkPrefix rest

def releaseBudgetPrefix (pre : String) : Method α Unit := do
  let names := (← self).2.namesUnder pre
  checkPrefix names
  releaseNames (fun name error =>
    "failed to release charge '" ++ name ++ "' during prefix cleanup: " ++ error.display) names

/-- A round of the eviction loop of `insert_loaded`. -/
def fitsRound (bytes evictions : Nat) : Method α (RoundEnd Nat (Bool × Nat)) := do
  let s ← self
  let total ← okOr (checkedAdd s.1.usedBytes bytes) "layer cache byte accounting overflow"
  if total > s.1.capacityBytes then
    let evicted ← evictLru
    if evicted then return .again (evictions + 1) else return .leave (false, evictions)
  else return .leave (true, evictions)

/-- The eviction loop; `false` when there was nothing to evict. -/
def evictUntilFits (bytes evictions : Nat) : Method α (Bool × Nat) :=
  loop (fun s => s.1.lru.length) (fitsRound bytes) evictions

/-- The rename failed: give the active charges back and report both errors. -/
def abandon {β : Type} (layerIndex : Nat) (error : MemoryError) : Method α β := do
  let released ← attempt (releaseBudgetPrefix (activePrefix layerIndex))
  let message :=
    s!"failed to convert layer {layerIndex} charges to cache residency: " ++ error.display
  match released with
  | .error releaseError => throw (message ++ "; charge cleanup failed: " ++ releaseError)
  | .ok _ => throw message

/-- The rename and the last lines of `insert_loaded`. -/
def adopt (layerIndex : Nat) (value : α) (bytes evictions : Nat) :
    Method α (InsertOutcome α) := do
  let s ← self
  let newUsedBytes ← okOr (checkedAdd s.1.usedBytes bytes) "layer cache byte accounting overflow"
  match ← attempt (onSnd
      (MemoryBudget.renamePrefix (activePrefix layerIndex) (cachePrefix layerIndex))) with
  | .error error => abandon layerIndex error
  | .ok chargeNames =>
    onFst (modify fun c => { c with usedBytes := newUsedBytes })
    onFst (modify fun c => { c with lru := layerIndex :: c.lru })
    onFst (modify fun c =>
      { c with entries := c.entries.insert layerIndex { value, bytes, chargeNames } })
    return .cached evictions

/-- Evict the entry a layer already has, and count it. -/
def evictPresent (layerIndex : Nat) : Method α Nat := do
  let s ← self
  if s.1.entries.contains layerIndex then
    evictLayer layerIndex
    return 1
  else return 0

def insertLoaded (layerIndex : Nat) (value : α) (bytes : Nat) :
    Method α (InsertOutcome α) := do
  let s ← self
  if bytes = 0 ∨ bytes > s.1.capacityBytes then return .skipped value 0
  else if activeChargeBytes s.2 (activePrefix layerIndex) ≠ some bytes then
    return .skipped value 0
  else
    let evictions ← evictPresent layerIndex
    let (fits, evictions) ← evictUntilFits bytes evictions
    if fits then adopt layerIndex value bytes evictions
    else return .skipped value evictions

def availableRound (requiredBytes evictions : Nat) : Method α (RoundEnd Nat Nat) := do
  let fits ← onSnd (MemoryBudget.canAllocate requiredBytes)
  if fits then return .leave evictions
  else
    let evicted ← evictLru
    return if evicted then .again (evictions + 1) else .leave evictions

def evictUntilAvailable (requiredBytes : Nat) : Method α Nat :=
  loop (fun s => s.1.lru.length) (availableRound requiredBytes) 0

def clearRound (evictions : Nat) : Method α (RoundEnd Nat Nat) := do
  let evicted ← evictLru
  return if evicted then .again (evictions + 1) else .leave evictions

def clear : Method α Nat := loop (fun s => s.1.lru.length) clearRound 0

end LayerCache
end Ramforge
