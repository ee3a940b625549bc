/-
The strict bounded LRU cache, alone and with its bytes charged to a budget.

A cache keeps its own counter of bytes and its own order of keys beside the map
of entries.  The budgeted operations also keep a charge named `cache:<key>` in a
budget that other code uses at the same time.
-/
import Ramforge.Core.Memory
import Ramforge.Rust.Loop

namespace Ramforge

open Rust Rust.Exec

inductive CacheError where
  | tooLarge (size capacity : Nat)
  | general (message : String)
deriving DecidableEq, Repr

def CacheError.display : CacheError → String
  | .tooLarge size capacity =>
    s!"entry too large: {size} bytes exceeds cache capacity {capacity} bytes"
  | .general message => "cache error: " ++ message

structure CacheStats where
  hits : Nat := 0
  misses : Nat := 0
  evictions : Nat := 0
  currentBytes : Nat := 0
  capacityBytes : Nat := 0
  numEntries : Nat := 0
deriving DecidableEq, Repr

structure CacheEntry where
  data : List UInt8
  size : Nat
deriving DecidableEq

structure BoundedCache where
  capacity : Nat
  used : Nat
  entries : Std.ExtTreeMap String CacheEntry
  /-- Most recently used first. -/
  lru : List String
  stats : CacheStats

/-- `u64::try_from(data.len())`. -/
def entryLen (data : List UInt8) : Option Nat :=
  if data.length < u64Bound then some data.length else none

namespace BoundedCache

def new (capacityBytes : Nat) : Except CacheError BoundedCache :=
  if capacityBytes = 0 then .error (.general "cache capacity must be > 0")
  else .ok
    { capacity := capacityBytes
      used := 0
      entries := ∅
      lru := []
      stats := { capacityBytes } }

def updateStats {ε : Type} : Exec BoundedCache ε Unit :=
  modify fun c =>
    { c with stats := { c.stats with currentBytes := c.used, numEntries := c.entries.size } }

def get {ε : Type} (key : String) : Exec BoundedCache ε (Option (List UInt8)) := do
  let c ← self
  if c.entries.contains key then
    modify fun c => { c with lru := c.lru.filter (· ≠ key) }
    modify fun c => { c with lru := key :: c.lru }
    modify fun c => { c with stats := { c.stats with hits := c.stats.hits + 1 } }
    return (c.entries[key]?).map CacheEntry.data
  else
    modify fun c => { c with stats := { c.stats with misses := c.stats.misses + 1 } }
    return none

/-- Take an entry out of the map and off the byte count. -/
def takeEntry {ε : Type} (key : String) (message : String) :
    Exec BoundedCache ε (Option CacheEntry) := do
  match (← self).entries[key]? with
  | none => return none
  | some entry =>
    modify fun c => { c with entries := c.entries.erase key }
    let used ← expect (checkedSub (← self).used entry.size) message
    modify fun c => { c with used }
    return some entry

def forget {ε : Type} (key : String) : Exec BoundedCache ε Unit :=
  modify fun c => { c with lru := c.lru.filter (· ≠ key) }

def popBack {ε : Type} : Exec BoundedCache ε (Option String) := do
  let c ← self
  modify fun c => { c with lru := c.lru.dropLast }
  return c.lru.getLast?

def countEviction {ε : Type} : Exec BoundedCache ε Unit :=
  modify fun c => { c with stats := { c.stats with evictions := c.stats.evictions + 1 } }

/-- The last lines of an insertion. -/
def store {ε : Type} (key : String) (data : List UInt8) (size : Nat) (message : String) :
    Exec BoundedCache ε Unit := do
  modify fun c => { c with lru := key :: c.lru }
  modify fun c => { c with entries := c.entries.insert key { data, size } }
  let used ← expect (checkedAdd (← self).used size) message
  modify fun c => { c with used }
  updateStats

/-- `used.checked_add(size).is_none_or(|used| used > capacity)`. -/
def cannotFit (c : BoundedCache) (size : Nat) : Bool :=
  (checkedAdd c.used size).all (· > c.capacity)

def lruEmpty : CacheError := .general "cache LRU is empty while usage exceeds capacity"

/-- The eviction loop of `insert`. -/
def evictUntilFits (size : Nat) : Exec BoundedCache CacheError Unit :=
  loop (fun c => c.lru.length) (fun () => do
    let c ← self
    let total ← expect (checkedAdd c.used size)
      "BoundedCache accounting overflow while inserting"
    if total > c.capacity then
      match ← popBack with
      | some lruKey =>
        let entry ← takeEntry lruKey "BoundedCache accounting underflow while evicting"
        if entry.isSome then countEviction
        return .again ()
      | none => throw lruEmpty
    else return .leave ()) ()

def insert (key : String) (data : List UInt8) : Exec BoundedCache CacheError Unit := do
  let c ← self
  let size ← okOr (entryLen data) (.general "cache entry length exceeds u64")
  failIf (size > c.capacity) (.tooLarge size c.capacity)
  let old ← takeEntry key "BoundedCache accounting underflow while replacing entry"
  if old.isSome then forget key
  evictUntilFits size
  let c ← self
  failIf (c.cannotFit size) (.general "cache accounting cannot fit entry after eviction")
  store key data size "BoundedCache accounting overflow while inserting"

def remove {ε : Type} (key : String) : Exec BoundedCache ε (Option (List UInt8)) := do
  match ← takeEntry key "BoundedCache accounting underflow while removing entry" with
  | none => return none
  | some entry =>
    forget key
    updateStats
    return some entry.data

def clear {ε : Type} : Exec BoundedCache ε Unit := do
  modify fun c => { c with entries := ∅, lru := [], used := 0 }
  updateStats

/-! ## Budget-charged operations -/

def budgetKey (key : String) : String := "cache:" ++ key

/-- `budget.release(..).unwrap_or_else(|error| panic!(..))`. -/
def releaseCharge {κ ε : Type} (key : String) (message : String) :
    Exec (κ × MemoryBudget) ε Unit := do
  let _ ← orPanic (onSnd (MemoryBudget.release (budgetKey key))) fun error =>
    message ++ ": " ++ error.display

/-- Evict the least recently used entry; `false` if there was none. -/
def evictLruBudgeted {ε : Type} : Exec (BoundedCache × MemoryBudget) ε Bool := do
  match ← onFst popBack with
  | none => return false
  | some lruKey =>
    let entry ← onFst
      (takeEntry lruKey "BoundedCache accounting underflow while budgeted eviction")
    if entry.isSome then
      onFst countEviction
      releaseCharge lruKey "failed to release evicted cache charge"
      onFst updateStats
      return true
    else return false

/-- Drop the old data of a key about to be replaced, then its charge. -/
def replaceBudgeted {ε : Type} (key : String) : Exec (BoundedCache × MemoryBudget) ε Unit := do
  let old ← onFst
    (takeEntry key "BoundedCache accounting underflow while replacing budgeted entry")
  if old.isSome then
    onFst (forget key)
    releaseCharge key "failed to release replaced cache charge"

/-- Evict until the capacity has room. -/
def evictUntilCapacity (size : Nat) : Exec (BoundedCache × MemoryBudget) CacheError Unit :=
  loop (fun s => s.1.lru.length) (fun () => do
    let s ← self
    let total ← expect (checkedAdd s.1.used size)
      "BoundedCache accounting overflow while inserting budgeted entry"
    if total > s.1.capacity then
      let evicted ← evictLruBudgeted
      failIf (!evicted) lruEmpty
      return .again ()
    else return .leave ()) ()

/-- Evict until the budget has room; `false` if nothing is left to evict. -/
def evictUntilBudget (size : Nat) : Exec (BoundedCache × MemoryBudget) CacheError Bool :=
  loop (fun s => s.1.lru.length) (fun () => do
    let fits ← onSnd (MemoryBudget.canAllocate size)
    if fits then return .leave true
    else
      let evicted ← evictLruBudgeted
      return if evicted then .again () else .leave false) ()

/-- Run the builder under the charge just made, and keep or roll back. -/
def buildEntry (key : String) (size : Nat) (build : Outcome CacheError (List UInt8)) :
    Exec (BoundedCache × MemoryBudget) CacheError Bool := do
  match build with
  | .err error =>
    releaseCharge key "failed to roll back cache build charge"
    throw error
  | .panic payload =>
    releaseCharge key "failed to roll back cache build charge during unwind"
    resume (.panic payload)
  | .ok data =>
    match entryLen data with
    | none =>
      releaseCharge key "failed to release oversized cache build charge"
      throw (.general "cache entry length exceeds u64")
    | some actualSize =>
      if actualSize ≠ size then
        releaseCharge key "failed to release mismatched cache charge"
        throw (.general s!"cache builder returned {actualSize} bytes, expected {size}")
      else
        onFst (store key data size "BoundedCache accounting overflow after budgeted insert")
        return true

def insertBudgetedWith (key : String) (size : Nat) (build : Outcome CacheError (List UInt8)) :
    Exec (BoundedCache × MemoryBudget) CacheError Bool := do
  let s ← self
  failIf (size = 0) (.general "budgeted cache entries must have positive size")
  failIf (size > s.1.capacity) (.tooLarge size s.1.capacity)
  replaceBudgeted key
  evictUntilCapacity size
  let s ← self
  failIf (s.1.cannotFit size) (.general "cache accounting cannot fit entry after eviction")
  let room ← evictUntilBudget size
  if room then
    mapErr (fun e => .general ("budget charge failed: " ++ e.display))
      (onSnd (MemoryBudget.allocate (budgetKey key) size))
    buildEntry key size build
  else return false

def insertBudgeted (key : String) (data : List UInt8) :
    Exec (BoundedCache × MemoryBudget) CacheError Bool := do
  let size ← okOr (entryLen data) (.general "cache entry length exceeds u64")
  insertBudgetedWith key size (.ok data)

/-- `reserves` is the answer of `try_reserve_exact` for the returned copy. -/
def removeBudgeted {ε : Type} (key : String) (reserves : Bool) :
    Exec (BoundedCache × MemoryBudget) ε (Option (List UInt8)) := do
  match ← onFst (remove key) with
  | none => return none
  | some data =>
    releaseCharge key "failed to release removed cache charge"
    return if reserves then some data else none

/-- The loop of `clear_budgeted` over the entries taken out of the cache. -/
def releaseAll {κ ε : Type} : List (String × CacheEntry) → Exec (κ × MemoryBudget) ε Unit
  | [] => return ()
  | (key, _) :: rest => do
    releaseCharge key "failed to release cleared cache charge"
    releaseAll rest

def clearBudgeted {ε : Type} : Exec (BoundedCache × MemoryBudget) ε Unit := do
  let entries := (← self).1.entries.toList
  onFst (modify fun c => { c with entries := ∅, lru := [], used := 0 })
  releaseAll entries
  onFst updateStats

end BoundedCache
end Ramforge
