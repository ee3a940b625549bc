/-
The memory budget: a ledger of named byte charges under one total.

`used` and `peakUsed` are counters kept beside the map of charges.  Nothing ties
them to the map except the operations below.
-/
import Ramforge.Rust.Exec
import Ramforge.Rust.Checked
import Ramforge.Rust.MapSum
import Ramforge.Rust.Text

namespace Ramforge

open Rust Rust.Exec

inductive MemoryError where
  | insufficient (name : String) (requested available total used : Nat)
  | alreadyExists (name : String)
  | notFound (name : String)
  | invalidSize (bytes : Nat)
  | accountingUnderflow (name : String) (released used : Nat)
  | accountingOverflow (name : String) (requested used : Nat)
deriving DecidableEq, Repr

/-- The `Display` text, which is also `From<MemoryError> for String`. -/
def MemoryError.display : MemoryError → String
  | .insufficient name requested available total used =>
    s!"insufficient memory: requested {requested} bytes for '" ++ name ++
      s!"', but only {available} bytes available (total {total}, used {used})"
  | .alreadyExists name => "allocation '" ++ name ++ "' already exists"
  | .notFound name => "allocation '" ++ name ++ "' not found"
  | .invalidSize bytes => s!"invalid allocation size: {bytes} (must be > 0)"
  | .accountingUnderflow name released used =>
    s!"memory accounting underflow while releasing {released} bytes for '" ++ name ++
      s!"' (used {used})"
  | .accountingOverflow name requested used =>
    s!"memory accounting overflow while adding {requested} bytes for '" ++ name ++
      s!"' (used {used})"

structure MemoryBudget where
  total : Nat
  allocations : Std.ExtTreeMap String Nat
  used : Nat
  peakUsed : Nat

namespace MemoryBudget

def new (totalBytes : Nat) : Except MemoryError MemoryBudget :=
  if totalBytes = 0 then .error (.invalidSize totalBytes)
  else .ok { total := totalBytes, allocations := ∅, used := 0, peakUsed := 0 }

def get (b : MemoryBudget) (name : String) : Option Nat := b.allocations[name]?

def availableBytes {ε : Type} : Exec MemoryBudget ε Nat := do
  let b ← self
  expect (checkedSub b.total b.used)
    "MemoryBudget invariant violated: used bytes exceed total"

def canAllocate {ε : Type} (bytes : Nat) : Exec MemoryBudget ε Bool := do
  return bytes ≤ (← availableBytes)

def allocate (name : String) (bytes : Nat) : Exec MemoryBudget MemoryError Unit := do
  let b ← self
  failIf (bytes = 0) (.invalidSize bytes)
  failIf (b.allocations.contains name) (.alreadyExists name)
  let fits ← canAllocate bytes
  failIfM (!fits) do return .insufficient name bytes (← availableBytes) b.total b.used
  let newUsed ← okOr (checkedAdd b.used bytes) (.accountingOverflow name bytes b.used)
  modify fun b => { b with allocations := b.allocations.insert name bytes }
  modify fun b => { b with used := newUsed }
  modify fun b => { b with peakUsed := max b.peakUsed b.used }

def reserve (name : String) (bytes : Nat) : Exec MemoryBudget MemoryError Unit :=
  allocate name bytes

def release (name : String) : Exec MemoryBudget MemoryError Nat := do
  let b ← self
  let bytes ← okOr (b.get name) (.notFound name)
  let newUsed ← okOr (checkedSub b.used bytes) (.accountingUnderflow name bytes b.used)
  modify fun b => { b with allocations := b.allocations.erase name }
  modify fun b => { b with used := newUsed }
  return bytes

def resize (name : String) (newBytes : Nat) : Exec MemoryBudget MemoryError Nat := do
  let b ← self
  failIf (newBytes = 0) (.invalidSize newBytes)
  let oldBytes ← okOr (b.get name) (.notFound name)
  let newUsed ←
    if newBytes > oldBytes then do
      let additional := newBytes - oldBytes
      let fits ← canAllocate additional
      failIfM (!fits) do
        return .insufficient name additional (← availableBytes) b.total b.used
      okOr (checkedAdd b.used additional) (.accountingOverflow name additional b.used)
    else
      okOr (checkedSub b.used (oldBytes - newBytes))
        (.accountingUnderflow name (oldBytes - newBytes) b.used)
  -- `get_mut` on the entry, written through.
  let _ ← expect ((← self).get name) "allocation existence checked above"
  modify fun b => { b with allocations := b.allocations.insert name newBytes }
  modify fun b => { b with used := newUsed }
  modify fun b => { b with peakUsed := max b.peakUsed b.used }
  return oldBytes

def commitResize (target reservation : String) (finalBytes : Nat) :
    Exec MemoryBudget MemoryError Unit := do
  let b ← self
  failIf (finalBytes = 0) (.invalidSize finalBytes)
  failIf (target = reservation) (.alreadyExists reservation)
  let oldBytes ← okOr (b.get target) (.notFound target)
  let reservedBytes ← okOr (b.get reservation) (.notFound reservation)
  let baseUsed ← okOr ((checkedSub b.used oldBytes).bind (checkedSub · reservedBytes))
    (.accountingUnderflow target oldBytes b.used)
  let newUsed ← okOr (checkedAdd baseUsed finalBytes)
    (.accountingOverflow target finalBytes baseUsed)
  failIfM (newUsed > b.total) do
    let available ← expect (checkedSub b.total baseUsed)
      "MemoryBudget invariant violated during resize commit"
    return .insufficient target finalBytes available b.total baseUsed
  modify fun b => { b with allocations := b.allocations.erase target }
  modify fun b => { b with allocations := b.allocations.erase reservation }
  modify fun b => { b with allocations := b.allocations.insert target finalBytes }
  modify fun b => { b with used := newUsed }
  modify fun b => { b with peakUsed := max b.peakUsed newUsed }

/-- The key an entry named `name` is renamed to. -/
def renamed (oldPrefix newPrefix name : String) : String :=
  newPrefix ++ Text.dropLen name oldPrefix

/-- The names of the live charges under a prefix, in key order. -/
def namesUnder (b : MemoryBudget) (pre : String) : List String :=
  b.allocations.keys.filter (Text.startsWith · pre)

/-- The `(old_name, new_name)` pairs of a prefix rename. -/
def renames (b : MemoryBudget) (oldPrefix newPrefix : String) : List (String × String) :=
  (b.namesUnder oldPrefix).map fun name => (name, renamed oldPrefix newPrefix name)

/-- The destination check of `rename_prefix`. -/
def checkDestinations : List (String × String) → Exec MemoryBudget MemoryError Unit
  | [] => return ()
  | (_, newName) :: rest => do
    let b ← self
    failIf (b.allocations.contains newName) (.alreadyExists newName)
    checkDestinations rest

/-- The mutating loop of `rename_prefix`. -/
def moveAll : List (String × String) → Exec MemoryBudget MemoryError (List String)
  | [] => return []
  | (oldName, newName) :: rest => do
    let b ← self
    let bytes ← expect (b.get oldName) "rename source validated above"
    modify fun b => { b with allocations := b.allocations.erase oldName }
    modify fun b => { b with allocations := b.allocations.insert newName bytes }
    let newNames ← moveAll rest
    return newName :: newNames

def renamePrefix (oldPrefix newPrefix : String) :
    Exec MemoryBudget MemoryError (List String) := do
  let renames := (← self).renames oldPrefix newPrefix
  failIf renames.isEmpty (.notFound oldPrefix)
  checkDestinations renames
  moveAll renames

/-- Run `f` under a temporary charge.  `κ` is what the closure captures besides
the budget, and `ofMemory` is the `From<MemoryError>` of its error type. -/
def withTemp {κ ε α : Type} (ofMemory : MemoryError → ε) (name : String) (bytes : Nat)
    (f : Exec (κ × MemoryBudget) ε α) : Exec (κ × MemoryBudget) ε α := do
  if bytes = 0 then f
  else
    mapErr ofMemory (onSnd (allocate name bytes))
    let result ← catchUnwind f
    let releaseResult ← attempt (onSnd (release name))
    match result, releaseResult with
    | .ok value, .ok _ => return value
    | .err error, .ok _ => throw error
    | .ok _, .error error => throw (ofMemory error)
    | .err _, .error error => throw (ofMemory error)
    | .panic payload, .ok _ => panic payload
    | .panic _, .error error =>
      panic ("temporary allocation '" ++ name ++ "' failed to release during unwind: " ++
        error.display)

end MemoryBudget
end Ramforge
