/-
The lifetime of one model resource, as a state machine on recorded events.

The completion of a graph node is not on the path to `releaseEligible`: only an
operation boundary observed after native synchronization leads there.
-/
import Ramforge.Rust.Exec

namespace Ramforge

open Rust Rust.Exec

inductive ResourceLifetimeState where
  | discovered
  | owned
  | referenced
  | executionSubmitted
  | executionCompleted
  | finalUseProven
  | releaseEligible
  | releaseRequested
  | releaseAccepted
  | reconciled
  | sharedOrReused
  | invalidated
  | releaseFailed
  | unknown
deriving DecidableEq, Repr

inductive LifetimeEvent where
  | modelBound
  | contextReferenced
  | executionSubmitted
  | executionCompleted
  | operationBoundarySynchronized
  | modelDestroyed
  | releaseSelected
  | releaseSubmitted
  | nativeAccepted
  | reconciliationComplete
  | sharedAccessObserved
  | generationInvalidated
  | nativeFailure
deriving DecidableEq, Repr

structure InvalidLifetimeTransition where
  fromState : ResourceLifetimeState
  event : LifetimeEvent
deriving DecidableEq, Repr

/-- `resource_lifetime::ResourceLifetime`, which the manager imports under this name. -/
structure ResourceLifetimeTracker where
  state : ResourceLifetimeState
  transitions : Nat
  evidence : String
deriving DecidableEq, Repr

namespace ResourceLifetimeTracker

def default : ResourceLifetimeTracker :=
  { state := .discovered, transitions := 0, evidence := "inventory discovery" }

/-- The legal transitions. -/
def next : ResourceLifetimeState → LifetimeEvent → Option ResourceLifetimeState
  | .discovered, .modelBound => some .owned
  | .owned, .contextReferenced => some .referenced
  | .owned, .operationBoundarySynchronized => some .releaseEligible
  | .referenced, .executionSubmitted => some .executionSubmitted
  | .executionSubmitted, .executionCompleted => some .executionCompleted
  | .executionCompleted, .operationBoundarySynchronized => some .releaseEligible
  | .executionCompleted, .sharedAccessObserved => some .sharedOrReused
  | .releaseEligible, .releaseSelected => some .releaseRequested
  | .releaseRequested, .releaseSubmitted => some .releaseRequested
  | .releaseRequested, .nativeAccepted => some .releaseAccepted
  | .releaseRequested, .nativeFailure => some .releaseFailed
  | .releaseAccepted, .reconciliationComplete => some .reconciled
  | _, .generationInvalidated => some .invalidated
  | .executionCompleted, .modelDestroyed => some .finalUseProven
  | _, _ => none

def apply (event : LifetimeEvent) (evidence : String) :
    Exec ResourceLifetimeTracker InvalidLifetimeTransition ResourceLifetimeState := do
  let l ← self
  match next l.state event with
  | none => throw { fromState := l.state, event := event }
  | some state =>
    -- `saturating_add` on a `u64` counter
    set ({ state := state, transitions := min (l.transitions + 1) (2 ^ 64 - 1),
           evidence := evidence } : ResourceLifetimeTracker)
    pure state

/-- `let _ = lifetime.apply(..)`: an illegal transition is dropped. -/
def applied (event : LifetimeEvent) (evidence : String) (l : ResourceLifetimeTracker) :
    ResourceLifetimeTracker := (apply event evidence l).2

end ResourceLifetimeTracker
end Ramforge
