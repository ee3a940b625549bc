/-
Execution profiles: what complete captures have shown of the order of accesses.

An execution that a capture shows only in part is counted and leaves the profile as
it was.
-/
import Ramforge.Rust.Exec
import Ramforge.Rust.Trace
import Ramforge.Rust.Checked
import Ramforge.Runtime.GraphManifest

namespace Ramforge

open Std Rust Rust.Exec

structure AccessPattern where
  firstOrder : Nat
  lastOrder : Nat
  observedConsumers : Nat
deriving DecidableEq, Repr

structure ExecutionProfile where
  version : Nat
  modelId : ModelId
  generation : ModelGeneration
  completeObservations : Nat
  incompleteObservations : Nat
  lastNodeCount : Nat
  lastTensorCount : Nat
  access : ExtTreeMap String AccessPattern compare
  invalidatedReason : Option String

namespace ExecutionProfile

open GraphManifest (fromTrace requested completedIds Lists Uncompleted DistinctIds HasCycle
  LastConsumer)

def executionProfileVersion : Nat := 1

def new (modelId : ModelId) (generation : ModelGeneration) : ExecutionProfile where
  version := executionProfileVersion
  modelId := modelId
  generation := generation
  completeObservations := 0
  incompleteObservations := 0
  lastNodeCount := 0
  lastTensorCount := 0
  access := ∅
  invalidatedReason := none

/-- `self.incomplete_observations += 1`. -/
def countIncomplete (build : Build) : Exec ExecutionProfile Empty Unit := do
  let profile ← self
  let count ← expect (build.add profile.incompleteObservations 1) Build.addOverflow
  modify fun profile => { profile with incompleteObservations := count }

def accessPattern (consumers : List Nat) : AccessPattern where
  firstOrder := consumers.min?.getD 0
  lastOrder := consumers.max?.getD 0
  observedConsumers := consumers.length

def usable (manifest : GraphManifest) (traceComplete : Bool) : Bool :=
  traceComplete && manifest.edgesKnown && manifest.completionProven &&
    decide (manifest.dependencyCycles = 0) && !manifest.intraDecodeSafe

def update (build : Build) (manifest : GraphManifest) (traceComplete : Bool) :
    Exec ExecutionProfile Empty Unit := do
  if manifest.executionId.isNone then countIncomplete build
  else do
    modify fun profile =>
      { profile with
        lastNodeCount := manifest.nodes.length
        lastTensorCount := manifest.tensorToNodes.size }
    if !usable manifest traceComplete then countIncomplete build
    else do
      let profile ← self
      let count ← expect (build.add profile.completeObservations 1) Build.addOverflow
      modify fun profile => { profile with completeObservations := count }
      let access := manifest.tensorToNodes.map fun _ consumers => accessPattern consumers
      modify fun profile => { profile with access, invalidatedReason := none }

/-- The ids in ascending order, each once. -/
def executionIds (events : List TraceEvent) : List Nat :=
  ((events.map TraceEvent.executionId).dedup).insertionSort (· ≤ ·)

def executionEvents (events : List TraceEvent) (id : Nat) : List TraceEvent :=
  events.filter fun event => event.executionId = id

def updateFromTrace (build : Build) (events : List TraceEvent) (traceComplete : Bool) :
    Exec ExecutionProfile Empty Unit := do
  if executionIds events = [] then countIncomplete build
  else
    forM (executionIds events) fun id =>
      update build (fromTrace (executionEvents events id)) traceComplete

def isValidFor (profile : ExecutionProfile) (modelId : ModelId) (generation : ModelGeneration) : Bool :=
  profile.modelId = modelId ∧ profile.generation = generation ∧ 0 < profile.completeObservations ∧
    profile.invalidatedReason = none

def lastOrder (profile : ExecutionProfile) (tensorName : String) : Option Nat :=
  profile.access[tensorName]?.map AccessPattern.lastOrder

/-! ## One update -/

/-- The manifest replaces the profile. -/
def observed (manifest : GraphManifest) (traceComplete : Bool) : Bool :=
  manifest.executionId.isSome && usable manifest traceComplete

variable {build : Build} {manifest : GraphManifest} {traceComplete : Bool}
  {profile : ExecutionProfile}

/-- The counts of the last manifest are kept also where it is not used. -/
def noted (manifest : GraphManifest) (profile : ExecutionProfile) : ExecutionProfile :=
  if manifest.executionId.isNone then profile
  else
    { profile with
      lastNodeCount := manifest.nodes.length
      lastTensorCount := manifest.tensorToNodes.size }

def replaced (manifest : GraphManifest) (count : Nat) (profile : ExecutionProfile) :
    ExecutionProfile :=
  { noted manifest profile with
    completeObservations := count
    access := manifest.tensorToNodes.map fun _ consumers => accessPattern consumers
    invalidatedReason := none }

theorem update_of_observed (h : observed manifest traceComplete = true) :
    update build manifest traceComplete profile =
      match build.add profile.completeObservations 1 with
      | some count => (.ok (), replaced manifest count profile)
      | none => (.panic Build.addOverflow, noted manifest profile) := by
  rw [observed, Bool.and_eq_true, Option.isSome_iff_ne_none] at h
  have hsome : manifest.executionId.isNone = false := by
    rw [Option.isNone_eq_false_iff, Option.isSome_iff_ne_none]
    exact h.1
  simp only [update, hsome, h.2, Bool.not_true, Bool.false_eq_true, if_false, modify_bind_run,
    self_bind_run, expect_bind_run, replaced, noted]
  cases build.add profile.completeObservations 1 <;> rfl

theorem update_of_not_observed (h : observed manifest traceComplete = false) :
    update build manifest traceComplete profile =
      match build.add profile.incompleteObservations 1 with
      | some count =>
        (.ok (), { noted manifest profile with incompleteObservations := count })
      | none => (.panic Build.addOverflow, noted manifest profile) := by
  by_cases hnone : manifest.executionId.isNone = true
  · simp only [update, countIncomplete, hnone, if_true, self_bind_run, expect_bind_run, noted]
    cases build.add profile.incompleteObservations 1 <;> rfl
  · rw [Bool.not_eq_true] at hnone
    have husable : usable manifest traceComplete = false := by
      rw [observed, Bool.and_eq_false_iff] at h
      refine h.resolve_left fun hsome => ?_
      rw [← Option.not_isSome, hsome] at hnone
      cases hnone
    simp only [update, countIncomplete, hnone, husable, Bool.not_false, Bool.false_eq_true,
      if_false, if_true, modify_bind_run, self_bind_run, expect_bind_run, noted]
    cases build.add profile.incompleteObservations 1 <;> rfl

end ExecutionProfile
end Ramforge
