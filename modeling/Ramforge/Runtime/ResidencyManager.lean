/-
The residency manager of one model: its lifecycle, its plans and their application.

The manager mutates nothing itself.  `apply_last_plan` hands native indices to a
closure of the caller, which may return, fail or panic.
-/
import Ramforge.Runtime.ResidencyPlanner
import Ramforge.Runtime.ResourceLifetime

namespace Ramforge

open Std Rust Rust.Exec

/-! ## Lifecycle -/

inductive ResidencyState where
  | modelReady
  | preparingOperation
  | executing
  | synchronizing
  | safeBoundary
  | planning
  | applying
  | failed
  | shuttingDown
deriving DecidableEq, Repr

structure LifecycleError where
  fromState : ResidencyState
  toState : ResidencyState
deriving DecidableEq, Repr

structure ResidencyLifecycle where
  state : ResidencyState
deriving DecidableEq, Repr

namespace ResidencyLifecycle

def default : ResidencyLifecycle := { state := .modelReady }

def legal : ResidencyState → ResidencyState → Bool
  | .modelReady, .preparingOperation => true
  | .modelReady, .planning => true
  | .preparingOperation, .executing => true
  | .preparingOperation, .planning => true
  | .preparingOperation, .safeBoundary => true
  | .executing, .synchronizing => true
  | .synchronizing, .safeBoundary => true
  | .safeBoundary, .executing => true
  | .safeBoundary, .planning => true
  | .safeBoundary, .preparingOperation => true
  | .planning, .applying => true
  | .planning, .safeBoundary => true
  | .applying, .safeBoundary => true
  | .failed, .safeBoundary => true
  | .modelReady, .shuttingDown => true
  | .preparingOperation, .shuttingDown => true
  | .executing, .shuttingDown => true
  | .synchronizing, .shuttingDown => true
  | .safeBoundary, .shuttingDown => true
  | .planning, .shuttingDown => true
  | .applying, .shuttingDown => true
  | .failed, .shuttingDown => true
  | _, _ => false

def transition (target : ResidencyState) : Exec ResidencyLifecycle LifecycleError Unit := do
  let l ← self
  failIf (¬legal l.state target) { fromState := l.state, toState := target }
  modify fun l => { l with state := target }

def fail (l : ResidencyLifecycle) : ResidencyLifecycle :=
  if l.state ≠ .shuttingDown then { l with state := .failed } else l

end ResidencyLifecycle

/-! ## The manager -/

/-- What the native release call reports. -/
structure PageReleaseResult where
  releasedBytes : Nat
  skippedSharedBytes : Nat
  nonFileBackedTensors : Nat
  selectedTensors : Nat
deriving DecidableEq, Repr

structure ApplicationReport where
  attemptedKeys : List ResourceKey
  nativeIndices : List Int
  nativeResult : Option PageReleaseResult
  error : Option String
  /-- Nanoseconds. -/
  elapsed : Nat
deriving DecidableEq, Repr

inductive ManagerError where
  | policy (error : PolicyError)
  | inventory (error : InventoryError)
  | lifecycle (error : LifecycleError)
  | stalePlan
  | noPlan
  | observeOnly
  | synchronizationMissing
  | nativeContract (error : String)
  | release (error : String)
deriving DecidableEq, Repr

structure ResidencyManager where
  modelId : ModelId
  inventory : ResourceInventory
  policy : ResidencyPolicy
  hardLimitBytes : Option Nat
  lifecycle : ResidencyLifecycle
  attempted : ExtTreeSet ResourceKey
  lastPlan : Option ResidencyPlan
  application : Option ApplicationReport
  nativeModelInstance : Option Nat
  nativeContractVersion : Option Nat
  nativeQuiescent : Bool
  lastNativeGeneration : Option Nat
  lifetimes : ExtTreeMap ResourceKey ResourceLifetimeTracker

namespace ResidencyManager

def trackers (inventory : ResourceInventory) : ExtTreeMap ResourceKey ResourceLifetimeTracker :=
  inventory.resources.foldl (fun trackers resource =>
    trackers.insert resource.key ResourceLifetimeTracker.default) ∅

def new (modelId : ModelId) (inventory : ResourceInventory) (policy : ResidencyPolicy)
    (hardLimitBytes : Option Nat) : Except ManagerError ResidencyManager :=
  match policy.validate with
  | .error error => .error (.policy error)
  | .ok policy =>
    .ok
      { modelId := modelId
        inventory := inventory
        policy := policy
        hardLimitBytes := hardLimitBytes
        lifecycle := ResidencyLifecycle.default
        attempted := ∅
        lastPlan := none
        application := none
        nativeModelInstance := none
        nativeContractVersion := none
        nativeQuiescent := false
        lastNativeGeneration := none
        lifetimes := trackers inventory }

abbrev Method (α : Type) : Type := Exec ResidencyManager ManagerError α

/-- `self.lifecycle.transition(..).map_err(ManagerError::Lifecycle)`. -/
def transition (target : ResidencyState) : Method Unit := fun m =>
  ((ResidencyLifecycle.transition target m.lifecycle).1.mapErr ManagerError.lifecycle,
    { m with lifecycle := (ResidencyLifecycle.transition target m.lifecycle).2 })

def fail : Method Unit := modify fun m => { m with lifecycle := m.lifecycle.fail }

def beginOperation : Method Unit := transition .preparingOperation

def beginDecode : Method Unit := transition .executing

def finishDecode : Method Unit := do
  transition .synchronizing
  transition .safeBoundary

def recover : Method Unit := transition .safeBoundary

def bindNativeModel (instanceId contractVersion : Nat) : Method Unit := do
  failIf (instanceId = 0) (.nativeContract "native model instance id is zero")
  failIf (contractVersion ≠ 1)
    (.nativeContract s!"unsupported contract version {contractVersion}; expected 1")
  let m ← self
  failIf (m.nativeModelInstance.any (· ≠ instanceId)) .stalePlan
  modify fun m =>
    { m with
      nativeModelInstance := some instanceId
      nativeContractVersion := some contractVersion
      inventory :=
        { m.inventory with
          nativeModelInstance := some instanceId
          nativeContractVersion := some contractVersion }
      lifetimes := m.lifetimes.map fun _ l => l.applied .modelBound "native model bound" }

/-- The flag that an observation leaves. -/
def quiescentFlag (quiescent : Bool) (activeContexts inflightContexts : Nat) : Bool :=
  quiescent ∧ inflightContexts = 0 ∧ activeContexts = 0

def observeNativeLifetime (quiescent : Bool) (activeContexts inflightContexts : Nat)
    (executionGeneration : Option Nat) : Method Unit :=
  modify fun m =>
    let flag := quiescentFlag quiescent activeContexts inflightContexts
    { m with
      nativeQuiescent := flag
      lastNativeGeneration :=
        if flag ∧ activeContexts = 0 then executionGeneration.or m.lastNativeGeneration
        else m.lastNativeGeneration }

/-- The modes under which a selected resource is marked for release. -/
def mutating : ResidencyPolicyMode → Bool
  | .conservative => true
  | .memoryBound => true
  | .reuseAware => true
  | .active => true
  | _ => false

def onTrackers (keys : List ResourceKey) (f : ResourceLifetimeTracker → ResourceLifetimeTracker)
    (lifetimes : ExtTreeMap ResourceKey ResourceLifetimeTracker) :
    ExtTreeMap ResourceKey ResourceLifetimeTracker :=
  keys.foldl (fun lifetimes key => lifetimes.modify key f) lifetimes

def markSelected (mode : ResidencyPolicyMode) (l : ResourceLifetimeTracker) :
    ResourceLifetimeTracker :=
  let l := l.applied .operationBoundarySynchronized "operation boundary observed quiescent"
  if mutating mode then l.applied .releaseSelected "selected by plan" else l

def plannerOf (m : ResidencyManager) : Planner :=
  let planner := Planner.new m.inventory m.attempted
  if m.nativeModelInstance.isSome then
    planner.withNativeGuard m.nativeContractVersion m.nativeQuiescent
  else planner

def planWithProfile (build : Build) (observedBytes : Option Nat) (context : OperationContext)
    (profile : Option ExecutionProfile) : Method ResidencyPlan := do
  transition .planning
  let m ← self
  let profile := profile.filter fun profile => profile.isValidFor m.modelId m.inventory.generation
  let plan ← expect
    (m.plannerOf.planWithProfile build m.policy observedBytes context profile) Build.addOverflow
  modify fun m =>
    if m.nativeModelInstance.isSome ∧ m.nativeQuiescent then
      { m with lifetimes := onTrackers plan.selected (markSelected m.policy.mode) m.lifetimes }
    else m
  transition .safeBoundary
  modify fun m => { m with lastPlan := some plan }
  pure plan

/-- The indices for `keys`; a key that the inventory does not back is stale. -/
def nativeIndices : List ResourceKey → Method (List Int)
  | [] => pure []
  | key :: rest => do
    let m ← self
    match m.inventory.get key with
    | none => do
      fail
      throw .stalePlan
    | some resource =>
      if ¬resource.fileBacked ∨ resource.pageBytes = 0 then do
        fail
        throw .stalePlan
      else do
        let indices ← nativeIndices rest
        pure (resource.key.tensorIndex :: indices)

/-- A plan on its way to the closure. -/
structure Release where
  plan : ResidencyPlan
  indices : List Int

/-- `apply_last_plan` up to the call of its closure.  Without a release the closure
is not called, and nothing was selected. -/
def selectRelease : Method (Option Release) := do
  let m ← self
  failIf (m.policy.mode = .observe) .observeOnly
  failIf (m.policy.mode = .off) .noPlan
  failIf (m.nativeModelInstance.isSome ∧
      (m.nativeContractVersion ≠ some 1 ∨ ¬m.nativeQuiescent)) .synchronizationMissing
  let plan ← okOr m.lastPlan .noPlan
  if plan.selected = [] then pure none
  else do
    failIf (m.lifecycle.state ≠ .safeBoundary)
      (.lifecycle { fromState := m.lifecycle.state, toState := .applying })
    let indices ← nativeIndices plan.selected
    transition .planning
    transition .applying
    pure (some { plan := plan, indices := indices })

def markReleased (l : ResourceLifetimeTracker) : ResourceLifetimeTracker :=
  ((l.applied .releaseSubmitted "native call").applied .nativeAccepted "native result").applied
    .reconciliationComplete "report captured"

/-- `apply_last_plan` from the answer of its closure on. -/
def finishRelease (release : Release) (result : Except String PageReleaseResult) (elapsed : Nat) :
    Method ApplicationReport := do
  let report ← match result with
    | .ok nativeResult => do
      modify fun m =>
        { m with
          attempted := release.plan.selected.foldl (fun attempted key => attempted.insert key) m.attempted
          lifetimes := onTrackers release.plan.selected markReleased m.lifetimes }
      transition .safeBoundary
      pure
        { attemptedKeys := release.plan.selected
          nativeIndices := release.indices
          nativeResult := some nativeResult
          error := none
          elapsed := elapsed : ApplicationReport }
    | .error error => do
      modify fun m =>
        { m with
          lifetimes := onTrackers release.plan.selected
            (fun l => l.applied .nativeFailure "native release error") m.lifetimes }
      fail
      pure
        { attemptedKeys := release.plan.selected
          nativeIndices := release.indices
          nativeResult := none
          error := some error
          elapsed := elapsed }
  modify fun m => { m with application := some report }
  match report.error with
  | some error => throw (.release error)
  | none => pure report

/-- `elapsed` is what the clock reads after the closure. -/
def applyLastPlan (release : List Int → Outcome String PageReleaseResult) (elapsed : Nat) :
    Method ApplicationReport := do
  match ← selectRelease with
  | none =>
    pure
      { attemptedKeys := []
        nativeIndices := []
        nativeResult := none
        error := none
        elapsed := 0 }
  | some selection => do
    let result ← attempt (resume (release selection.indices))
    finishRelease selection result elapsed

def refresh (inventory : ResourceInventory) : Method Unit := do
  let m ← self
  failIf (inventory.modelId ≠ m.modelId) .stalePlan
  failIf (m.lifecycle.state ≠ .safeBoundary ∧ m.lifecycle.state ≠ .modelReady)
    (.lifecycle { fromState := m.lifecycle.state, toState := .planning })
  let lifetimes := trackers inventory
  let lifetimes :=
    if m.nativeModelInstance.isSome then
      lifetimes.map fun _ l => l.applied .modelBound "native model rebound"
    else lifetimes
  modify fun m =>
    { m with
      lifetimes := lifetimes
      inventory := inventory
      attempted := ∅
      lastPlan := none
      application := none }

end ResidencyManager
end Ramforge
