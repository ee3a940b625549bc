/-
The planner: which resources a policy releases.

A plan has one decision for each resource.  The resources that no rule retains
are sorted, and are selected until the estimate covers the excess over the target.
-/
import Ramforge.Runtime.ExecutionProfile
import Std.Data.ExtTreeSet.Lemmas

namespace Ramforge

open Std Rust

inductive ResidencyPolicyMode where
  | off
  | observe
  | conservative
  | memoryBound
  | reuseAware
  | active
deriving DecidableEq, Repr

structure ResidencyPolicy where
  mode : ResidencyPolicyMode
  targetBytes : Option Nat
  safetyReserveBytes : Nat
deriving DecidableEq, Repr

inductive PolicyError where
  | reserveExceedsTarget (target reserve : Nat)
  | activeWithoutTarget
deriving DecidableEq, Repr

def PolicyError.display : PolicyError → String
  | .reserveExceedsTarget target reserve => s!"residency reserve {reserve} exceeds target {target}"
  | .activeWithoutTarget => "active residency policy requires a soft target"

def ResidencyPolicy.validate (policy : ResidencyPolicy) : Except PolicyError ResidencyPolicy := do
  match policy.targetBytes with
  | some target =>
    if target < policy.safetyReserveBytes then
      throw (.reserveExceedsTarget target policy.safetyReserveBytes)
  | none => pure ()
  if (policy.mode = .active ∨ policy.mode = .memoryBound) ∧ policy.targetBytes = none then
    throw .activeWithoutTarget
  pure policy

structure OperationContext where
  required : ExtTreeSet ResourceKey
  pinned : ExtTreeSet ResourceKey

inductive DecisionAction where
  | release
  | retain
deriving DecidableEq, Repr

inductive DecisionReason where
  | policyOff
  | requiredByOperation
  | pinned
  | anonymousOrRepacked
  | emptyPageRange
  | alreadyAttempted
  | allPagesShared
  | sharedPageConservative
  | lifetimeUnsupported
  | lifetimeUnknown
  | synchronizationMissing
  | budgetAlreadyMet
  | selectedEligible
  | eligibleButNotNeeded
  | insufficientReclaimableCapacity
deriving DecidableEq, Repr

structure ResourceDecision where
  key : ResourceKey
  name : String
  layer : LayerIdentity
  action : DecisionAction
  reason : DecisionReason
  pageBytes : Nat
  sharedPageBytes : Nat
  estimatedReclaimBytes : Nat
deriving DecidableEq, Repr

inductive MeasurementSource where
  | measured
  | estimatedFromMapping
  | unknown
deriving DecidableEq, Repr

structure ResidencyPlan where
  mode : ResidencyPolicyMode
  targetBytes : Option Nat
  safetyReserveBytes : Nat
  observedBytes : Option Nat
  measurementSource : MeasurementSource
  decisions : List ResourceDecision
  selected : List ResourceKey
  profileUsed : Bool
  estimatedReclaimBytes : Nat
  estimatedAfterBytes : Option Nat
  estimatedBudgetMet : Bool
  notes : List String
deriving DecidableEq, Repr

/-! ## Planning -/

structure Planner where
  inventory : ResourceInventory
  attempted : ExtTreeSet ResourceKey
  nativeContractVersion : Option Nat
  nativeQuiescent : Bool
  requireNativeGuard : Bool

namespace Planner

def new (inventory : ResourceInventory) (attempted : ExtTreeSet ResourceKey) : Planner where
  inventory := inventory
  attempted := attempted
  nativeContractVersion := none
  nativeQuiescent := false
  requireNativeGuard := false

def withNativeGuard (planner : Planner) (contractVersion : Option Nat) (quiescent : Bool) : Planner :=
  { planner with
    nativeContractVersion := contractVersion
    nativeQuiescent := quiescent
    requireNativeGuard := true }

/-- The rules of the loop over the resources, in their order.  A resource that no
rule retains is a candidate. -/
def retainReason (planner : Planner) (policy : ResidencyPolicy) (context : OperationContext)
    (need : Nat) (resource : TensorResource) : Option DecisionReason :=
  if policy.mode = .off then some .policyOff
  else if resource.key ∈ context.required then some .requiredByOperation
  else if resource.key ∈ context.pinned then some .pinned
  else if ¬resource.fileBacked then some .anonymousOrRepacked
  else if resource.lifetime = .unsupported then some .lifetimeUnsupported
  else if resource.lifetime = .unknown then some .lifetimeUnknown
  else if planner.requireNativeGuard ∧
      (planner.nativeContractVersion ≠ some 1 ∨ ¬planner.nativeQuiescent) then
    some (if planner.nativeContractVersion ≠ some 1 then .lifetimeUnknown else .synchronizationMissing)
  else if resource.pageBytes = 0 then some .emptyPageRange
  else if resource.key ∈ planner.attempted then some .alreadyAttempted
  else if resource.uniqueReclaimableBytes = 0 then some .allPagesShared
  else if policy.mode = .conservative ∧ 0 < resource.sharedPageBytes then some .sharedPageConservative
  else if need = 0 then some .budgetAlreadyMet
  else none

def decisionOf (resource : TensorResource) (reason : DecisionReason) : ResourceDecision where
  key := resource.key
  name := resource.name
  layer := resource.layer
  action := .retain
  reason := reason
  pageBytes := resource.pageBytes
  sharedPageBytes := resource.sharedPageBytes
  estimatedReclaimBytes := resource.uniqueReclaimableBytes

/-- The comparison of `sort_by`. -/
def candidateOrder (profile : Option ExecutionProfile) (profileUsed : Bool)
    (a b : ResourceDecision) : Ordering :=
  let reuse := fun d : ResourceDecision =>
    (profile.bind fun profile => profile.lastOrder d.name).getD 0
  (compare (decide (0 < a.sharedPageBytes)) (decide (0 < b.sharedPageBytes))).then <|
  (if profileUsed then compare (reuse a) (reuse b) else .eq).then <|
  (compare b.estimatedReclaimBytes a.estimatedReclaimBytes).then <|
  (compare a.layer.sortKey.1 b.layer.sortKey.1).then <|
  (compare a.layer.sortKey.2 b.layer.sortKey.2).then <|
  compare a.key.tensorIndex b.key.tensorIndex

def candidateLe (profile : Option ExecutionProfile) (profileUsed : Bool)
    (a b : ResourceDecision) : Prop :=
  (candidateOrder profile profileUsed a b).isLE = true

instance (profile : Option ExecutionProfile) (profileUsed : Bool) :
    DecidableRel (candidateLe profile profileUsed) := fun a b =>
  inferInstanceAs (Decidable ((candidateOrder profile profileUsed a b).isLE = true))

/-- The loop over the sorted candidates: the decisions, the keys selected and the
bytes reclaimed.  `none` where the sum of a debug build panics. -/
def select (build : Build) (need : Nat) :
    List ResourceDecision → Nat → Option (List ResourceDecision × List ResourceKey × Nat)
  | [], reclaim => some ([], [], reclaim)
  | candidate :: rest, reclaim =>
    if 0 < need ∧ reclaim < need then do
      let reclaim ← build.add reclaim candidate.estimatedReclaimBytes
      let (decisions, selected, reclaim) ← select build need rest reclaim
      some ({ candidate with action := .release, reason := .selectedEligible } :: decisions,
        candidate.key :: selected, reclaim)
    else do
      let (decisions, selected, reclaim) ← select build need rest reclaim
      some ({ candidate with reason := .eligibleButNotNeeded } :: decisions, selected, reclaim)

def planNotes (mode : ResidencyPolicyMode) (profileUsed : Bool) (source : MeasurementSource)
    (budgetMet noneSelected : Bool) : List String :=
  (if mode = .off then ["residency policy is off"] else []) ++
  (if mode = .reuseAware ∧ ¬profileUsed then
    ["reuse-aware policy has no valid profile; using deterministic memory-bound ordering"]
  else []) ++
  (if source = .estimatedFromMapping then
    ["current residency is estimated from mapped tensor pages"]
  else []) ++
  (if ¬budgetMet ∧ noneSelected then ["insufficient eligible reclaimable capacity"]
  else if ¬budgetMet then ["selected candidates do not fully meet the soft target"]
  else [])

/-- `need`: the excess of the current bytes over the target less the reserve. -/
def excess (inventory : ResourceInventory) (policy : ResidencyPolicy) (observedBytes : Option Nat) :
    Nat :=
  match policy.targetBytes with
  | some target =>
    saturatingSub (observedBytes.getD inventory.summary.pageBytes)
      (saturatingSub target policy.safetyReserveBytes)
  | none => 0

def candidates (planner : Planner) (policy : ResidencyPolicy) (context : OperationContext)
    (need : Nat) : List ResourceDecision :=
  planner.inventory.resources.filterMap fun resource =>
    if planner.retainReason policy context need resource = none then
      some (decisionOf resource .eligibleButNotNeeded)
    else none

def planWithProfile (build : Build) (planner : Planner) (policy : ResidencyPolicy)
    (observedBytes : Option Nat) (context : OperationContext) (profile : Option ExecutionProfile) :
    Option ResidencyPlan := do
  let effectiveTarget := policy.targetBytes.map (saturatingSub · policy.safetyReserveBytes)
  let current := observedBytes.getD planner.inventory.summary.pageBytes
  let source :=
    if observedBytes.isSome then MeasurementSource.measured else .estimatedFromMapping
  let need := excess planner.inventory policy observedBytes
  let retained := planner.inventory.resources.filterMap fun resource =>
    (planner.retainReason policy context need resource).map (decisionOf resource)
  let profileUsed : Bool := policy.mode = .reuseAware ∧ profile.isSome
  let sorted := (planner.candidates policy context need).insertionSort
    (candidateLe profile profileUsed)
  let (decisions, selected, reclaim) ← select build need sorted 0
  let estimatedAfter := saturatingSub current reclaim
  let budgetMet := effectiveTarget.all (estimatedAfter ≤ ·)
  pure
    { mode := policy.mode
      targetBytes := policy.targetBytes
      safetyReserveBytes := policy.safetyReserveBytes
      observedBytes := some current
      measurementSource := source
      decisions := retained ++ decisions
      selected := selected
      profileUsed := profileUsed
      estimatedReclaimBytes := reclaim
      estimatedAfterBytes := some estimatedAfter
      estimatedBudgetMet := budgetMet
      notes := planNotes policy.mode profileUsed source budgetMet selected.isEmpty }

/-! ## What a plan selects -/

variable {build : Build} {planner : Planner} {policy : ResidencyPolicy} {context : OperationContext}
  {need reclaim : Nat} {resource : TensorResource} {observedBytes : Option Nat}
  {profile : Option ExecutionProfile} {plan : ResidencyPlan}

theorem ite_some_eq_none {α : Type} {c : Prop} [Decidable c] {a : α} {o : Option α} :
    (if c then some a else o) = none ↔ ¬c ∧ o = none := by
  by_cases h : c <;> simp [h]

/-- No rule retains the resource. -/
structure Eligible (planner : Planner) (policy : ResidencyPolicy) (context : OperationContext)
    (resource : TensorResource) : Prop where
  mode : policy.mode ≠ .off
  not_required : resource.key ∉ context.required
  not_pinned : resource.key ∉ context.pinned
  fileBacked : resource.fileBacked = true
  releasable : resource.lifetime = .pageReleaseSafeAfterOperation
  guarded : planner.requireNativeGuard = true →
    planner.nativeContractVersion = some 1 ∧ planner.nativeQuiescent = true
  pages : resource.pageBytes ≠ 0
  not_attempted : resource.key ∉ planner.attempted
  unshared : resource.uniqueReclaimableBytes ≠ 0

theorem eligible_of_candidate (h : planner.retainReason policy context need resource = none) :
    Eligible planner policy context resource := by
  rw [retainReason] at h
  simp only [ite_some_eq_none, not_and, not_or, not_not] at h
  obtain ⟨hmode, hrequired, hpinned, hbacked, hunsupported, hunknown, hguard, hpages, hattempted,
    hunshared, -, -⟩ := h
  refine ⟨hmode, hrequired, hpinned, hbacked, ?_, hguard, hpages, hattempted, hunshared⟩
  cases hlifetime : resource.lifetime with
  | pageReleaseSafeAfterOperation => rfl
  | unsupported => exact absurd hlifetime hunsupported
  | unknown => exact absurd hlifetime hunknown

/-- The loop selects some of the candidates, in their order. -/
theorem select_sublist {l : List ResourceDecision} {decisions : List ResourceDecision}
    {selected : List ResourceKey} {total : Nat}
    (h : select build need l reclaim = some (decisions, selected, total)) :
    selected.Sublist (l.map ResourceDecision.key) := by
  induction l generalizing reclaim decisions selected total with
  | nil =>
    cases h
    exact List.Sublist.refl []
  | cons candidate rest ih =>
    rw [select] at h
    split at h
    · obtain ⟨reclaim', -, h⟩ := Option.bind_eq_some_iff.mp h
      obtain ⟨⟨decisions', selected', total'⟩, hrest, h⟩ := Option.bind_eq_some_iff.mp h
      cases h
      exact (ih hrest).cons_cons _
    · obtain ⟨⟨decisions', selected', total'⟩, hrest, h⟩ := Option.bind_eq_some_iff.mp h
      cases h
      exact (ih hrest).cons _

theorem eligible_of_selected {key : ResourceKey}
    (h : planWithProfile build planner policy observedBytes context profile = some plan)
    (hkey : key ∈ plan.selected) :
    ∃ resource ∈ planner.inventory.resources, resource.key = key ∧
      Eligible planner policy context resource := by
  rw [planWithProfile] at h
  obtain ⟨⟨decisions, selected, reclaim⟩, hselect, h⟩ := Option.bind_eq_some_iff.mp h
  cases h
  obtain ⟨candidate, hmem, rfl⟩ := List.mem_map.mp ((select_sublist hselect).subset hkey)
  rw [List.mem_insertionSort] at hmem
  obtain ⟨resource, hresource, hcandidate⟩ := List.mem_filterMap.mp hmem
  split at hcandidate
  · rename_i hretained
    cases hcandidate
    exact ⟨resource, hresource, rfl, eligible_of_candidate hretained⟩
  · cases hcandidate

end Planner
end Ramforge
