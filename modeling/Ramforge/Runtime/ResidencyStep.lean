/-
What each call of a residency manager changes, and when a release is handed over.
-/
import Ramforge.Runtime.ResidencyManager
import Ramforge.Rust.Trace

namespace Ramforge
namespace ResidencyManager

open Std Rust Rust.Exec

variable {m m' : ResidencyManager} {target : ResidencyState}

/-! ## Calls that move the lifecycle only -/

def LifecycleOnly (m m' : ResidencyManager) : Prop := ∃ l, m' = { m with lifecycle := l }

theorem LifecycleOnly.refl (m : ResidencyManager) : LifecycleOnly m m := ⟨m.lifecycle, rfl⟩

theorem transition_of_legal (h : ResidencyLifecycle.legal m.lifecycle.state target = true) :
    transition target m = (.ok (), { m with lifecycle := { state := target } }) := by
  have hrun : ResidencyLifecycle.transition target m.lifecycle = (.ok (), { state := target }) := by
    rw [ResidencyLifecycle.transition, self_bind_run, failIf_bind_run, if_neg (by simp [h])]
    rfl
  rw [transition, hrun]
  rfl

theorem transition_of_illegal (h : ResidencyLifecycle.legal m.lifecycle.state target = false) :
    transition target m = (.err (.lifecycle ⟨m.lifecycle.state, target⟩), m) := by
  have hrun : ResidencyLifecycle.transition target m.lifecycle =
      (.err ⟨m.lifecycle.state, target⟩, m.lifecycle) := by
    rw [ResidencyLifecycle.transition, self_bind_run, failIf_bind_run, if_pos (by simp [h])]
  rw [transition, hrun]
  rfl

theorem transition_keeps (target : ResidencyState) :
    Keeps (LifecycleOnly m) (transition target) := by
  rintro s ⟨l, rfl⟩
  exact ⟨_, rfl⟩

theorem fail_keeps : Keeps (LifecycleOnly m) fail := by
  rintro s ⟨l, rfl⟩
  exact ⟨_, rfl⟩

theorem finishDecode_keeps : Keeps (LifecycleOnly m) finishDecode :=
  (transition_keeps _).bind fun _ => transition_keeps _

/-! ## Handing over a release -/

/-- What `nativeIndices` finds for the keys it accepts. -/
def Backed (m : ResidencyManager) (key : ResourceKey) (index : Int) : Prop :=
  ∃ resource, m.inventory.get key = some resource ∧ resource.key.tensorIndex = index

theorem nativeIndices_cases (keys : List ResourceKey) (m : ResidencyManager) :
    (∃ indices, nativeIndices keys m = (.ok indices, m) ∧ List.Forall₂ (Backed m) keys indices) ∨
      nativeIndices keys m = (.err .stalePlan, { m with lifecycle := m.lifecycle.fail }) := by
  induction keys with
  | nil => exact .inl ⟨[], rfl, .nil⟩
  | cons key rest ih =>
    rw [nativeIndices, self_bind_run]
    cases hget : m.inventory.get key with
    | none => exact .inr rfl
    | some resource =>
      by_cases hbad : ¬resource.fileBacked ∨ resource.pageBytes = 0
      · simp only [if_pos hbad]
        exact .inr rfl
      · simp only [if_neg hbad]
        rcases ih with ⟨indices, hrun, hbacked⟩ | hrun
        · refine .inl ⟨resource.key.tensorIndex :: indices, ?_, .cons ⟨resource, hget, rfl⟩ hbacked⟩
          rw [bind_of_ok hrun, pure_run]
        · exact .inr (bind_of_err hrun)

theorem selectRelease_keeps : Keeps (LifecycleOnly m) selectRelease := by
  rintro s ⟨l, rfl⟩
  rw [selectRelease, self_bind_run, failIf_bind_run, failIf_bind_run, failIf_bind_run,
    okOr_bind_run]
  split
  · exact ⟨l, rfl⟩
  split
  · exact ⟨l, rfl⟩
  split
  · exact ⟨l, rfl⟩
  split
  · rename_i plan hplan
    split
    · exact ⟨l, rfl⟩
    rw [failIf_bind_run]
    split
    · exact ⟨l, rfl⟩
    rcases nativeIndices_cases plan.selected { m with lifecycle := l } with ⟨indices, hrun, -⟩ | hrun
    · rw [bind_of_ok hrun]
      exact (transition_keeps .planning).bind (fun _ => (transition_keeps .applying).bind
        fun _ => Keeps.pure _) _ ⟨l, rfl⟩
    · rw [bind_of_err hrun]
      exact ⟨_, rfl⟩
  · exact ⟨l, rfl⟩

/-- The call of the closure by `apply_last_plan`: the state it is made in, and what it
is given. -/
def handsOver (m : ResidencyManager) : Option (ResidencyManager × Release) :=
  match selectRelease m with
  | (.ok (some release), m') => some (m', release)
  | _ => none

/-- The guards passed by a call that reaches its closure, and the state it calls it in. -/
structure HandsOver (m m' : ResidencyManager) (release : Release) : Prop where
  mode : mutating m.policy.mode = true
  guarded : m.nativeModelInstance.isSome = true →
    m.nativeContractVersion = some 1 ∧ m.nativeQuiescent = true
  plan : m.lastPlan = some release.plan
  some_selected : release.plan.selected ≠ []
  boundary : m.lifecycle.state = .safeBoundary
  backed : List.Forall₂ (Backed m) release.plan.selected release.indices
  state : m' = { m with lifecycle := { state := .applying } }

theorem mutating_of_ne {mode : ResidencyPolicyMode} (hobserve : mode ≠ .observe)
    (hoff : mode ≠ .off) : mutating mode = true := by
  cases mode with
  | off => exact absurd rfl hoff
  | observe => exact absurd rfl hobserve
  | conservative | memoryBound | reuseAware | active => rfl

theorem handsOver_eq_some {release : Release} :
    handsOver m = some (m', release) ↔ selectRelease m = (.ok (some release), m') := by
  rw [handsOver]
  split
  · rename_i heq
    rw [heq, Option.some.injEq, Prod.mk.injEq, Prod.mk.injEq, Outcome.ok.injEq, Option.some.injEq,
      and_comm]
  · rename_i hne
    exact ⟨fun h => (by cases h), fun h => absurd h (hne _ _)⟩

theorem handsOver_some {release : Release} (h : handsOver m = some (m', release)) :
    HandsOver m m' release := by
  rw [handsOver_eq_some] at h
  rw [selectRelease, self_bind_run] at h
  obtain ⟨hobserve, h⟩ := of_failIf_bind_ok h
  obtain ⟨hoff, h⟩ := of_failIf_bind_ok h
  obtain ⟨hguard, h⟩ := of_failIf_bind_ok h
  obtain ⟨plan, hplan, h⟩ := of_okOr_bind_ok h
  split at h
  · cases h
  rename_i hselected
  obtain ⟨hboundary, h⟩ := of_failIf_bind_ok h
  have hboundary := not_not.mp hboundary
  rcases nativeIndices_cases plan.selected m with ⟨indices, hrun, hbacked⟩ | hrun
  · have hplanning : ResidencyLifecycle.legal m.lifecycle.state .planning = true := by
      rw [hboundary]
      rfl
    rw [bind_of_ok hrun, bind_of_ok (transition_of_legal hplanning),
      bind_of_ok (transition_of_legal rfl), pure_run] at h
    cases h
    refine ⟨mutating_of_ne hobserve hoff, fun hbound => ?_, hplan, hselected, hboundary, hbacked, rfl⟩
    simpa [hbound] using hguard
  · rw [bind_of_err hrun] at h
    cases h

/-! ## Planning -/

theorem plannerOf_inventory (m : ResidencyManager) : m.plannerOf.inventory = m.inventory := by
  rw [plannerOf]
  split <;> rfl

theorem plannerOf_attempted (m : ResidencyManager) : m.plannerOf.attempted = m.attempted := by
  rw [plannerOf]
  split <;> rfl

theorem plannerOf_lifecycle (m : ResidencyManager) (l : ResidencyLifecycle) :
    ({ m with lifecycle := l } : ResidencyManager).plannerOf = m.plannerOf := rfl

theorem planWithProfile_cases (build : Build) (observedBytes : Option Nat) (context : OperationContext)
    (profile : Option ExecutionProfile) (m : ResidencyManager) :
    (LifecycleOnly m (planWithProfile build observedBytes context profile m).2 ∧
      ∀ plan, (planWithProfile build observedBytes context profile m).1 ≠ .ok plan) ∨
    ∃ plan profile' lifetimes,
      m.plannerOf.planWithProfile build m.policy observedBytes context profile' = some plan ∧
      planWithProfile build observedBytes context profile m =
        (.ok plan,
          { m with
            lifecycle := { state := .safeBoundary }
            lifetimes := lifetimes
            lastPlan := some plan }) := by
  cases hlegal : ResidencyLifecycle.legal m.lifecycle.state .planning with
  | false =>
    rw [planWithProfile, bind_of_err (transition_of_illegal hlegal)]
    exact .inl ⟨LifecycleOnly.refl m, fun _ h => by cases h⟩
  | true =>
    rw [planWithProfile, bind_of_ok (transition_of_legal hlegal), self_bind_run, expect_bind_run,
      plannerOf_lifecycle]
    cases hplan : m.plannerOf.planWithProfile build m.policy observedBytes context
        (profile.filter fun profile => profile.isValidFor m.modelId m.inventory.generation) with
    | none => exact .inl ⟨⟨_, rfl⟩, fun _ h => by cases h⟩
    | some plan =>
      by_cases hquiescent : m.nativeModelInstance.isSome = true ∧ m.nativeQuiescent = true
      · refine .inr ⟨plan, _, onTrackers plan.selected (markSelected m.policy.mode) m.lifetimes,
          hplan, ?_⟩
        simp only [modify_bind_run, if_pos hquiescent]
        rw [bind_of_ok (transition_of_legal rfl)]
        rfl
      · refine .inr ⟨plan, _, m.lifetimes, hplan, ?_⟩
        simp only [modify_bind_run, if_neg hquiescent]
        rw [bind_of_ok (transition_of_legal rfl)]
        rfl

/-! ## Applying -/

/-- An accepted release: every selected key has been attempted. -/
theorem finishRelease_accepted (release : Release) (nativeResult : PageReleaseResult)
    (elapsed : Nat) (h : m.lifecycle.state = .applying) :
    ∃ report lifetimes, finishRelease release (.ok nativeResult) elapsed m =
      (.ok report,
        { m with
          lifecycle := { state := .safeBoundary }
          attempted := release.plan.selected.foldl (fun attempted key => attempted.insert key) m.attempted
          application := some report
          lifetimes := lifetimes }) := by
  let s : ResidencyManager :=
    { m with
      attempted := release.plan.selected.foldl (fun attempted key => attempted.insert key) m.attempted
      lifetimes := onTrackers release.plan.selected markReleased m.lifetimes }
  have hlegal : ResidencyLifecycle.legal s.lifecycle.state .safeBoundary = true := by
    show ResidencyLifecycle.legal m.lifecycle.state .safeBoundary = true
    rw [h]
    rfl
  refine ⟨⟨release.plan.selected, release.indices, some nativeResult, none, elapsed⟩,
    onTrackers release.plan.selected markReleased m.lifetimes, ?_⟩
  rw [finishRelease]
  simp only [modify_bind_run]
  exact bind_of_ok (s := s) (transition_of_legal hlegal)

theorem bindNativeModel_cases (instanceId contractVersion : Nat) (m : ResidencyManager) :
    (bindNativeModel instanceId contractVersion m).2 = m ∨
      ∃ lifetimes, (bindNativeModel instanceId contractVersion m).2 =
        { m with
          nativeModelInstance := some instanceId
          nativeContractVersion := some contractVersion
          inventory :=
            { m.inventory with
              nativeModelInstance := some instanceId
              nativeContractVersion := some contractVersion }
          lifetimes := lifetimes } := by
  rw [bindNativeModel, failIf_bind_run]
  split
  · exact .inl rfl
  rw [failIf_bind_run]
  split
  · exact .inl rfl
  rw [self_bind_run, failIf_bind_run]
  split
  · exact .inl rfl
  · exact .inr ⟨_, rfl⟩

theorem refresh_cases (inventory : ResourceInventory) (m : ResidencyManager) :
    (∃ error, refresh inventory m = (.err error, m)) ∨
      ∃ lifetimes, refresh inventory m =
        (.ok (),
          { m with
            lifetimes := lifetimes
            inventory := inventory
            attempted := ∅
            lastPlan := none
            application := none }) := by
  rw [refresh, self_bind_run, failIf_bind_run]
  split
  · exact .inl ⟨_, rfl⟩
  rw [failIf_bind_run]
  split
  · exact .inl ⟨_, rfl⟩
  · exact .inr ⟨_, rfl⟩

theorem finishRelease_refused (release : Release) (error : String) (elapsed : Nat)
    (m : ResidencyManager) :
    ∃ application lifetimes, finishRelease release (.error error) elapsed m =
      (.err (.release error),
        { m with
          lifecycle := m.lifecycle.fail
          application := application
          lifetimes := lifetimes }) :=
  ⟨_, _, rfl⟩

theorem applyLastPlan_cases (release : List Int → Outcome String PageReleaseResult) (elapsed : Nat)
    (m : ResidencyManager) :
    (handsOver m = none ∧ LifecycleOnly m (applyLastPlan release elapsed m).2) ∨
    ∃ m' selection, handsOver m = some (m', selection) ∧
      ((∃ report application lifetimes, applyLastPlan release elapsed m =
        (.ok report,
          { m with
            lifecycle := { state := .safeBoundary }
            attempted := selection.plan.selected.foldl (fun attempted key => attempted.insert key)
              m.attempted
            application := application
            lifetimes := lifetimes })) ∨
      ((∀ report, (applyLastPlan release elapsed m).1 ≠ .ok report) ∧
        ∃ l application lifetimes, (applyLastPlan release elapsed m).2 =
          { m with lifecycle := l, application := application, lifetimes := lifetimes })) := by
  have hkeeps := selectRelease_keeps m (LifecycleOnly.refl m)
  rcases hselect : selectRelease m with ⟨selection | error | message, m'⟩ <;> rw [hselect] at hkeeps
  · cases selection with
    | none =>
      refine .inl ⟨by rw [handsOver, hselect], ?_⟩
      rw [applyLastPlan, bind_of_ok hselect]
      exact hkeeps
    | some selection =>
      have hover : handsOver m = some (m', selection) := handsOver_eq_some.mpr hselect
      obtain rfl := (handsOver_some hover).state
      refine .inr ⟨_, selection, hover, ?_⟩
      cases hanswer : release selection.indices with
      | ok nativeResult =>
        obtain ⟨report, lifetimes, hrun⟩ := finishRelease_accepted
          (m := { m with lifecycle := ⟨.applying⟩ }) selection nativeResult elapsed rfl
        refine .inl ⟨report, some report, lifetimes, ?_⟩
        rw [applyLastPlan, bind_of_ok hselect]
        exact (bind_of_ok (by rw [hanswer]; rfl)).trans hrun
      | err error =>
        obtain ⟨application, lifetimes, hrun⟩ := finishRelease_refused selection error elapsed
          { m with lifecycle := ⟨.applying⟩ }
        have hrefused : applyLastPlan release elapsed m =
            (.err (.release error),
              { m with
                lifecycle := ResidencyLifecycle.fail ⟨.applying⟩
                application := application
                lifetimes := lifetimes }) := by
          rw [applyLastPlan, bind_of_ok hselect]
          exact (bind_of_ok (by rw [hanswer]; rfl)).trans hrun
        rw [hrefused]
        exact .inr ⟨fun _ h => (by cases h), _, application, lifetimes, rfl⟩
      | panic message =>
        have hpanic : applyLastPlan release elapsed m =
            (.panic message, { m with lifecycle := ⟨.applying⟩ }) := by
          rw [applyLastPlan, bind_of_ok hselect]
          exact bind_of_panic (by rw [hanswer]; rfl)
        rw [hpanic]
        exact .inr ⟨fun _ h => (by cases h), _, m.application, m.lifetimes, rfl⟩
  · refine .inl ⟨by rw [handsOver, hselect], ?_⟩
    rw [applyLastPlan, bind_of_err hselect]
    exact hkeeps
  · refine .inl ⟨by rw [handsOver, hselect], ?_⟩
    rw [applyLastPlan, bind_of_panic hselect]
    exact hkeeps

end ResidencyManager
end Ramforge

/-!
Whole runs of a residency manager: what it may release, and when.

A run is any sequence of calls.  Inventories come from the constructor, and each
release closure answers as it likes.
-/

namespace Ramforge

open Std Rust Rust.Exec Rust.Trace

inductive ManagerCall where
  | beginOperation
  | beginDecode
  | finishDecode
  | fail
  | recover
  | refresh (inventory : BuiltInventory)
  | bindNativeModel (instanceId contractVersion : Nat)
  | observeNativeLifetime (quiescent : Bool) (activeContexts inflightContexts : Nat)
      (executionGeneration : Option Nat)
  | planWithProfile (observedBytes : Option Nat) (context : OperationContext)
      (profile : Option ExecutionProfile)
  | applyLastPlan (release : List Int → Outcome String PageReleaseResult) (elapsed : Nat)

inductive Reply where
  | done
  | plan (plan : ResidencyPlan)
  | report (report : ApplicationReport)

namespace ManagerCall

open ResidencyManager

def run (build : Build) : ManagerCall → Method Reply
  | .beginOperation => (fun _ => .done) <$> ResidencyManager.beginOperation
  | .beginDecode => (fun _ => .done) <$> ResidencyManager.beginDecode
  | .finishDecode => (fun _ => .done) <$> ResidencyManager.finishDecode
  | .fail => (fun _ => .done) <$> ResidencyManager.fail
  | .recover => (fun _ => .done) <$> ResidencyManager.recover
  | .refresh inventory => (fun _ => .done) <$> ResidencyManager.refresh inventory.val
  | .bindNativeModel instanceId contractVersion =>
    (fun _ => .done) <$> ResidencyManager.bindNativeModel instanceId contractVersion
  | .observeNativeLifetime quiescent activeContexts inflightContexts executionGeneration =>
    (fun _ => .done) <$>
      ResidencyManager.observeNativeLifetime quiescent activeContexts inflightContexts
        executionGeneration
  | .planWithProfile observedBytes context profile =>
    .plan <$> ResidencyManager.planWithProfile build observedBytes context profile
  | .applyLastPlan release elapsed => .report <$> ResidencyManager.applyLastPlan release elapsed

end ManagerCall

abbrev ManagerStep : Type := Step ResidencyManager ManagerCall (Outcome ManagerError Reply)

abbrev managerStep (build : Build) (m : ResidencyManager) (call : ManagerCall) : ManagerStep :=
  step (ManagerCall.run build) m call

/-- The steps of a run from `m`. -/
def managerRun (build : Build) (m : ResidencyManager) (calls : List ManagerCall) :
    List ManagerStep :=
  trace (ManagerCall.run build) m calls

namespace ManagerStep

/-- The call of the closure within a step: the state it is made in, and what it is given. -/
def handedOver (e : ManagerStep) : Option (ResidencyManager × ResidencyManager.Release) :=
  match e.input with
  | .applyLastPlan _ _ => ResidencyManager.handsOver e.before
  | _ => none

/-- The indices released by a successful application. -/
def released (e : ManagerStep) : List Int :=
  match e.handedOver, e.output with
  | some (_, release), .ok _ => release.indices
  | _, _ => []

/-- The inventory was replaced. -/
def replaced (e : ManagerStep) : Bool :=
  match e.input, e.output with
  | .refresh _, .ok _ => true
  | _, _ => false

/-- The plan stored by the step. -/
def planned (e : ManagerStep) : Option ResidencyPlan :=
  match e.output with
  | .ok (.plan plan) => some plan
  | _ => none

def replans (e : ManagerStep) : Bool := e.replaced || e.planned.isSome

/-- A decode began. -/
def decodes (e : ManagerStep) : Bool :=
  match e.input, e.output with
  | .beginDecode, .ok _ => true
  | _, _ => false

def observes (e : ManagerStep) : Bool :=
  match e.input with
  | .observeNativeLifetime _ _ _ _ => true
  | _ => false

/-- The native side was observed quiescent, with no context active or in flight. -/
def observesQuiescence (e : ManagerStep) : Bool :=
  match e.input with
  | .observeNativeLifetime quiescent activeContexts inflightContexts _ =>
    quiescent ∧ inflightContexts = 0 ∧ activeContexts = 0
  | _ => false

/-! ## What a step changes -/

/-- The inventory is the same, but for what `bind_native_model` notes in it. -/
structure SameInventory (m m' : ResidencyManager) : Prop where
  resources : m'.inventory.resources = m.inventory.resources
  generation : m'.inventory.generation = m.inventory.generation
  byIndex : m'.inventory.byIndex = m.inventory.byIndex

theorem SameInventory.of_eq {m m' : ResidencyManager} (h : m'.inventory = m.inventory) :
    SameInventory m m' :=
  ⟨by rw [h], by rw [h], by rw [h]⟩

theorem SameInventory.keyed {m m' : ResidencyManager} (h : SameInventory m m')
    (hkeyed : m.inventory.Keyed) : m'.inventory.Keyed where
  key_eq i r hr := by
    rw [h.resources] at hr
    rw [h.generation]
    exact hkeyed.key_eq i r hr
  byIndex_eq i hi := by
    rw [h.resources] at hi
    rw [h.byIndex]
    exact hkeyed.byIndex_eq i hi

/-- What a step did to the inventory, the stored plan and the attempted keys. -/
inductive Effect (e : ManagerStep) : Prop where
  | kept (hinventory : SameInventory e.before e.after) (hplan : e.after.lastPlan = e.before.lastPlan)
      (hattempted : e.after.attempted = e.before.attempted) (hreplaced : e.replaced = false)
      (hplanned : e.planned = none) (hreleased : e.released = [])
  | planned (plan : ResidencyPlan) (hinventory : e.after.inventory = e.before.inventory)
      (heligible : ∀ key ∈ plan.selected, key ∉ e.before.attempted ∧
        ∃ resource ∈ e.before.inventory.resources, resource.key = key)
      (hplan : e.after.lastPlan = some plan) (hattempted : e.after.attempted = e.before.attempted)
      (hreplaced : e.replaced = false) (hplanned : e.planned = some plan) (hreleased : e.released = [])
  | replaced (hkeyed : e.after.inventory.Keyed) (hplan : e.after.lastPlan = none)
      (hreplaced : e.replaced = true) (hreleased : e.released = [])
  | released (m : ResidencyManager) (release : ResidencyManager.Release)
      (hinventory : e.after.inventory = e.before.inventory)
      (hplan : e.after.lastPlan = e.before.lastPlan) (hover : e.handedOver = some (m, release))
      (hattempted : ∀ key, key ∈ e.after.attempted ↔
        key ∈ release.plan.selected ∨ key ∈ e.before.attempted)
      (hreplaced : e.replaced = false) (hplanned : e.planned = none)
      (hreleased : e.released = release.indices)

variable {build : Build} {m : ResidencyManager} {call : ManagerCall}

theorem mem_foldl_insert (keys : List ResourceKey) (attempted : ExtTreeSet ResourceKey)
    (key : ResourceKey) :
    key ∈ keys.foldl (fun attempted key => attempted.insert key) attempted ↔
      key ∈ keys ∨ key ∈ attempted := by
  induction keys generalizing attempted with
  | nil => simp
  | cons k rest ih =>
    rw [List.foldl_cons, ih, ExtTreeSet.mem_insert, Std.compare_eq_iff_eq, List.mem_cons]
    constructor
    · rintro (h | rfl | h)
      · exact .inl (.inr h)
      · exact .inl (.inl rfl)
      · exact .inr h
    · rintro ((rfl | h) | h)
      · exact .inr (.inl rfl)
      · exact .inl h
      · exact .inr (.inr h)

theorem effect_of_after {e : ManagerStep} {m' : ResidencyManager} (hafter : e.after = m')
    (hinventory : m'.inventory = e.before.inventory) (hplan : m'.lastPlan = e.before.lastPlan)
    (hattempted : m'.attempted = e.before.attempted) (hreplaced : e.replaced = false)
    (hplanned : e.planned = none) (hreleased : e.released = []) : Effect e := by
  subst hafter
  exact .kept (SameInventory.of_eq hinventory) hplan hattempted hreplaced hplanned hreleased

section effect

variable {α : Type} {method : ResidencyManager.Method α} {f : α → Reply}

theorem after_eq (h : ManagerCall.run build call = f <$> method) :
    (managerStep build m call).after = (method m).2 := by
  show (ManagerCall.run build call m).2 = _
  rw [h, map_run]

theorem output_eq (h : ManagerCall.run build call = f <$> method) :
    (managerStep build m call).output = (method m).1.map f := by
  show (ManagerCall.run build call m).1 = _
  rw [h, map_run]

/-- A call that neither plans, refreshes nor releases. -/
theorem effect_kept (hrun : ManagerCall.run build call = (fun _ => Reply.done) <$> method)
    (hreplaced : (managerStep build m call).replaced = false)
    (hreleased : (managerStep build m call).released = [])
    (hinventory : SameInventory m (method m).2) (hplan : (method m).2.lastPlan = m.lastPlan)
    (hattempted : (method m).2.attempted = m.attempted) :
    Effect (managerStep build m call) := by
  refine .kept ?_ ?_ ?_ hreplaced ?_ hreleased
  · rw [after_eq hrun]
    exact hinventory
  · rw [after_eq hrun]
    exact hplan
  · rw [after_eq hrun]
    exact hattempted
  · rw [planned, output_eq hrun]
    cases (method m).1 <;> rfl

theorem effect_lifecycleOnly (hrun : ManagerCall.run build call = (fun _ => Reply.done) <$> method)
    (hreplaced : (managerStep build m call).replaced = false)
    (hreleased : (managerStep build m call).released = [])
    (hkeeps : Keeps (ResidencyManager.LifecycleOnly m) method) :
    Effect (managerStep build m call) := by
  obtain ⟨l, hl⟩ := hkeeps m (ResidencyManager.LifecycleOnly.refl m)
  refine effect_kept hrun hreplaced hreleased (SameInventory.of_eq ?_) ?_ ?_ <;> rw [hl]

end effect

theorem effect_plan (observedBytes : Option Nat) (context : OperationContext)
    (profile : Option ExecutionProfile) :
    Effect (managerStep build m (.planWithProfile observedBytes context profile)) := by
  have hrun : ManagerCall.run build (.planWithProfile observedBytes context profile) =
      Reply.plan <$> ResidencyManager.planWithProfile build observedBytes context profile := rfl
  rcases ResidencyManager.planWithProfile_cases build observedBytes context profile m with
    ⟨⟨l, hl⟩, hnone⟩ | ⟨plan, profile', lifetimes, hplan, hok⟩
  · have hafter := after_eq (m := m) hrun
    rw [hl] at hafter
    refine effect_of_after hafter rfl rfl rfl rfl ?_ rfl
    rw [planned, output_eq hrun]
    cases hout : (ResidencyManager.planWithProfile build observedBytes context profile m).1 with
    | ok plan => exact absurd hout (hnone plan)
    | err _ => rfl
    | panic _ => rfl
  · refine .planned plan ?_ (fun key hkey => ?_) ?_ ?_ rfl ?_ rfl
    · rw [after_eq hrun, hok]
      rfl
    · obtain ⟨resource, hresource, rfl, heligible⟩ := Planner.eligible_of_selected hplan hkey
      refine ⟨?_, resource, ?_, rfl⟩
      · have hfresh := heligible.not_attempted
        rwa [ResidencyManager.plannerOf_attempted] at hfresh
      · rwa [ResidencyManager.plannerOf_inventory] at hresource
    · rw [after_eq hrun, hok]
    · rw [after_eq hrun, hok]
      rfl
    · rw [planned, output_eq hrun, hok]
      rfl

theorem effect_refresh (inventory : BuiltInventory) :
    Effect (managerStep build m (.refresh inventory)) := by
  have hrun : ManagerCall.run build (.refresh inventory) =
      (fun _ => Reply.done) <$> ResidencyManager.refresh inventory.val := rfl
  have houtput := output_eq (m := m) hrun
  have hafter := after_eq (m := m) hrun
  rcases ResidencyManager.refresh_cases inventory.val m with ⟨error, herr⟩ | ⟨lifetimes, hok⟩
  · rw [herr] at houtput hafter
    refine effect_kept hrun ?_ rfl (SameInventory.of_eq ?_) ?_ ?_
    · rw [replaced, houtput]
      rfl
    all_goals rw [herr]
  · rw [hok] at houtput hafter
    refine .replaced ?_ ?_ ?_ rfl
    · rw [hafter]
      exact inventory.keyed
    · rw [hafter]
    · rw [replaced, houtput]
      rfl

theorem effect_apply (release : List Int → Outcome String PageReleaseResult) (elapsed : Nat) :
    Effect (managerStep build m (.applyLastPlan release elapsed)) := by
  have hrun : ManagerCall.run build (.applyLastPlan release elapsed) =
      Reply.report <$> ResidencyManager.applyLastPlan release elapsed := rfl
  have houtput := output_eq (m := m) hrun
  have hafter := after_eq (m := m) hrun
  have hover : (managerStep build m (.applyLastPlan release elapsed)).handedOver = m.handsOver := rfl
  have hplanned : (managerStep build m (.applyLastPlan release elapsed)).planned = none := by
    rw [planned, houtput]
    cases (ResidencyManager.applyLastPlan release elapsed m).1 <;> rfl
  rcases ResidencyManager.applyLastPlan_cases release elapsed m with
    ⟨hnone, l, hl⟩ |
      ⟨m', selection, hsome, ⟨report, application, lifetimes, hok⟩ | ⟨hrefused, l, application, lifetimes, hl⟩⟩
  · rw [hl] at hafter
    refine effect_of_after hafter rfl rfl rfl rfl hplanned ?_
    rw [released, hover, hnone]
  · rw [hok] at houtput hafter
    refine .released m' selection (by rw [hafter]; rfl) (by rw [hafter]; rfl) (hover.trans hsome)
      (fun key => ?_) rfl hplanned ?_
    · rw [hafter]
      exact mem_foldl_insert _ _ _
    · rw [released, hover, hsome, houtput]
      rfl
  · rw [hl] at hafter
    refine effect_of_after hafter rfl rfl rfl rfl hplanned ?_
    rw [released, hover, hsome, houtput]
    cases hout : (ResidencyManager.applyLastPlan release elapsed m).1 with
    | ok report => exact absurd hout (hrefused report)
    | err _ => rfl
    | panic _ => rfl

theorem effect (build : Build) (m : ResidencyManager) (call : ManagerCall) :
    Effect (managerStep build m call) := by
  cases call with
  | beginOperation =>
    exact effect_lifecycleOnly rfl rfl rfl (ResidencyManager.transition_keeps _)
  | beginDecode => exact effect_lifecycleOnly rfl rfl rfl (ResidencyManager.transition_keeps _)
  | finishDecode => exact effect_lifecycleOnly rfl rfl rfl ResidencyManager.finishDecode_keeps
  | fail => exact effect_lifecycleOnly rfl rfl rfl ResidencyManager.fail_keeps
  | recover => exact effect_lifecycleOnly rfl rfl rfl (ResidencyManager.transition_keeps _)
  | refresh inventory => exact effect_refresh inventory
  | bindNativeModel instanceId contractVersion =>
    refine effect_kept rfl rfl rfl ?_ ?_ ?_ <;>
      rcases ResidencyManager.bindNativeModel_cases instanceId contractVersion m with h | ⟨lifetimes, h⟩ <;>
      rw [h]
    · exact SameInventory.of_eq rfl
    · exact ⟨rfl, rfl, rfl⟩
  | observeNativeLifetime quiescent activeContexts inflightContexts executionGeneration =>
    exact effect_kept rfl rfl rfl (SameInventory.of_eq rfl) rfl rfl
  | planWithProfile observedBytes context profile => exact effect_plan observedBytes context profile
  | applyLastPlan release elapsed => exact effect_apply release elapsed

/-- The flag changes at observations only. -/
theorem nativeQuiescent_step (build : Build) (m : ResidencyManager) (call : ManagerCall) :
    (managerStep build m call).after.nativeQuiescent =
      if (managerStep build m call).observes then (managerStep build m call).observesQuiescence
      else m.nativeQuiescent := by
  have hkeeps : ∀ {α : Type} (method : ResidencyManager.Method α),
      Keeps (ResidencyManager.LifecycleOnly m) method →
      (method m).2.nativeQuiescent = m.nativeQuiescent := by
    intro α method h
    obtain ⟨l, hl⟩ := h m (ResidencyManager.LifecycleOnly.refl m)
    rw [hl]
  cases call with
  | beginOperation =>
    exact (congrArg _ (after_eq rfl)).trans (hkeeps _ (ResidencyManager.transition_keeps _))
  | beginDecode =>
    exact (congrArg _ (after_eq rfl)).trans (hkeeps _ (ResidencyManager.transition_keeps _))
  | finishDecode =>
    exact (congrArg _ (after_eq rfl)).trans (hkeeps _ ResidencyManager.finishDecode_keeps)
  | fail => exact (congrArg _ (after_eq rfl)).trans (hkeeps _ ResidencyManager.fail_keeps)
  | recover =>
    exact (congrArg _ (after_eq rfl)).trans (hkeeps _ (ResidencyManager.transition_keeps _))
  | refresh inventory =>
    refine (congrArg _ (after_eq rfl)).trans ?_
    rcases ResidencyManager.refresh_cases inventory.val m with ⟨error, h⟩ | ⟨lifetimes, h⟩ <;> rw [h] <;>
      rfl
  | bindNativeModel instanceId contractVersion =>
    refine (congrArg _ (after_eq rfl)).trans ?_
    rcases ResidencyManager.bindNativeModel_cases instanceId contractVersion m with h | ⟨lifetimes, h⟩ <;>
      rw [h] <;> rfl
  | observeNativeLifetime quiescent activeContexts inflightContexts executionGeneration => rfl
  | planWithProfile observedBytes context profile =>
    refine (congrArg _ (after_eq rfl)).trans ?_
    rcases ResidencyManager.planWithProfile_cases build observedBytes context profile m with
      ⟨⟨l, h⟩, -⟩ | ⟨plan, profile', lifetimes, -, h⟩ <;> rw [h] <;> rfl
  | applyLastPlan release elapsed =>
    refine (congrArg _ (after_eq rfl)).trans ?_
    rcases ResidencyManager.applyLastPlan_cases release elapsed m with
      ⟨-, l, h⟩ | ⟨m', selection, -, ⟨report, application, lifetimes, h⟩ | ⟨-, l, application, lifetimes, h⟩⟩ <;>
      rw [h] <;> rfl

end ManagerStep
end Ramforge
