/-
When a residency manager releases, over whole runs.

`Tracks` ties the stored plan and the attempted keys to the steps that led there.
-/
import Ramforge.Runtime.ResidencyStep

namespace Ramforge
namespace ManagerStep

open Std Rust Rust.Exec Rust.Trace

variable {build : Build} {m m' : ResidencyManager} {call : ManagerCall} {past : List ManagerStep}
  {e : ManagerStep}

/-- The last plan among some steps. -/
def lastPlanned (steps : List ManagerStep) : Option ResidencyPlan :=
  steps.reverse.findSome? planned

theorem lastPlanned_concat_none (h : e.planned = none) :
    lastPlanned (past ++ [e]) = lastPlanned past := by
  rw [lastPlanned, List.reverse_concat, List.findSome?_cons_of_isNone (by rw [h]; rfl), lastPlanned]

theorem lastPlanned_concat_some {plan : ResidencyPlan} (h : e.planned = some plan) :
    lastPlanned (past ++ [e]) = some plan := by
  rw [lastPlanned, List.reverse_concat, List.findSome?_cons, h]

structure Tracks (past : List ManagerStep) (m : ResidencyManager) : Prop where
  keyed : m.inventory.Keyed
  plan_eq : m.lastPlan = lastPlanned (since replaced past)
  listed : ∀ plan, m.lastPlan = some plan → ∀ key ∈ plan.selected,
    ∃ resource ∈ m.inventory.resources, resource.key = key
  attempted : ∀ e ∈ since replaced past, ∀ i ∈ e.released,
    ⟨m.inventory.generation.generation, i⟩ ∈ m.attempted
  -- an unapplied plan selects no attempted key
  fresh : ∀ plan, m.lastPlan = some plan → (∀ e ∈ since replans past, e.released = []) →
    ∀ key ∈ plan.selected, key ∉ m.attempted
  -- an applied plan is applied whole
  applied : ∀ e ∈ since replans past, e.released ≠ [] → ∃ plan, m.lastPlan = some plan ∧
    e.released = plan.selected.map ResourceKey.tensorIndex

theorem Tracks.start (hkeyed : m.inventory.Keyed) (hplan : m.lastPlan = none) : Tracks [] m where
  keyed := hkeyed
  plan_eq := hplan
  listed plan h := by
    rw [hplan] at h
    cases h
  attempted e he := by simp at he
  fresh plan h := by
    rw [hplan] at h
    cases h
  applied e he := by simp at he

/-- The indices handed over are those of the plan, in its order. -/
theorem Tracks.indices_eq (h : Tracks past m) {release : ResidencyManager.Release}
    (hover : ResidencyManager.HandsOver m m' release) :
    release.indices = release.plan.selected.map ResourceKey.tensorIndex := by
  have hlisted := h.listed release.plan hover.plan
  have hbacked := hover.backed
  generalize release.indices = indices at hbacked ⊢
  generalize release.plan.selected = keys at hlisted hbacked ⊢
  induction hbacked with
  | nil => rfl
  | @cons key index keys indices hindex hrest ih =>
    obtain ⟨resource, hget, rfl⟩ := hindex
    obtain ⟨resource', hmem, rfl⟩ := hlisted _ List.mem_cons_self
    rw [h.keyed.get_eq hmem] at hget
    cases hget
    rw [List.map_cons, ih fun key hkey => hlisted key (List.mem_cons_of_mem _ hkey)]

theorem replans_eq_false (hreplaced : e.replaced = false) (hplanned : e.planned = none) :
    e.replans = false := by
  rw [replans, hreplaced, hplanned]
  rfl

/-- Every key of a tracked plan is the current key of its index. -/
theorem Tracks.key_eq (h : Tracks past m) {plan : ResidencyPlan} (hplan : m.lastPlan = some plan)
    {key : ResourceKey} (hkey : key ∈ plan.selected) :
    key = ⟨m.inventory.generation.generation, key.tensorIndex⟩ := by
  obtain ⟨resource, hmem, rfl⟩ := h.listed plan hplan key hkey
  rw [← h.keyed.generation_eq hmem]

theorem handsOver_of_handedOver {release : ResidencyManager.Release}
    (h : e.handedOver = some (m', release)) : ResidencyManager.HandsOver e.before m' release := by
  rw [handedOver] at h
  split at h
  · exact ResidencyManager.handsOver_some h
  · cases h

/-- A step that released nothing is not among those that did. -/
theorem mem_since_of_released {p : ManagerStep → Bool} {e' : ManagerStep} (hp : p e = false)
    (hreleased : e.released = []) (he : e' ∈ since p (past ++ [e])) (hsome : e'.released ≠ []) :
    e' ∈ since p past := by
  rw [mem_since_concat_of_neg hp] at he
  rcases he with he | rfl
  · exact he
  · exact absurd hreleased hsome

theorem Tracks.step (h : Tracks past m) (build : Build) (call : ManagerCall) :
    Tracks (past ++ [managerStep build m call]) (managerStep build m call).after := by
  have hbefore : (managerStep build m call).before = m := rfl
  cases effect build m call with
  | kept hinventory hplan hattempted hreplaced hplanned hreleased =>
    rw [hbefore] at hinventory hplan hattempted
    have hreplans := replans_eq_false hreplaced hplanned
    refine ⟨hinventory.keyed h.keyed, ?_, ?_, ?_, ?_, ?_⟩
    · rw [hplan, since_concat_of_neg hreplaced, lastPlanned_concat_none hplanned]
      exact h.plan_eq
    · rw [hplan, hinventory.resources]
      exact h.listed
    · rw [hattempted, hinventory.generation]
      intro e he i hi
      exact h.attempted e (mem_since_of_released hreplaced hreleased he (List.ne_nil_of_mem hi)) i hi
    · rw [hplan, hattempted, since_concat_of_neg hreplans]
      intro plan hsome hnone
      exact h.fresh plan hsome fun e he => hnone e (List.mem_append_left _ he)
    · rw [hplan]
      intro e he hsome
      exact h.applied e (mem_since_of_released hreplans hreleased he hsome) hsome
  | planned plan hinventory heligible hplan hattempted hreplaced hplanned hreleased =>
    rw [hbefore] at hinventory heligible hattempted
    have hreplans : (managerStep build m call).replans = true := by
      rw [replans, hplanned]
      simp
    refine ⟨(SameInventory.of_eq hinventory).keyed h.keyed, ?_, ?_, ?_, ?_, ?_⟩
    · rw [hplan, since_concat_of_neg hreplaced, lastPlanned_concat_some hplanned]
    · rw [hplan, hinventory]
      intro plan' hsome key hkey
      cases hsome
      exact (heligible key hkey).2
    · rw [hattempted, hinventory]
      intro e he i hi
      exact h.attempted e (mem_since_of_released hreplaced hreleased he (List.ne_nil_of_mem hi)) i hi
    · rw [hplan, hattempted]
      intro plan' hsome _ key hkey
      cases hsome
      exact (heligible key hkey).1
    · rw [since_concat_of_pos hreplans]
      intro e he
      simp at he
  | replaced hkeyed hplan hreplaced hreleased =>
    have hreplans : (managerStep build m call).replans = true := by
      rw [replans, hreplaced]
      rfl
    refine ⟨hkeyed, ?_, ?_, ?_, ?_, ?_⟩
    · rw [hplan, since_concat_of_pos hreplaced]
      rfl
    · rw [hplan]
      intro plan hsome
      cases hsome
    · rw [since_concat_of_pos hreplaced]
      intro e he
      simp at he
    · rw [hplan]
      intro plan hsome
      cases hsome
    · rw [since_concat_of_pos hreplans]
      intro e he
      simp at he
  | released s release hinventory hplan hover hattempted hreplaced hplanned hreleased =>
    have hreplans := replans_eq_false hreplaced hplanned
    have hhands := handsOver_of_handedOver hover
    rw [hbefore] at hinventory hplan hattempted hhands
    have hindices := h.indices_eq hhands
    refine ⟨(SameInventory.of_eq hinventory).keyed h.keyed, ?_, ?_, ?_, ?_, ?_⟩
    · rw [hplan, since_concat_of_neg hreplaced, lastPlanned_concat_none hplanned]
      exact h.plan_eq
    · rw [hplan, hinventory]
      exact h.listed
    · rw [hinventory]
      intro e he i hi
      rw [hattempted]
      rw [mem_since_concat_of_neg hreplaced] at he
      rcases he with he | rfl
      · exact .inr (h.attempted e he i hi)
      · rw [hreleased, hindices] at hi
        obtain ⟨key, hkey, rfl⟩ := List.mem_map.mp hi
        rw [← h.key_eq hhands.plan hkey]
        exact .inl hkey
    · intro plan hsome hnone
      have hempty := hnone _ ((mem_since_concat_of_neg hreplans).mpr (.inr rfl))
      rw [hreleased, hindices, List.map_eq_nil_iff] at hempty
      exact absurd hempty hhands.some_selected
    · intro e he hsome
      rw [hplan]
      rw [mem_since_concat_of_neg hreplans] at he
      rcases he with he | rfl
      · exact h.applied e he hsome
      · exact ⟨release.plan, hhands.plan, hreleased.trans hindices⟩

theorem new_start {modelId : ModelId} {inventory : ResourceInventory} {policy : ResidencyPolicy}
    {hardLimitBytes : Option Nat}
    (h : ResidencyManager.new modelId inventory policy hardLimitBytes = .ok m) :
    m.inventory = inventory ∧ m.lastPlan = none ∧ m.nativeQuiescent = false := by
  rw [ResidencyManager.new] at h
  split at h
  · cases h
  · cases h
    exact ⟨rfl, rfl, rfl⟩

/-! ## One file-backed tensor under a one-byte target -/

def soleMapping : TensorMappingInfo where
  name := "output.weight"
  fileBacked := true
  mappingIndex := some 0
  mappingId := none
  mappingGeneration := none
  filePath := none
  fileSize := none
  mappingSize := 8192
  offset := 0
  size := 8192
  pageSize := 4096
  pageStart := 0
  pageEnd := 8192

def soleResource : TensorResource :=
  ResourceInventory.resourceOf ⟨1, 0⟩ soleMapping 0 8192 (.ok ()) .native

def soleInventory : ResourceInventory where
  modelId := ⟨"model"⟩
  generation := ⟨1⟩
  nativeModelInstance := none
  nativeContractVersion := none
  resources := [soleResource]
  byIndex := (∅ : ExtTreeMap Int Nat compare).insert 0 0
  summary :=
    { tensors := 1, fileBackedTensors := 1, anonymousTensors := 0, unknownTensors := 0, mappings := 1,
      logicalFileBackedBytes := 8192, logicalAnonymousBytes := 0, pageBytes := 8192, sharedPageBytes := 0 }

def soleBuilt : BuiltInventory :=
  ⟨soleInventory, .release, ⟨"model"⟩, ⟨1⟩, [soleMapping], rfl⟩

def solePolicy : ResidencyPolicy where
  mode := .active
  targetBytes := some 1
  safetyReserveBytes := 0

def soleManager : ResidencyManager where
  modelId := ⟨"model"⟩
  inventory := soleInventory
  policy := solePolicy
  hardLimitBytes := none
  lifecycle := ResidencyLifecycle.default
  attempted := ∅
  lastPlan := none
  application := none
  nativeModelInstance := none
  nativeContractVersion := none
  nativeQuiescent := false
  lastNativeGeneration := none
  lifetimes := ResidencyManager.trackers soleInventory

theorem soleManager_new :
    ResidencyManager.new ⟨"model"⟩ soleBuilt.val solePolicy none = .ok soleManager := rfl

def planAll : ManagerCall :=
  .planWithProfile (some 8192) { required := ∅, pinned := ∅ } none

def applyPlan : ManagerCall :=
  .applyLastPlan (fun _ => .ok ⟨8192, 0, 0, 1⟩) 0

section run

variable {modelId : ModelId} {inventory : BuiltInventory} {policy : ResidencyPolicy}
  {hardLimitBytes : Option Nat}

theorem tracks_start
    (h : ResidencyManager.new modelId inventory.val policy hardLimitBytes = .ok m) : Tracks [] m := by
  obtain ⟨hinventory, hplan, -⟩ := new_start h
  exact Tracks.start (hinventory ▸ inventory.keyed) hplan

/-! ## Where the closure is called -/

/-- A step that calls the closure entered `apply_last_plan` at the safe boundary under
a mutating policy, and passes on the last plan for the current inventory. -/
def SafeRelease (past : List ManagerStep) (e : ManagerStep) : Prop :=
  ∀ m release, e.handedOver = some (m, release) →
    e.before.lifecycle.state = .safeBoundary ∧ m.lifecycle.state = .applying ∧
    ResidencyManager.mutating e.before.policy.mode = true ∧
    lastPlanned (since replaced past) = some release.plan ∧
    release.indices = release.plan.selected.map ResourceKey.tensorIndex ∧
    ∀ key ∈ release.plan.selected, key.generation = e.before.inventory.generation.generation

theorem releases_safe
    (h : ResidencyManager.new modelId inventory.val policy hardLimitBytes = .ok m)
    (build : Build) (calls : List ManagerCall) : Always SafeRelease (managerRun build m calls) := by
  refine always_trace (tracks_start h) (fun past s call htracks => ⟨?_, htracks.step build call⟩) calls
  intro m' release hover
  have hhands := handsOver_of_handedOver hover
  refine ⟨hhands.boundary, ?_, hhands.mode, ?_, htracks.indices_eq hhands, fun key hkey => ?_⟩
  · rw [hhands.state]
  · rw [← htracks.plan_eq]
    exact hhands.plan
  · rw [htracks.key_eq hhands.plan hkey]
    rfl

theorem releases_safe_sole :
    Always SafeRelease (managerRun .release soleManager [planAll, applyPlan]) :=
  releases_safe soleManager_new .release [planAll, applyPlan]

/-- The closure runs while the lifecycle is in its safe-boundary state. -/
def RunsAtBoundary (_ : List ManagerStep) (e : ManagerStep) : Prop :=
  ∀ m release, e.handedOver = some (m, release) → m.lifecycle.state = .safeBoundary

/-- It runs in the state `applying`. -/
theorem release_runs_applying :
    ¬Always RunsAtBoundary (managerRun .release soleManager [planAll, applyPlan]) := by
  intro h
  have hlast := h [managerStep .release soleManager planAll]
    (managerStep .release (ManagerCall.run .release planAll soleManager).2 applyPlan) [] rfl
  have hover : (managerStep .release (ManagerCall.run .release planAll soleManager).2
      applyPlan).handedOver.isSome = true := by decide +kernel
  obtain ⟨⟨s, release⟩, hsome⟩ := Option.isSome_iff_exists.mp hover
  have hstate := (handsOver_of_handedOver hsome).state
  have hboundary := hlast s release hsome
  rw [hstate] at hboundary
  cases hboundary

/-! ## At most one release of a resource -/

/-- No index released by the step was released before from the same inventory. -/
def ReleasesOnce (past : List ManagerStep) (e : ManagerStep) : Prop :=
  ∀ i ∈ e.released, ∀ e' ∈ since replaced past, i ∉ e'.released

/-- A step that releases applies a plan that has not been applied. -/
def AppliesOnce (past : List ManagerStep) (e : ManagerStep) : Prop :=
  e.released ≠ [] → ∀ e' ∈ since replans past, e'.released = []

theorem handedOver_of_released (h : e.released ≠ []) :
    ∃ m release, e.handedOver = some (m, release) ∧ e.released = release.indices := by
  rw [released] at h ⊢
  split at h
  · rename_i hover _
    exact ⟨_, _, hover, rfl⟩
  · exact absurd rfl h

theorem since_replans_subset (h : e ∈ since replans past) : e ∈ since replaced past :=
  mem_since_of_imp (fun e he => by rw [replans, he, Bool.true_or]) h

theorem Tracks.once_iff_fresh (h : Tracks past m) (build : Build) (call : ManagerCall) :
    ReleasesOnce past (managerStep build m call) ↔ AppliesOnce past (managerStep build m call) := by
  constructor
  · intro honce hsome e he
    by_contra hne
    obtain ⟨s, release, hover, hreleased⟩ := handedOver_of_released hsome
    have hhands := handsOver_of_handedOver hover
    obtain ⟨plan, hplan, hsame⟩ := h.applied e he hne
    obtain rfl : release.plan = plan := Option.some.inj (hhands.plan.symm.trans hplan)
    rw [← h.indices_eq hhands, ← hreleased] at hsame
    obtain ⟨i, hi⟩ := List.exists_mem_of_ne_nil _ hsome
    exact honce i hi e (since_replans_subset he) (hsame ▸ hi)
  · intro hfresh i hi e he hbefore
    have hsome := List.ne_nil_of_mem hi
    obtain ⟨s, release, hover, hreleased⟩ := handedOver_of_released hsome
    have hhands := handsOver_of_handedOver hover
    rw [hreleased, h.indices_eq hhands] at hi
    obtain ⟨key, hkey, rfl⟩ := List.mem_map.mp hi
    have hattempted := h.attempted e he key.tensorIndex hbefore
    rw [← h.key_eq hhands.plan hkey] at hattempted
    exact h.fresh release.plan hhands.plan (hfresh hsome) key hkey hattempted

theorem releasesOnce_iff
    (h : ResidencyManager.new modelId inventory.val policy hardLimitBytes = .ok m)
    (build : Build) (calls : List ManagerCall) :
    Always ReleasesOnce (managerRun build m calls) ↔ Always AppliesOnce (managerRun build m calls) := by
  constructor
  · refine always_of_always (tracks_start h) fun past s call htracks honce => ?_
    exact ⟨(htracks.once_iff_fresh build call).mp honce, htracks.step build call⟩
  · refine always_of_always (tracks_start h) fun past s call htracks hfresh => ?_
    exact ⟨(htracks.once_iff_fresh build call).mpr hfresh, htracks.step build call⟩

theorem releasesOnce_iff_sole :
    Always ReleasesOnce (managerRun .release soleManager [planAll, applyPlan, applyPlan]) ↔
      Always AppliesOnce (managerRun .release soleManager [planAll, applyPlan, applyPlan]) :=
  releasesOnce_iff soleManager_new .release [planAll, applyPlan, applyPlan]

/-- The stored plan outlives its application. -/
theorem applied_twice :
    ¬Always ReleasesOnce (managerRun .release soleManager [planAll, applyPlan, applyPlan]) := by
  intro h
  have hsecond := h (managerRun .release soleManager [planAll, applyPlan])
    (managerStep .release (final (ManagerCall.run .release) soleManager [planAll, applyPlan]) applyPlan)
    [] rfl
  refine hsecond 0 (by decide +kernel)
    (managerStep .release (ManagerCall.run .release planAll soleManager).2 applyPlan) ?_ (by decide +kernel)
  have hplan : (managerStep .release soleManager planAll).replaced = false := by rfl
  have hfirst : (managerStep .release (ManagerCall.run .release planAll soleManager).2
      applyPlan).replaced = false := by rfl
  show _ ∈ since replaced ([managerStep .release soleManager planAll] ++ [_])
  exact (mem_since_concat_of_neg hfirst).mpr (.inr rfl)

/-! ## Quiescence -/

/-- A guarded release follows a quiescent observation made after the last decode began. -/
def FreshQuiescence (past : List ManagerStep) (e : ManagerStep) : Prop :=
  ∀ m release, e.handedOver = some (m, release) → e.before.nativeModelInstance.isSome = true →
    ∃ e' ∈ since decodes past, e'.observesQuiescence = true

/-- A guarded release follows some observation made after the last decode began. -/
def ObservedSinceDecode (past : List ManagerStep) (e : ManagerStep) : Prop :=
  ∀ m release, e.handedOver = some (m, release) → e.before.nativeModelInstance.isSome = true →
    ∃ e' ∈ since decodes past, e'.observes = true

/-- The flag is that of the last observation. -/
def FlagTracks (past : List ManagerStep) (m : ResidencyManager) : Prop :=
  m.nativeQuiescent = true → (∃ e ∈ since decodes past, e.observes = true) →
    ∃ e ∈ since decodes past, e.observesQuiescence = true

theorem observes_of_observesQuiescence (h : e.observesQuiescence = true) : e.observes = true := by
  rw [observesQuiescence] at h
  rw [observes]
  split at h
  · rfl
  · cases h

theorem decodes_of_observes (h : e.observes = true) : e.decodes = false := by
  rw [observes] at h
  rw [decodes]
  split at h
  · rename_i heq
    rw [heq]
  · cases h

theorem FlagTracks.step (h : FlagTracks past m) (build : Build) (call : ManagerCall) :
    FlagTracks (past ++ [managerStep build m call]) (managerStep build m call).after := by
  intro hflag hobserved
  rw [nativeQuiescent_step] at hflag
  cases hobserves : (managerStep build m call).observes with
  | true =>
    -- the observation itself is the witness
    rw [hobserves, if_pos rfl] at hflag
    have hdecodes := decodes_of_observes hobserves
    exact ⟨_, (mem_since_concat_of_neg hdecodes).mpr (.inr rfl), hflag⟩
  | false =>
    rw [hobserves, if_neg (by decide)] at hflag
    cases hdecodes : (managerStep build m call).decodes with
    | true =>
      rw [since_concat_of_pos hdecodes] at hobserved
      simp at hobserved
    | false =>
      obtain ⟨e, he, heq⟩ := hobserved
      rw [mem_since_concat_of_neg hdecodes] at he
      rcases he with he | rfl
      · obtain ⟨e', he', hquiescent⟩ := h hflag ⟨e, he, heq⟩
        exact ⟨e', (mem_since_concat_of_neg hdecodes).mpr (.inl he'), hquiescent⟩
      · rw [hobserves] at heq
        cases heq

theorem FlagTracks.fresh_iff_observed (h : FlagTracks past m) (build : Build) (call : ManagerCall) :
    FreshQuiescence past (managerStep build m call) ↔
      ObservedSinceDecode past (managerStep build m call) := by
  constructor
  · intro hfresh s release hover hbound
    obtain ⟨e, he, hquiescent⟩ := hfresh s release hover hbound
    exact ⟨e, he, observes_of_observesQuiescence hquiescent⟩
  · intro hobserved s release hover hbound
    exact h ((handsOver_of_handedOver hover).guarded hbound).2 (hobserved s release hover hbound)

theorem freshQuiescence_iff
    (h : ResidencyManager.new modelId inventory.val policy hardLimitBytes = .ok m)
    (build : Build) (calls : List ManagerCall) :
    Always FreshQuiescence (managerRun build m calls) ↔
      Always ObservedSinceDecode (managerRun build m calls) := by
  have hstart : FlagTracks [] m := fun hflag => by
    rw [(new_start h).2.2] at hflag
    cases hflag
  constructor
  · refine always_of_always hstart fun past s call hflag hfresh => ?_
    exact ⟨(hflag.fresh_iff_observed build call).mp hfresh, hflag.step build call⟩
  · refine always_of_always hstart fun past s call hflag hobserved => ?_
    exact ⟨(hflag.fresh_iff_observed build call).mpr hobserved, hflag.step build call⟩

/-- Model bound and idle, then one decode, planned and applied with no new observation. -/
def staleCalls : List ManagerCall :=
  [.bindNativeModel 1 1, .observeNativeLifetime true 0 0 none, .beginOperation, .beginDecode,
    .finishDecode, planAll]

theorem freshQuiescence_iff_stale :
    Always FreshQuiescence (managerRun .release soleManager (staleCalls ++ [applyPlan])) ↔
      Always ObservedSinceDecode (managerRun .release soleManager (staleCalls ++ [applyPlan])) :=
  freshQuiescence_iff soleManager_new .release (staleCalls ++ [applyPlan])

/-- `begin_decode` leaves the flag as the observation before it set it. -/
theorem stale_quiescence :
    ¬Always FreshQuiescence (managerRun .release soleManager (staleCalls ++ [applyPlan])) := by
  intro h
  have hlast := h (managerRun .release soleManager staleCalls)
    (managerStep .release (final (ManagerCall.run .release) soleManager staleCalls) applyPlan) [] rfl
  have hover : (managerStep .release (final (ManagerCall.run .release) soleManager staleCalls)
      applyPlan).handedOver.isSome = true := by decide +kernel
  obtain ⟨⟨s, release⟩, hsome⟩ := Option.isSome_iff_exists.mp hover
  obtain ⟨e, he, hquiescent⟩ := hlast s release hsome (by decide +kernel)
  have hnone : (since decodes (managerRun .release soleManager staleCalls)).all
      (fun e => !e.observesQuiescence) = true := by decide +kernel
  have hcontra := List.all_eq_true.mp hnone e he
  rw [hquiescent] at hcontra
  cases hcontra

end run

end ManagerStep
end Ramforge
