/-
What a profile learns from captures, over whole histories.

A history mixes captures and single updates.  `Faithful` says what one execution may do
to the profile; `Covered` is what the completion check leaves open.  It looks at the
last consumers of the tensors, so an unfinished node that is nobody's last consumer
goes unseen.
-/
import Ramforge.Runtime.ExecutionProfile

namespace Ramforge
namespace ExecutionProfile

open Std Rust Rust.Exec
open GraphManifest (fromTrace requested completedIds Lists Uncompleted DistinctIds HasCycle
  LastConsumer)

/-- What an update is given: the manifest of captured events, or one made otherwise. -/
inductive Evidence where
  | execution (events : List TraceEvent)
  | built (manifest : GraphManifest)

def Evidence.graph : Evidence → GraphManifest
  | .execution events => fromTrace events
  | .built manifest => manifest

inductive Observation where
  | trace (events : List TraceEvent) (traceComplete : Bool)
  | update (evidence : Evidence) (traceComplete : Bool)

def observe (build : Build) : Observation → Exec ExecutionProfile Empty Unit
  | .trace events traceComplete => updateFromTrace build events traceComplete
  | .update evidence traceComplete => ExecutionProfile.update build evidence.graph traceComplete

/-- The executions of a capture, in the order of their ids.  An empty capture counts as one
execution that shows nothing. -/
def executions (events : List TraceEvent) : List (List TraceEvent) :=
  if executionIds events = [] then [[]] else (executionIds events).map (executionEvents events)

/-- The single updates of an observation. -/
def Observation.updates : Observation → List (Evidence × Bool)
  | .trace events traceComplete =>
    (executions events).map fun events => (.execution events, traceComplete)
  | .update evidence traceComplete => [(evidence, traceComplete)]

def apply (build : Build) (input : Evidence × Bool) : Exec ExecutionProfile Empty Unit :=
  update build input.1.graph input.2

abbrev Update := Rust.Step ExecutionProfile (Evidence × Bool) (Outcome Empty Unit)

/-- Every single update of a history, with the profile before and after it. -/
def updates (build : Build) (profile : ExecutionProfile) (history : List Observation) : List Update :=
  Trace.trace (apply build) profile (history.flatMap Observation.updates)

/-! ## What one execution may do -/

/-- A capture that does not show all of its execution. -/
def Deficient (events : List TraceEvent) (traceComplete : Bool) : Prop :=
  (∃ event, Uncompleted events event) ∨ ¬DistinctIds events ∨ HasCycle events ∨
    traceComplete = false

structure Kept (before after : ExecutionProfile) : Prop where
  access : after.access = before.access
  complete : after.completeObservations = before.completeObservations
  invalidated : after.invalidatedReason = before.invalidatedReason
  incomplete : after.incompleteObservations = before.incompleteObservations + 1

/-- The accesses are those of the execution: a tensor is there exactly where a node lists
it, from its first node to its last. -/
def OfExecution (events : List TraceEvent) (access : ExtTreeMap String AccessPattern compare) : Prop :=
  ∀ tensor, (access[tensor]? = none ↔ ∀ index, ¬Lists events tensor index) ∧
    ∀ pattern, access[tensor]? = some pattern →
      IsLeast {index | Lists events tensor index} pattern.firstOrder ∧
        IsGreatest {index | Lists events tensor index} pattern.lastOrder

def Evidence.Faithful (evidence : Evidence) (traceComplete : Bool)
    (before after : ExecutionProfile) : Prop :=
  match evidence with
  | .execution events =>
    (Deficient events traceComplete ∨ requested events = [] → Kept before after) ∧
      (¬Deficient events traceComplete → requested events ≠ [] → OfExecution events after.access)
  | .built manifest =>
    (observed manifest traceComplete = false → Kept before after) ∧
      (observed manifest traceComplete = true →
        after.access = manifest.tensorToNodes.map fun _ consumers => accessPattern consumers)

def Faithful (e : Update) : Prop :=
  e.output = .ok () ∧ e.input.1.Faithful e.input.2 e.before e.after

/-- Where an otherwise complete execution has an unfinished node, an unfinished node is
the last consumer of some tensor. -/
def Evidence.Covered : Evidence → Bool → Prop
  | .execution events, traceComplete =>
    traceComplete = true → DistinctIds events → ¬HasCycle events →
      (∃ event, Uncompleted events event) →
        ∃ tensor index event, LastConsumer events tensor index ∧
          (requested events)[index]? = some event ∧ event.nodeId ∉ completedIds events
  | .built _, _ => True

/-- The counter that the update adds to has room for it. -/
def Room (build : Build) (profile : ExecutionProfile) (manifest : GraphManifest)
    (traceComplete : Bool) : Prop :=
  if observed manifest traceComplete = true then
    build = .debug → profile.completeObservations + 1 < u64Bound
  else profile.incompleteObservations + 1 < u64Bound

def Seen (build : Build) (e : Update) : Prop :=
  e.input.1.Covered e.input.2 ∧ Room build e.before e.input.1.graph e.input.2

variable {build : Build} {manifest : GraphManifest} {traceComplete : Bool}
  {profile before after : ExecutionProfile} {events : List TraceEvent} {evidence : Evidence}

/-! ## One update -/

@[simp] theorem noted_access : (noted manifest profile).access = profile.access := by
  rw [noted]
  split <;> rfl

@[simp] theorem noted_complete :
    (noted manifest profile).completeObservations = profile.completeObservations := by
  rw [noted]
  split <;> rfl

@[simp] theorem noted_invalidated :
    (noted manifest profile).invalidatedReason = profile.invalidatedReason := by
  rw [noted]
  split <;> rfl

/-- What adding one to a counter leaves, where the counter has no room. -/
theorem add_one_of_full {n : Nat} (h : ¬n + 1 < u64Bound) :
    build.add n 1 = if build = .debug then none else some (wrappingAdd n 1) := by
  rw [Build.add.eq_def, if_neg h]
  cases build <;> rfl

/-- An update that is not used keeps the profile, if the counter has room. -/
theorem kept_iff (h : observed manifest traceComplete = false) :
    ((update build manifest traceComplete profile).1 = .ok () ∧
      Kept profile (update build manifest traceComplete profile).2) ↔
    Room build profile manifest traceComplete := by
  rw [update_of_not_observed h, Room, h, if_neg Bool.false_ne_true]
  by_cases hroom : profile.incompleteObservations + 1 < u64Bound
  · have hadd : build.add profile.incompleteObservations 1 =
        some (profile.incompleteObservations + 1) := if_pos hroom
    rw [hadd]
    exact ⟨fun _ => hroom, fun _ => ⟨rfl, noted_access, noted_complete, noted_invalidated, rfl⟩⟩
  · rw [add_one_of_full hroom]
    refine ⟨fun hkept => ?_, fun h => absurd h hroom⟩
    cases build with
    | debug => cases hkept.1
    | release =>
      have hcount : wrappingAdd profile.incompleteObservations 1 =
        profile.incompleteObservations + 1 := hkept.2.incomplete
      have hlt : wrappingAdd profile.incompleteObservations 1 < u64Bound :=
        Nat.mod_lt _ (by decide)
      omega

/-- An update that is used returns, if the counter has room. -/
theorem observed_ok_iff (h : observed manifest traceComplete = true) :
    (update build manifest traceComplete profile).1 = .ok () ↔
      Room build profile manifest traceComplete := by
  rw [update_of_observed h, Room, h, if_pos rfl]
  by_cases hroom : profile.completeObservations + 1 < u64Bound
  · have hadd : build.add profile.completeObservations 1 =
        some (profile.completeObservations + 1) := if_pos hroom
    rw [hadd]
    exact ⟨fun _ _ => hroom, fun _ => rfl⟩
  · rw [add_one_of_full hroom]
    cases build with
    | debug => exact ⟨fun hrun => (by cases hrun), fun hdebug => absurd (hdebug rfl) hroom⟩
    | release => exact ⟨fun _ hdebug => (by cases hdebug), fun _ => rfl⟩

theorem observed_access (h : observed manifest traceComplete = true)
    (hok : (update build manifest traceComplete profile).1 = .ok ()) :
    (update build manifest traceComplete profile).2.access =
      manifest.tensorToNodes.map fun _ consumers => accessPattern consumers := by
  rw [update_of_observed h] at hok ⊢
  cases hadd : build.add profile.completeObservations 1 with
  | some count => rfl
  | none =>
    rw [hadd] at hok
    cases hok

/-- An update that is used does not count an incomplete observation. -/
theorem not_kept_of_observed (h : observed manifest traceComplete = true) :
    ¬Kept profile (update build manifest traceComplete profile).2 := by
  intro hkept
  have hcount := hkept.incomplete
  have hsame : (update build manifest traceComplete profile).2.incompleteObservations =
      profile.incompleteObservations := by
    rw [update_of_observed h]
    have hnoted : (noted manifest profile).incompleteObservations =
        profile.incompleteObservations := by
      rw [noted]
      split <;> rfl
    cases build.add profile.completeObservations 1 with
    | some count => exact hnoted
    | none => exact hnoted
  omega

/-! ## One execution -/

/-- The code replaces the profile from an execution exactly where it has a node, distinct
ids, no cycle, a complete trace, and a completion for each last consumer. -/
theorem observed_execution_iff : observed (fromTrace events) traceComplete = true ↔
    requested events ≠ [] ∧ traceComplete = true ∧ DistinctIds events ∧ ¬HasCycle events ∧
      ∀ tensor index event, LastConsumer events tensor index →
        (requested events)[index]? = some event → event.nodeId ∈ completedIds events := by
  have hid : (fromTrace events).executionId.isSome = true ↔ requested events ≠ [] := by
    rw [Option.isSome_iff_ne_none, ne_eq, GraphManifest.executionId_isNone]
  have hsafe : (fromTrace events).intraDecodeSafe = false := rfl
  simp only [observed, usable, hsafe, Bool.not_false, Bool.and_true, Bool.and_eq_true,
    decide_eq_true_eq, hid, GraphManifest.dependencyCycles_eq_zero_iff,
    GraphManifest.edgesKnown_iff, GraphManifest.completionProven_iff]
  constructor
  · rintro ⟨hne, ⟨⟨hcomplete, hdistinct⟩, hproven⟩, hacyclic⟩
    exact ⟨hne, hcomplete, hdistinct, fun h => hacyclic ((GraphManifest.cyclic_iff hdistinct).mpr h),
      hproven⟩
  · rintro ⟨hne, hcomplete, hdistinct, hacyclic, hproven⟩
    exact ⟨hne, ⟨⟨hcomplete, hdistinct⟩, hproven⟩,
      fun h => hacyclic ((GraphManifest.cyclic_iff hdistinct).mp h)⟩

/-- What the code stores from an execution are the accesses of the execution. -/
theorem ofExecution_map : OfExecution events
    ((fromTrace events).tensorToNodes.map fun _ consumers => accessPattern consumers) := by
  intro tensor
  rw [ExtTreeMap.getElem?_map]
  cases hindices : (fromTrace events).tensorToNodes[tensor]? with
  | none =>
    refine ⟨⟨fun _ index hlists => ?_, fun _ => rfl⟩, fun pattern h => by cases h⟩
    obtain ⟨indices, hsome⟩ := GraphManifest.exists_indices hlists
    rw [hindices] at hsome
    cases hsome
  | some indices =>
    have hmem : ∀ index, index ∈ indices ↔ Lists events tensor index :=
      fun _ => GraphManifest.mem_indices hindices
    have hne := (GraphManifest.tensorToNodes_get.mp hindices).2
    obtain ⟨first, hfirst⟩ := Option.ne_none_iff_exists'.mp (mt List.min?_eq_none_iff.mp hne)
    obtain ⟨last, hlast⟩ := Option.ne_none_iff_exists'.mp (mt List.max?_eq_none_iff.mp hne)
    refine ⟨⟨fun h => (by cases h), fun h => ?_⟩, fun pattern h => ?_⟩
    · obtain ⟨index, hindex⟩ := List.exists_mem_of_ne_nil _ hne
      exact absurd ((hmem index).mp hindex) (h index)
    · cases h
      have hmin := List.min?_eq_some_iff.mp hfirst
      have hmax := List.max?_eq_some_iff.mp hlast
      simp only [accessPattern, hfirst, hlast, Option.getD_some]
      exact ⟨⟨(hmem first).mp hmin.1, fun index h => hmin.2 index ((hmem index).mpr h)⟩,
        (hmem last).mp hmax.1, fun index h => hmax.2 index ((hmem index).mpr h)⟩

/-- An execution that is not observed is deficient or has no node. -/
theorem deficient_of_not_observed (h : observed (fromTrace events) traceComplete = false) :
    Deficient events traceComplete ∨ requested events = [] := by
  by_contra hneither
  rw [not_or, Deficient] at hneither
  obtain ⟨hsound, hne⟩ := hneither
  simp only [not_or, not_exists, not_not, Bool.not_eq_false] at hsound
  obtain ⟨hcompleted, hdistinct, hacyclic, hcomplete⟩ := hsound
  refine Bool.false_ne_true (h.symm.trans (observed_execution_iff.mpr
    ⟨hne, hcomplete, hdistinct, hacyclic, fun tensor index event _ hevent => ?_⟩))
  by_contra hmissing
  exact hcompleted event ⟨List.mem_of_getElem? hevent, hmissing⟩

/-- The completion check of an execution that is not observed saw what was missing. -/
theorem covered_of_not_observed (h : observed (fromTrace events) traceComplete = false) :
    (Evidence.execution events).Covered traceComplete := by
  rintro hcomplete hdistinct hacyclic ⟨event, hmem, -⟩
  by_contra hproven
  refine Bool.false_ne_true (h.symm.trans (observed_execution_iff.mpr
    ⟨List.ne_nil_of_mem hmem, hcomplete, hdistinct, hacyclic,
      fun tensor index event hlast hevent => ?_⟩))
  by_contra hmissing
  exact hproven ⟨tensor, index, event, hlast, hevent, hmissing⟩

/-- One update is faithful exactly where the completion check sees what is missing and the
counter has room. -/
theorem faithful_iff (build : Build) (profile : ExecutionProfile) (input : Evidence × Bool) :
    Faithful (Trace.step (apply build) profile input) ↔
      Seen build (Trace.step (apply build) profile input) := by
  obtain ⟨evidence, traceComplete⟩ := input
  show (update build evidence.graph traceComplete profile).1 = .ok () ∧
      evidence.Faithful traceComplete profile (update build evidence.graph traceComplete profile).2 ↔
    evidence.Covered traceComplete ∧ Room build profile evidence.graph traceComplete
  cases hobserved : observed evidence.graph traceComplete with
  | false =>
    rw [← kept_iff hobserved]
    cases evidence with
    | built manifest =>
      exact ⟨fun h => ⟨trivial, h.1, h.2.1 hobserved⟩,
        fun h => ⟨h.2.1, fun _ => h.2.2, fun he => Bool.noConfusion (hobserved.symm.trans he)⟩⟩
    | execution events =>
      have hdeficient := deficient_of_not_observed hobserved
      refine ⟨fun h => ⟨covered_of_not_observed hobserved, h.1, h.2.1 hdeficient⟩,
        fun h => ⟨h.2.1, fun _ => h.2.2, fun hsound hne => ?_⟩⟩
      exact absurd hdeficient (not_or.mpr ⟨hsound, hne⟩)
  | true =>
    rw [← observed_ok_iff hobserved]
    cases evidence with
    | built manifest =>
      refine ⟨fun h => ⟨trivial, h.1⟩, fun h => ⟨h.2, fun he => ?_,
        fun _ => observed_access hobserved h.2⟩⟩
      exact Bool.noConfusion (hobserved.symm.trans he)
    | execution events =>
      obtain ⟨hne, hcomplete, hdistinct, hacyclic, hproven⟩ := observed_execution_iff.mp hobserved
      constructor
      · intro h
        refine ⟨fun _ _ _ hmissing => ?_, h.1⟩
        exact absurd (h.2.1 (.inl (.inl hmissing))) (not_kept_of_observed hobserved)
      · intro h
        have hnone : ¬∃ event, Uncompleted events event := by
          intro hmissing
          obtain ⟨tensor, index, event, hlast, hevent, hmiss⟩ :=
            h.1 hcomplete hdistinct hacyclic hmissing
          exact hmiss (hproven tensor index event hlast hevent)
        have hsound : ¬(Deficient events traceComplete ∨ requested events = []) := by
          rintro ((hmissing | hrepeat | hcycle | htrace) | hempty)
          · exact hnone hmissing
          · exact hrepeat hdistinct
          · exact hacyclic hcycle
          · exact Bool.noConfusion (hcomplete.symm.trans htrace)
          · exact hne hempty
        refine ⟨h.2, fun hbad => absurd hbad hsound, fun _ _ => ?_⟩
        rw [observed_access hobserved h.2]
        exact ofExecution_map

/-! ## Histories -/

/-- Splitting a capture into executions is what the code does with it. -/
theorem observe_eq (build : Build) (observation : Observation) :
    observe build observation = forM observation.updates (apply build) := by
  cases observation with
  | update evidence traceComplete =>
    exact (bind_pure (update build evidence.graph traceComplete)).symm
  | trace events traceComplete =>
    rw [observe, updateFromTrace, Observation.updates, executions]
    split
    next => exact (bind_pure (countIncomplete build)).symm
    next =>
      rw [List.map_map, List.forM_map]
      rfl

theorem history_eq (build : Build) (history : List Observation) :
    forM history (observe build) = forM (history.flatMap Observation.updates) (apply build) := by
  induction history with
  | nil => rfl
  | cons observation rest ih =>
    rw [List.flatMap_cons, List.forM_append, List.forM_cons, observe_eq, ih]

theorem exists_of_mem_trace {inputs : List (Evidence × Bool)} {e : Update}
    (h : e ∈ Trace.trace (apply build) profile inputs) :
    ∃ before input, e = Trace.step (apply build) before input := by
  induction inputs generalizing profile with
  | nil => cases h
  | cons input rest ih =>
    rcases List.mem_cons.mp h with rfl | h
    · exact ⟨profile, input, rfl⟩
    · exact ih h

/-- Updates that all return are run one after the other. -/
theorem forM_of_ok {inputs : List (Evidence × Bool)}
    (h : ∀ e ∈ Trace.trace (apply build) profile inputs, e.output = .ok ()) :
    forM inputs (apply build) profile = (.ok (), Trace.final (apply build) profile inputs) := by
  induction inputs generalizing profile with
  | nil => rfl
  | cons input rest ih =>
    have hfirst : (apply build input profile).1 = .ok () := h _ List.mem_cons_self
    have hrun : apply build input profile = (.ok (), (apply build input profile).2) :=
      Prod.ext hfirst rfl
    rw [List.forM_cons, bind_of_ok hrun, ih fun e he => h e (List.mem_cons_of_mem _ he)]
    rfl

/-- The code goes through every update of the history, and each is faithful. -/
def FaithfulHistory (build : Build) (profile : ExecutionProfile) (history : List Observation) : Prop :=
  forM history (observe build) profile =
      (.ok (), Trace.final (apply build) profile (history.flatMap Observation.updates)) ∧
    ∀ e ∈ updates build profile history, Faithful e

/-- Two nodes that read one tensor; only the second is captured as completed. -/
def unfinishedCapture : List TraceEvent :=
  [{ executionId := 1
     nodeId := 10
     nodeName := some "blk.0.attn"
     opName := some "MUL"
     bytes := 4096
     dependencies := ["blk.0.weight"]
     dependencyIds := [7]
     phase := .requested },
   { executionId := 1
     nodeId := 11
     nodeName := some "blk.0.mlp"
     opName := some "MUL"
     bytes := 4096
     dependencies := ["blk.0.weight"]
     dependencyIds := [7]
     phase := .requested },
   { executionId := 1
     nodeId := 11
     nodeName := some "blk.0.mlp"
     opName := some "MUL"
     bytes := 4096
     dependencies := []
     dependencyIds := []
     phase := .completedSynchronized }]

end ExecutionProfile
end Ramforge
