/-
The consumers of tensors in a manifest, over every capture.

The names and the ids of an event's dependencies come in two lists that are zipped.  A name
without an id is dropped, and its tensor is then short of a consumer.
-/
import Ramforge.Runtime.GraphManifest

namespace Ramforge
namespace GraphManifest

open Std Rust

/-- The node at `index` has the tensor among its dependencies. -/
def Names (events : List TraceEvent) (tensor : String) (index : Nat) : Prop :=
  ∃ event, (requested events)[index]? = some event ∧ tensor ∈ event.dependencies

/-- A node with the id of the source. -/
def Leads (events : List TraceEvent) (source : String × Nat) (target : Nat) : Prop :=
  ∃ event, (requested events)[target]? = some event ∧ event.nodeId = source.2

/-- Every dependency of the node is an edge to a node with its id, or unresolved. -/
structure Recorded (events : List TraceEvent) (event : TraceEvent) (node : GraphNode) : Prop where
  count : node.dependencies.length + node.unresolvedDependencies.length = event.dependencies.length
  source : ∀ source ∈ event.sources,
    (∃ target ∈ node.dependencies, Leads events source target) ∨
      source.1 ∈ node.unresolvedDependencies

/-- What the analysis is to say of the capture. -/
structure Analyzed (events : List TraceEvent) (manifest : GraphManifest) : Prop where
  keys : ∀ tensor index, Names events tensor index →
    manifest.tensorToNodes[tensor]?.isSome ∧ manifest.lastUse[tensor]?.isSome
  indices : ∀ (tensor : String) (indices : List Nat), manifest.tensorToNodes[tensor]? = some indices →
    ∀ index, index ∈ indices ↔ Names events tensor index
  last : ∀ (tensor : String) (use : LastUse), manifest.lastUse[tensor]? = some use →
    IsGreatest {index | Names events tensor index} use.nodeIndex
  recorded : ∀ (index : Nat) (event : TraceEvent) (node : GraphNode), (requested events)[index]? = some event →
    manifest.nodes[index]? = some node → Recorded events event node
  ordered : ∀ (tensor : String) (use : LastUse), manifest.lastUse[tensor]? = some use → use.status = .graphOrderOnly →
    DistinctIds events ∧ ∀ event, (requested events)[use.nodeIndex]? = some event →
      event.nodeId ∈ completedIds events

variable {events : List TraceEvent} {tensor : String} {index : Nat}

/-! ## One node -/

theorem length_sources (event : TraceEvent) :
    event.sources.length = min event.dependencies.length event.dependencyIds.length :=
  List.length_zip

theorem names_sources {event : TraceEvent}
    (h : event.dependencies.length ≤ event.dependencyIds.length) :
    event.sources.map Prod.fst = event.dependencies :=
  List.map_fst_zip h

/-- An edge or an unresolved name for each source, and nothing else. -/
theorem length_graphNode (ids : ExtTreeMap Nat Nat compare) (event : TraceEvent) :
    (graphNode ids index event).dependencies.length +
        (graphNode ids index event).unresolvedDependencies.length =
      min event.dependencies.length event.dependencyIds.length := by
  rw [← length_sources]
  show (event.sources.filterMap fun source => ids[source.2]?).length +
    ((event.sources.filter fun source => ids[source.2]?.isNone).map Prod.fst).length = _
  induction event.sources with
  | nil => rfl
  | cons source rest ih =>
    cases hid : ids[source.2]? with
    | none =>
      simp only [List.filterMap_cons, List.filter_cons, hid, Option.isNone_none, if_true,
        List.map_cons, List.length_cons, ← ih]
      omega
    | some target =>
      simp only [List.filterMap_cons, List.filter_cons, hid, Option.isNone_some,
        Bool.false_eq_true, if_false, List.length_cons, ← ih]
      omega

theorem source_graphNode {event : TraceEvent} {source : String × Nat}
    (h : source ∈ event.sources) :
    (∃ target ∈ (graphNode (idToNode (requested events)).1 index event).dependencies,
        Leads events source target) ∨
      source.1 ∈ (graphNode (idToNode (requested events)).1 index event).unresolvedDependencies := by
  cases hid : (idToNode (requested events)).1[source.2]? with
  | some target => exact .inl ⟨target, List.mem_filterMap.mpr ⟨source, h, hid⟩, idToNode_get hid⟩
  | none =>
    refine .inr (List.mem_map_of_mem (List.mem_filter.mpr ⟨h, ?_⟩))
    rw [hid]
    rfl

theorem recorded_iff {event : TraceEvent} :
    Recorded events event (graphNode (idToNode (requested events)).1 index event) ↔
      event.dependencies.length ≤ event.dependencyIds.length := by
  refine ⟨fun h => ?_, fun h => ⟨?_, fun source hsource => source_graphNode hsource⟩⟩
  · have hcount := h.count
    rw [length_graphNode] at hcount
    omega
  · rw [length_graphNode]
    omega

/-! ## The last use -/

theorem lastUse_spec {use : LastUse} (h : (fromTrace events).lastUse[tensor]? = some use) :
    LastConsumer events tensor use.nodeIndex ∧ (use.status = .graphOrderOnly →
      DistinctIds events ∧ ∀ event, (requested events)[use.nodeIndex]? = some event →
        event.nodeId ∈ completedIds events) := by
  obtain ⟨indices, hindices, huse⟩ := lastUse_get.mp h
  rw [lastUseOf, Option.bind_eq_some_iff] at huse
  obtain ⟨nodeIndex, hmax, hnode⟩ := huse
  rw [nodes_get, Option.map_map, Option.map_eq_some_iff] at hnode
  obtain ⟨event, hevent, rfl⟩ := hnode
  refine ⟨(max?_iff hindices).mp hmax, fun hstatus => ?_⟩
  have hboth : ((fromTrace events).edgesKnown && (completedIds events).contains event.nodeId) =
      true := by
    by_contra hneither
    have hunknown : (if (fromTrace events).edgesKnown && (completedIds events).contains event.nodeId
        then LastUseStatus.graphOrderOnly else .unknown) = .graphOrderOnly := hstatus
    rw [if_neg hneither] at hunknown
    cases hunknown
  rw [Bool.and_eq_true] at hboth
  refine ⟨edgesKnown_iff.mp hboth.1, fun other hother => ?_⟩
  cases hevent.symm.trans hother
  exact List.contains_iff_mem.mp hboth.2

theorem lastUse_isSome (h : Lists events tensor index) :
    ((fromTrace events).lastUse[tensor]?).isSome := by
  obtain ⟨indices, hindices⟩ := exists_indices h
  obtain ⟨last, hmax⟩ : ∃ last, indices.max? = some last := by
    rw [← Option.isSome_iff_exists, List.isSome_max?_iff]
    exact (tensorToNodes_get.mp hindices).2
  obtain ⟨event, hevent, -⟩ := ((max?_iff hindices).mp hmax).1
  obtain ⟨use, huse⟩ : ∃ use, lastUseOf (fromTrace events).edgesKnown (completedIds events)
      (fromTrace events).nodes indices = some use := by
    rw [lastUseOf, hmax, Option.bind_some, nodes_get, hevent, Option.map_some, Option.map_some]
    exact ⟨_, rfl⟩
  exact Option.isSome_iff_exists.mpr ⟨use, lastUse_get.mpr ⟨indices, hindices, huse⟩⟩

/-! ## The whole capture -/

/-- Every dependency that is named has an id. -/
def Paired (events : List TraceEvent) : Prop :=
  ∀ event ∈ requested events, event.dependencies.length ≤ event.dependencyIds.length

theorem names_iff (h : Paired events) : Names events tensor index ↔ Lists events tensor index := by
  refine exists_congr fun event => and_congr_right fun hevent => ?_
  rw [names_sources (h event (List.mem_of_getElem? hevent))]

theorem analyzed_of_paired (h : Paired events) : Analyzed events (fromTrace events) where
  keys tensor index hnames := by
    have hlists := (names_iff h).mp hnames
    exact ⟨Option.isSome_iff_exists.mpr (exists_indices hlists), lastUse_isSome hlists⟩
  indices tensor indices hindices index := by rw [mem_indices hindices, names_iff h]
  last tensor use huse := by
    have hlast := (lastUse_spec huse).1
    exact ⟨(names_iff h).mpr hlast.1, fun other hother => hlast.2 other ((names_iff h).mp hother)⟩
  recorded index event node hevent hnode := by
    rw [nodes_get, hevent, Option.map_some, Option.some.injEq] at hnode
    rw [← hnode]
    exact recorded_iff.mpr (h event (List.mem_of_getElem? hevent))
  ordered tensor use huse := (lastUse_spec huse).2

/-- A capture is analysed in full exactly where its names all have ids, and the ids are all
recorded exactly where they all have names. -/
theorem fromTrace_analyzed_iff (events : List TraceEvent) :
    (Analyzed events (fromTrace events) ↔ Paired events) ∧
      ((∀ (index : Nat) (event : TraceEvent) (node : GraphNode), (requested events)[index]? = some event →
          (fromTrace events).nodes[index]? = some node →
          node.dependencies.length + node.unresolvedDependencies.length =
            event.dependencyIds.length) ↔
        ∀ event ∈ requested events, event.dependencyIds.length ≤ event.dependencies.length) := by
  refine ⟨⟨fun h event hmem => ?_, analyzed_of_paired⟩, fun h event hmem => ?_,
    fun h index event node hevent hnode => ?_⟩
  · obtain ⟨index, hevent⟩ := List.mem_iff_getElem?.mp hmem
    have hnode : (fromTrace events).nodes[index]? =
        some (graphNode (idToNode (requested events)).1 index event) := by
      rw [nodes_get, hevent, Option.map_some]
    exact recorded_iff.mp (h.recorded index event _ hevent hnode)
  · obtain ⟨index, hevent⟩ := List.mem_iff_getElem?.mp hmem
    have hnode : (fromTrace events).nodes[index]? =
        some (graphNode (idToNode (requested events)).1 index event) := by
      rw [nodes_get, hevent, Option.map_some]
    have hcount := h index event _ hevent hnode
    rw [length_graphNode] at hcount
    omega
  · rw [nodes_get, hevent, Option.map_some, Option.some.injEq] at hnode
    have hle := h event (List.mem_of_getElem? hevent)
    rw [← hnode, length_graphNode]
    omega

/-! ## A consumer that is dropped -/

def sampleEvent (nodeId : Nat) (dependencies : List String) (dependencyIds : List Nat)
    (phase : TracePhase) : TraceEvent where
  executionId := 1
  nodeId := nodeId
  nodeName := none
  opName := none
  bytes := 4096
  dependencies := dependencies
  dependencyIds := dependencyIds
  phase := phase

/-- Two nodes use the tensor, and the second gives no id for it. -/
def unpairedCapture : List TraceEvent :=
  [sampleEvent 10 ["blk.0.weight"] [7] .requested, sampleEvent 11 ["blk.0.weight"] [] .requested,
    sampleEvent 10 [] [] .completedSynchronized]

/-- The tensor looks finished after the first node, and the second still uses it. -/
theorem unpairedCapture_misses :
    (fromTrace unpairedCapture).lastUse["blk.0.weight"]? =
        some { nodeIndex := 0, nodeName := none, status := .graphOrderOnly, completionProven := true,
               reuseUnknown := true } ∧
      Names unpairedCapture "blk.0.weight" 1 ∧
      ¬Analyzed unpairedCapture (fromTrace unpairedCapture) := by
  have hnames : Names unpairedCapture "blk.0.weight" 1 := ⟨_, rfl, List.mem_singleton_self _⟩
  have huse : (fromTrace unpairedCapture).lastUse["blk.0.weight"]? =
      some { nodeIndex := 0, nodeName := none, status := .graphOrderOnly, completionProven := true,
             reuseUnknown := true } := by decide +kernel
  exact ⟨huse, hnames, fun h => absurd ((h.last _ _ huse).2 hnames) (by decide)⟩

end GraphManifest
end Ramforge
