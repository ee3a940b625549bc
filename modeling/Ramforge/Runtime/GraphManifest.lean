/-
A graph manifest from captured trace events, and its last uses.

Requested events become nodes in their order.  Native node ids only resolve the
dependencies inside one capture.
-/
import Ramforge.Rust.BackEdges
import Ramforge.Rust.Grouping
import Ramforge.Runtime.ResidencyInventory

namespace Ramforge

open Std Rust Relation

/-- The phases of a captured event that the manifest looks at; every other phase is
`other`. -/
inductive TracePhase where
  | requested
  | completedSynchronized
  | other
deriving DecidableEq, Repr

structure TraceEvent where
  executionId : Nat
  nodeId : Nat
  nodeName : Option String
  opName : Option String
  bytes : Nat
  dependencies : List String
  dependencyIds : List Nat
  phase : TracePhase
deriving DecidableEq, Repr

/-- The sources of an event: names with node ids. -/
def TraceEvent.sources (event : TraceEvent) : List (String × Nat) :=
  event.dependencies.zip event.dependencyIds

structure GraphNode where
  id : Nat
  nativeId : Nat
  name : Option String
  op : Option String
  bytes : Nat
  dependencies : List Nat
  unresolvedDependencies : List String
  layer : Option Nat
deriving DecidableEq, Repr

inductive LastUseStatus where
  | graphOrderOnly
  | unknown
deriving DecidableEq, Repr

structure LastUse where
  nodeIndex : Nat
  nodeName : Option String
  status : LastUseStatus
  completionProven : Bool
  reuseUnknown : Bool
deriving DecidableEq, Repr

structure GraphManifest where
  executionId : Option Nat
  nodes : List GraphNode
  tensorToNodes : ExtTreeMap String (List Nat) compare
  lastUse : ExtTreeMap String LastUse compare
  edgesKnown : Bool
  completionProven : Bool
  intraDecodeSafe : Bool

namespace GraphManifest

def layerFromName (name : String) : Option Nat :=
  if Text.startsWith name "blk." then
    let rest := (Text.dropLen name "blk.").toList
    let number := rest.takeWhile (· ≠ '.')
    match rest.drop number.length with
    | [] => none
    | _ :: suffix => if suffix = [] then none else parseU32 number
  else none

def requested (events : List TraceEvent) : List TraceEvent :=
  events.filter fun event => event.phase = .requested

def completedIds (events : List TraceEvent) : List Nat :=
  (events.filter fun event => event.phase = .completedSynchronized).map TraceEvent.nodeId

/-- `id_to_node`, and whether every id was new. -/
def idToNode (requested : List TraceEvent) : ExtTreeMap Nat Nat compare × Bool :=
  Grouping.index (requested.map TraceEvent.nodeId)

def graphNode (ids : ExtTreeMap Nat Nat compare) (id : Nat) (event : TraceEvent) : GraphNode where
  id := id
  nativeId := event.nodeId
  name := event.nodeName
  op := event.opName
  bytes := event.bytes
  dependencies := event.sources.filterMap fun source => ids[source.2]?
  unresolvedDependencies :=
    (event.sources.filter fun source => ids[source.2]?.isNone).map Prod.fst
  layer := event.nodeName.bind layerFromName

/-- The tensors the nodes name, in the order of the loop. -/
def consumers (requested : List TraceEvent) : List (String × Nat) :=
  requested.zipIdx.flatMap fun node => node.1.sources.map fun source => (source.1, node.2)

/-- `none` for a tensor without consumers. -/
def lastUseOf (edgesKnown : Bool) (completed : List Nat) (nodes : List GraphNode)
    (consumers : List Nat) : Option LastUse :=
  consumers.max?.bind fun nodeIndex => nodes[nodeIndex]?.map fun node =>
    let completionProven := completed.contains node.nativeId
    { nodeIndex
      nodeName := node.name
      status := if edgesKnown && completionProven then .graphOrderOnly else .unknown
      completionProven
      reuseUnknown := true }

def fromTrace (events : List TraceEvent) : GraphManifest :=
  let requested := requested events
  let ids := idToNode requested
  let nodes := requested.mapIdx (graphNode ids.1)
  let tensorToNodes := Grouping.group (consumers requested)
  let lastUse := tensorToNodes.filterMap fun _ =>
    lastUseOf ids.2 (completedIds events) nodes
  { executionId := requested.head?.map TraceEvent.executionId
    nodes
    tensorToNodes
    lastUse
    edgesKnown := ids.2
    completionProven := lastUse.toList.all fun entry => entry.2.completionProven
    intraDecodeSafe := false }

def dependencies (manifest : GraphManifest) (node : Nat) : List Nat :=
  (manifest.nodes[node]?.map GraphNode.dependencies).getD []

/-- The dependency back edges of a depth-first search from each node in turn. -/
def dependencyCycles (manifest : GraphManifest) : Nat :=
  (BackEdges.search manifest.dependencies manifest.nodes.length).cycles

/-- The nodes of a manifest have a dependency cycle. -/
def Cyclic (manifest : GraphManifest) : Prop :=
  BackEdges.Cyclic manifest.dependencies manifest.nodes.length

theorem dependencyCycles_eq_zero_iff (manifest : GraphManifest) :
    manifest.dependencyCycles = 0 ↔ ¬manifest.Cyclic :=
  BackEdges.search_cycles_eq_zero_iff _ _

/-- The search with a recursion that stops at a depth; `none` where it is cut short. -/
def dependencyCyclesIn (manifest : GraphManifest) (depth : Nat) : Option Nat :=
  (BackEdges.searchIn manifest.dependencies manifest.nodes.length depth).map
    BackEdges.Search.cycles

/-- How many dependencies the nodes have together. -/
def edges (manifest : GraphManifest) : Nat :=
  (manifest.nodes.map fun node => node.dependencies.length).sum

/-- The search ends with one count at every depth that is enough, no edge is counted twice,
and the count is 0 exactly where there is no cycle. -/
theorem dependencyCycles_exact (manifest : GraphManifest) :
    (∀ depth, manifest.nodes.length ≤ depth →
        manifest.dependencyCyclesIn depth = some manifest.dependencyCycles) ∧
      manifest.dependencyCycles ≤ manifest.edges ∧
      (manifest.dependencyCycles = 0 ↔ ¬manifest.Cyclic) := by
  refine ⟨fun depth hdepth => ?_, ?_, manifest.dependencyCycles_eq_zero_iff⟩
  · rw [dependencyCyclesIn, BackEdges.searchIn_eq _ hdepth, Option.map_some, dependencyCycles]
  · refine Nat.le_trans (BackEdges.search_cycles_le _ _) (Nat.le_of_eq ?_)
    rw [Finset.sum_range, edges, ← Fin.sum_univ_fun_getElem]
    refine Finset.sum_congr rfl fun node _ => ?_
    rw [dependencies, List.getElem?_eq_getElem node.isLt, Option.map_some, Option.getD_some]

/-! ## What a capture says

These are about the events alone.  A node is a Requested event, and its index counts
the Requested events before it. -/

/-- The node at `index` lists the tensor. -/
def Lists (events : List TraceEvent) (tensor : String) (index : Nat) : Prop :=
  ∃ event, (requested events)[index]? = some event ∧ tensor ∈ event.sources.map Prod.fst

/-- A node whose completion was not captured. -/
def Uncompleted (events : List TraceEvent) (event : TraceEvent) : Prop :=
  event ∈ requested events ∧ event.nodeId ∉ completedIds events

def DistinctIds (events : List TraceEvent) : Prop :=
  ((requested events).map TraceEvent.nodeId).Nodup

/-- A node with the id `a` has a source that is a node with the id `b`. -/
def Depends (events : List TraceEvent) (a b : Nat) : Prop :=
  (∃ event ∈ requested events, event.nodeId = a ∧ b ∈ event.sources.map Prod.snd) ∧
    ∃ event ∈ requested events, event.nodeId = b

def HasCycle (events : List TraceEvent) : Prop := ∃ a, TransGen (Depends events) a a

/-- The greatest index of a node that lists the tensor. -/
def LastConsumer (events : List TraceEvent) (tensor : String) (index : Nat) : Prop :=
  Lists events tensor index ∧ ∀ other, Lists events tensor other → other ≤ index

variable {events : List TraceEvent} {tensor : String} {index : Nat}

/-! ## What the manifest records of it -/

theorem mem_consumers : (tensor, index) ∈ consumers (requested events) ↔ Lists events tensor index := by
  simp only [consumers, List.mem_flatMap, List.mem_map, Prod.mk.injEq, Lists]
  constructor
  · rintro ⟨⟨event, i⟩, hmem, source, hsource, rfl, rfl⟩
    exact ⟨event, List.mem_zipIdx_iff_getElem?.mp hmem, source, hsource, rfl⟩
  · rintro ⟨event, hget, source, hsource, rfl⟩
    exact ⟨(event, index), List.mem_zipIdx_iff_getElem?.mpr hget, source, hsource, rfl, rfl⟩

theorem tensorToNodes_get {indices : List Nat} :
    (fromTrace events).tensorToNodes[tensor]? = some indices ↔
      indices = Grouping.valuesAt tensor (consumers (requested events)) ∧ indices ≠ [] :=
  Grouping.getElem?_group_eq_some

theorem mem_indices {indices : List Nat}
    (h : (fromTrace events).tensorToNodes[tensor]? = some indices) :
    index ∈ indices ↔ Lists events tensor index := by
  rw [(tensorToNodes_get.mp h).1, Grouping.mem_valuesAt, mem_consumers]

/-- A tensor has an entry exactly where a node lists it. -/
theorem exists_indices (h : Lists events tensor index) :
    ∃ indices, (fromTrace events).tensorToNodes[tensor]? = some indices := by
  refine ⟨_, tensorToNodes_get.mpr ⟨rfl, ?_⟩⟩
  have hmem := Grouping.mem_valuesAt.mpr (mem_consumers.mpr h)
  exact List.ne_nil_of_mem hmem

@[simp] theorem nodes_get : (fromTrace events).nodes[index]? =
    (requested events)[index]?.map (graphNode (idToNode (requested events)).1 index) := by
  rw [fromTrace, List.getElem?_mapIdx]

@[simp] theorem length_nodes : (fromTrace events).nodes.length = (requested events).length := by
  rw [fromTrace, List.length_mapIdx]

theorem edgesKnown_iff : (fromTrace events).edgesKnown = true ↔ DistinctIds events :=
  Grouping.index_distinct

theorem executionId_isNone : (fromTrace events).executionId = none ↔ requested events = [] := by
  rw [fromTrace, Option.map_eq_none_iff, List.head?_eq_none_iff]

theorem max?_iff {indices : List Nat}
    (h : (fromTrace events).tensorToNodes[tensor]? = some indices) :
    indices.max? = some index ↔ LastConsumer events tensor index := by
  rw [List.max?_eq_some_iff, mem_indices h]
  exact and_congr_right fun _ => forall_congr' fun other => imp_congr_left (mem_indices h)

theorem lastUse_get {use : LastUse} :
    (fromTrace events).lastUse[tensor]? = some use ↔
      ∃ indices, (fromTrace events).tensorToNodes[tensor]? = some indices ∧
        lastUseOf (fromTrace events).edgesKnown (completedIds events) (fromTrace events).nodes
          indices = some use := by
  show (ExtTreeMap.filterMap _ (fromTrace events).tensorToNodes)[tensor]? = some use ↔ _
  rw [ExtTreeMap.getElem?_filterMap', Option.bind_eq_some_iff]
  rfl

/-- Completion is proven where the last consumer of every tensor completed. -/
theorem completionProven_iff : (fromTrace events).completionProven = true ↔
    ∀ tensor index event, LastConsumer events tensor index →
      (requested events)[index]? = some event → event.nodeId ∈ completedIds events := by
  have hall : (fromTrace events).completionProven = true ↔
      ∀ (tensor : String) (use : LastUse), (fromTrace events).lastUse[tensor]? = some use →
        use.completionProven = true := by
    show ((fromTrace events).lastUse.toList.all fun entry => entry.2.completionProven) = true ↔ _
    simp only [List.all_eq_true, Prod.forall, ExtTreeMap.mem_toList_iff_getElem?_eq_some]
  rw [hall]
  constructor
  · intro h tensor index event hlast hevent
    obtain ⟨indices, hindices⟩ := exists_indices hlast.1
    have hmax := (max?_iff hindices).mpr hlast
    have huse := h tensor _ (lastUse_get.mpr ⟨indices, hindices, by
      rw [lastUseOf, hmax, Option.bind_some, nodes_get, hevent, Option.map_some, Option.map_some]⟩)
    exact List.contains_iff_mem.mp huse
  · intro h tensor use huse
    obtain ⟨indices, hindices, hlast⟩ := lastUse_get.mp huse
    rw [lastUseOf, Option.bind_eq_some_iff] at hlast
    obtain ⟨index, hmax, hnode⟩ := hlast
    rw [nodes_get, Option.map_map, Option.map_eq_some_iff] at hnode
    obtain ⟨event, hevent, rfl⟩ := hnode
    exact List.contains_iff_mem.mpr (h tensor index event ((max?_iff hindices).mp hmax) hevent)

/-! ## The dependency graph -/

theorem idToNode_get {id : Nat} (h : (idToNode (requested events)).1[id]? = some index) :
    ∃ event, (requested events)[index]? = some event ∧ event.nodeId = id := by
  have hget := Grouping.index_get h
  rwa [List.getElem?_map, Option.map_eq_some_iff] at hget

theorem mem_dependencies {d : Nat} : d ∈ (fromTrace events).dependencies index ↔
    ∃ event, (requested events)[index]? = some event ∧
      ∃ id ∈ event.sources.map Prod.snd, (idToNode (requested events)).1[id]? = some d := by
  rw [dependencies, nodes_get]
  cases hevent : (requested events)[index]? with
  | none => simp
  | some event =>
    simp only [graphNode, Option.map_some, Option.getD_some, List.mem_filterMap, List.mem_map,
      Option.some.injEq, exists_eq_left', exists_exists_and_eq_and]

theorem idToNode_of_distinct (hdistinct : DistinctIds events) {event : TraceEvent}
    (hevent : (requested events)[index]? = some event) :
    (idToNode (requested events)).1[event.nodeId]? = some index := by
  have hmem : event.nodeId ∈ (requested events).map TraceEvent.nodeId :=
    List.mem_map_of_mem (List.mem_of_getElem? hevent)
  have hsome : ((idToNode (requested events)).1[event.nodeId]?).isSome = true :=
    Grouping.index_isSome.mpr hmem
  obtain ⟨j, hj⟩ := Option.isSome_iff_exists.mp hsome
  obtain ⟨other, hother, hid⟩ := idToNode_get hj
  have hlt : index < ((requested events).map TraceEvent.nodeId).length := by
    rw [List.length_map]
    exact (List.getElem?_eq_some_iff.mp hevent).1
  have heq : index = j := by
    refine (List.getElem?_inj hlt hdistinct).mp ?_
    rw [List.getElem?_map, List.getElem?_map, hevent, hother, Option.map_some, Option.map_some, hid]
  rw [heq, hj]

/-- With distinct ids the indices of the nodes depend on each other as their ids do. -/
theorem cyclic_iff (hdistinct : DistinctIds events) :
    (fromTrace events).Cyclic ↔ HasCycle events := by
  constructor
  · rintro ⟨a, ha⟩
    refine ⟨_, TransGen.lift (fun i => (((requested events)[i]?).map TraceEvent.nodeId).getD 0)
      (fun i j hedge => ?_) a a ha⟩
    obtain ⟨event, hevent, id, hid, hj⟩ := mem_dependencies.mp hedge.2.2
    obtain ⟨other, hother, rfl⟩ := idToNode_get hj
    show Depends events (((requested events)[i]?.map TraceEvent.nodeId).getD 0)
      (((requested events)[j]?.map TraceEvent.nodeId).getD 0)
    rw [hevent, hother]
    exact ⟨⟨event, List.mem_of_getElem? hevent, rfl, hid⟩, other, List.mem_of_getElem? hother, rfl⟩
  · rintro ⟨a, ha⟩
    refine ⟨_, TransGen.lift (fun id => ((idToNode (requested events)).1[id]?).getD 0)
      (fun a b hedge => ?_) a a ha⟩
    obtain ⟨⟨event, hmem, rfl, hsource⟩, other, hmem', rfl⟩ := hedge
    obtain ⟨i, hi⟩ := List.mem_iff_getElem?.mp hmem
    obtain ⟨j, hj⟩ := List.mem_iff_getElem?.mp hmem'
    have hidj := idToNode_of_distinct hdistinct hj
    show BackEdges.Edge _ _ ((idToNode (requested events)).1[event.nodeId]?.getD 0)
      ((idToNode (requested events)).1[other.nodeId]?.getD 0)
    rw [idToNode_of_distinct hdistinct hi, hidj]
    refine ⟨?_, ?_, mem_dependencies.mpr ⟨event, hi, _, hsource, hidj⟩⟩
    · rw [length_nodes]
      exact (List.getElem?_eq_some_iff.mp hi).1
    · rw [length_nodes]
      exact (List.getElem?_eq_some_iff.mp hj).1

end GraphManifest
end Ramforge
