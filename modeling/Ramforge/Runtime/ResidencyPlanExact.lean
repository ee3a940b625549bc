/-
What a residency plan says: a decision for each resource, and the shortest front of the
candidates that covers the excess.

The bytes of the selected resources are added without a check.
-/
import Mathlib.Data.List.Perm.Basic
import Ramforge.Rust.Covering
import Ramforge.Rust.KeyMove
import Ramforge.Runtime.ResidencyPlanner

namespace Ramforge
namespace Planner

open Std Rust Rust.Covering

/-! ## The order of the candidates -/

section order

variable {profile : Option ExecutionProfile} {profileUsed : Bool}

/-- The order of last use, where a profile is used. -/
def reuseOrder (profile : Option ExecutionProfile) (profileUsed : Bool) (a b : ResourceDecision) :
    Ordering :=
  if profileUsed then
    compare ((profile.bind fun profile => profile.lastOrder a.name).getD 0)
      ((profile.bind fun profile => profile.lastOrder b.name).getD 0)
  else .eq

instance : TransCmp (reuseOrder profile profileUsed) := by
  cases profileUsed with
  | true =>
    exact inferInstanceAs (TransCmp (compareOn fun d : ResourceDecision =>
      (profile.bind fun profile => profile.lastOrder d.name).getD 0))
  | false => exact inferInstanceAs (TransCmp (compareOn fun _ : ResourceDecision => 0))

/-- The part of the order below last use. -/
def sizeOrder (a b : ResourceDecision) : Ordering :=
  (compare b.estimatedReclaimBytes a.estimatedReclaimBytes).then <|
  (compare a.layer.sortKey.1 b.layer.sortKey.1).then <|
  (compare a.layer.sortKey.2 b.layer.sortKey.2).then <|
  compare a.key.tensorIndex b.key.tensorIndex

instance : TransCmp sizeOrder :=
  inferInstanceAs (TransCmp (compareLex
    (fun a b => compareOn ResourceDecision.estimatedReclaimBytes b a)
    (compareLex (compareOn fun d : ResourceDecision => d.layer.sortKey.1)
      (compareLex (compareOn fun d : ResourceDecision => d.layer.sortKey.2)
        (compareOn fun d : ResourceDecision => d.key.tensorIndex)))))

instance : TransCmp (candidateOrder profile profileUsed) :=
  inferInstanceAs (TransCmp (compareLex
    (compareOn fun d : ResourceDecision => decide (0 < d.sharedPageBytes))
    (compareLex (reuseOrder profile profileUsed) sizeOrder)))

instance : Std.Total (candidateLe profile profileUsed) :=
  ⟨isLE_total (candidateOrder profile profileUsed)⟩

instance : IsTrans ResourceDecision (candidateLe profile profileUsed) :=
  ⟨fun _ _ _ hab hbc => TransCmp.isLE_trans hab hbc⟩

end order

/-! ## Candidates -/

variable {build : Build} {planner : Planner} {policy : ResidencyPolicy} {context : OperationContext}
  {need reclaim : Nat} {resource : TensorResource} {observedBytes : Option Nat}
  {profile : Option ExecutionProfile}

/-- The candidates are the eligible resources, less the shared ones under the conservative
policy, where there is a need at all. -/
theorem retainReason_eq_none : planner.retainReason policy context need resource = none ↔
    Eligible planner policy context resource ∧
      (policy.mode = .conservative → resource.sharedPageBytes = 0) ∧ need ≠ 0 := by
  refine ⟨fun h => ⟨eligible_of_candidate h, ?_⟩, fun h => ?_⟩
  · rw [retainReason] at h
    simp only [ite_some_eq_none, not_and] at h
    obtain ⟨-, -, -, -, -, -, -, -, -, -, hshared, hneed, -⟩ := h
    exact ⟨fun hmode => Nat.eq_zero_of_not_pos (hshared hmode), hneed⟩
  · obtain ⟨heligible, hshared, hneed⟩ := h
    rw [retainReason]
    simp only [ite_some_eq_none, not_and, not_or, not_not]
    have hlifetime := heligible.releasable
    exact ⟨heligible.mode, heligible.not_required, heligible.not_pinned, heligible.fileBacked,
      (by rw [hlifetime]; decide), (by rw [hlifetime]; decide), heligible.guarded, heligible.pages,
      heligible.not_attempted, heligible.unshared,
      fun hmode => (by rw [hshared hmode]; exact Nat.lt_irrefl 0), hneed, trivial⟩

theorem mem_candidates {candidate : ResourceDecision} :
    candidate ∈ planner.candidates policy context need ↔
      ∃ resource ∈ planner.inventory.resources,
        planner.retainReason policy context need resource = none ∧
          decisionOf resource .eligibleButNotNeeded = candidate := by
  rw [candidates, List.mem_filterMap]
  refine exists_congr fun resource => and_congr_right fun _ => ?_
  split
  next h => simp [h]
  next h => simp [h]

/-! ## Decisions -/

/-- The decision before it is made. -/
def undecided (decision : ResourceDecision) : ResourceDecision :=
  { decision with action := .retain, reason := .eligibleButNotNeeded }

def releaseOf (candidate : ResourceDecision) : ResourceDecision :=
  { candidate with action := .release, reason := .selectedEligible }

def keepOf (candidate : ResourceDecision) : ResourceDecision :=
  { candidate with reason := .eligibleButNotNeeded }

def released (decisions : List ResourceDecision) : List ResourceDecision :=
  decisions.filter fun decision => decision.action = .release

@[simp] theorem undecided_decisionOf (resource : TensorResource) (reason : DecisionReason) :
    undecided (decisionOf resource reason) = decisionOf resource .eligibleButNotNeeded := rfl

@[simp] theorem undecided_releaseOf (candidate : ResourceDecision) :
    undecided (releaseOf candidate) = undecided candidate := rfl

@[simp] theorem undecided_keepOf (candidate : ResourceDecision) :
    undecided (keepOf candidate) = undecided candidate := rfl

theorem released_append (l l' : List ResourceDecision) :
    released (l ++ l') = released l ++ released l' :=
  List.filter_append ..

theorem released_cons_releaseOf (candidate : ResourceDecision) (l : List ResourceDecision) :
    released (releaseOf candidate :: l) = releaseOf candidate :: released l :=
  List.filter_cons_of_pos (decide_eq_true (rfl : (releaseOf candidate).action = .release))

theorem released_of_retained {l : List ResourceDecision} (h : ∀ d ∈ l, d.action = .retain) :
    released l = [] := by
  refine List.filter_eq_nil_iff.mpr fun d hd => ?_
  rw [h d hd]
  decide

theorem released_map_releaseOf (l : List ResourceDecision) :
    released (l.map releaseOf) = l.map releaseOf := by
  refine List.filter_eq_self.mpr fun d hd => ?_
  obtain ⟨candidate, -, rfl⟩ := List.mem_map.mp hd
  rfl

theorem released_map_keepOf {l : List ResourceDecision} (h : ∀ d ∈ l, d.action = .retain) :
    released (l.map keepOf) = [] := by
  refine released_of_retained fun d hd => ?_
  obtain ⟨candidate, hmem, rfl⟩ := List.mem_map.mp hd
  exact h candidate hmem

/-- The rules split the resources: each is retained or a candidate. -/
theorem resources_perm (f : TensorResource → Option DecisionReason) (l : List TensorResource) :
    ((l.filterMap fun resource => (f resource).map (decisionOf resource)).map undecided ++
      l.filterMap fun resource =>
        if f resource = none then some (decisionOf resource .eligibleButNotNeeded) else none).Perm
    (l.map fun resource => decisionOf resource .eligibleButNotNeeded) := by
  induction l with
  | nil => exact List.Perm.nil
  | cons resource rest ih =>
    cases hreason : f resource with
    | none =>
      simp only [List.filterMap_cons, hreason, Option.map_none, if_true, List.map_cons]
      exact List.perm_middle.trans (ih.cons _)
    | some reason =>
      simp only [List.filterMap_cons, hreason, Option.map_some, List.map_cons, List.cons_append,
        undecided_decisionOf, reduceCtorEq, if_false]
      exact ih.cons _

/-! ## The loop over the candidates -/

def sizes (candidates : List ResourceDecision) : List Nat :=
  candidates.map ResourceDecision.estimatedReclaimBytes

/-- Where the bytes of the front fit, the loop releases the front and nothing else. -/
theorem select_of_lt {l : List ResourceDecision}
    (h : reclaim + frontSum (need - reclaim) (sizes l) < u64Bound) :
    select build need l reclaim =
      some ((l.take (frontLength (need - reclaim) (sizes l))).map releaseOf ++
          (l.drop (frontLength (need - reclaim) (sizes l))).map keepOf,
        (l.take (frontLength (need - reclaim) (sizes l))).map ResourceDecision.key,
        reclaim + frontSum (need - reclaim) (sizes l)) := by
  induction l generalizing reclaim with
  | nil => rfl
  | cons candidate rest ih =>
    rw [select]
    by_cases hneed : need - reclaim = 0
    · have hfront := frontLength_zero (sizes rest)
      have hsum := frontSum_zero (sizes rest)
      rw [if_neg (by omega), ih (by rw [hneed, hsum]; rw [hneed, frontSum_zero] at h; exact h), hneed,
        hfront, hsum, frontLength_zero, frontSum_zero]
      rfl
    · have hcons : frontSum (need - reclaim) (sizes (candidate :: rest)) =
          candidate.estimatedReclaimBytes +
            frontSum (need - (reclaim + candidate.estimatedReclaimBytes)) (sizes rest) := by
        rw [sizes, List.map_cons, frontSum_cons hneed, Nat.sub_sub]
        rfl
      have hlength : frontLength (need - reclaim) (sizes (candidate :: rest)) =
          frontLength (need - (reclaim + candidate.estimatedReclaimBytes)) (sizes rest) + 1 := by
        rw [sizes, List.map_cons, frontLength_cons hneed, Nat.sub_sub]
        rfl
      rw [hcons, ← Nat.add_assoc] at h ⊢
      rw [hlength, if_pos (by omega), Build.add_of_lt (by omega), Option.bind_eq_bind,
        Option.bind_some, ih h]
      rfl

theorem select_total_lt {l decisions : List ResourceDecision} {selected : List ResourceKey}
    {total : Nat} (hreclaim : reclaim < u64Bound)
    (h : select build need l reclaim = some (decisions, selected, total)) : total < u64Bound := by
  induction l generalizing reclaim decisions selected total with
  | nil =>
    cases h
    exact hreclaim
  | cons candidate rest ih =>
    rw [select] at h
    split at h
    · obtain ⟨reclaim', hadd, h⟩ := Option.bind_eq_some_iff.mp h
      obtain ⟨⟨decisions', selected', total'⟩, hrest, h⟩ := Option.bind_eq_some_iff.mp h
      cases h
      exact ih (Build.add_lt hadd) hrest
    · obtain ⟨⟨decisions', selected', total'⟩, hrest, h⟩ := Option.bind_eq_some_iff.mp h
      cases h
      exact ih hreclaim hrest

/-- Otherwise the resources it releases have more bytes than a sum holds. -/
theorem select_of_ge {l decisions : List ResourceDecision} {selected : List ResourceKey}
    {total : Nat} (hreclaim : reclaim < u64Bound)
    (h : u64Bound ≤ reclaim + frontSum (need - reclaim) (sizes l))
    (hselect : select build need l reclaim = some (decisions, selected, total)) :
    u64Bound ≤ reclaim + (sizes (released decisions)).sum := by
  induction l generalizing reclaim decisions selected total with
  | nil =>
    rw [sizes, List.map_nil, frontSum, List.take_nil, List.sum_nil] at h
    exact absurd h (Nat.not_le.mpr hreclaim)
  | cons candidate rest ih =>
    have hneed : need - reclaim ≠ 0 := by
      intro hneed
      rw [hneed, frontSum_zero] at h
      exact absurd h (Nat.not_le.mpr hreclaim)
    have hcons : frontSum (need - reclaim) (sizes (candidate :: rest)) =
        candidate.estimatedReclaimBytes +
          frontSum (need - (reclaim + candidate.estimatedReclaimBytes)) (sizes rest) := by
      rw [sizes, List.map_cons, frontSum_cons hneed, Nat.sub_sub]
      rfl
    rw [select, if_pos (by omega)] at hselect
    obtain ⟨next, hnext, hselect⟩ := Option.bind_eq_some_iff.mp hselect
    obtain ⟨⟨decisions', selected', total'⟩, hrest, hselect⟩ := Option.bind_eq_some_iff.mp hselect
    cases hselect
    have hreleased : (sizes (released (releaseOf candidate :: decisions'))).sum =
        candidate.estimatedReclaimBytes + (sizes (released decisions')).sum := by
      rw [released_cons_releaseOf, sizes, List.map_cons, List.sum_cons]
      rfl
    change _ ≤ _ + (sizes (released (releaseOf candidate :: decisions'))).sum
    rw [hreleased]
    by_cases hfits : reclaim + candidate.estimatedReclaimBytes < u64Bound
    · cases hnext.symm.trans (Build.add_of_lt hfits)
      have := ih hfits (by omega) hrest
      omega
    · omega

/-! ## The plan -/

structure ExactPlan (planner : Planner) (policy : ResidencyPolicy) (context : OperationContext)
    (profile : Option ExecutionProfile) (need : Nat) (plan : ResidencyPlan) : Prop where
  /-- One decision for each resource. -/
  decided : (plan.decisions.map undecided).Perm
    (planner.inventory.resources.map fun resource => decisionOf resource .eligibleButNotNeeded)
  eligible : ∀ decision ∈ released plan.decisions, ∃ resource ∈ planner.inventory.resources,
    undecided decision = decisionOf resource .eligibleButNotNeeded ∧
      Eligible planner policy context resource ∧
      (policy.mode = .conservative → resource.sharedPageBytes = 0)
  selected : plan.selected = (released plan.decisions).map ResourceDecision.key
  reclaim : plan.estimatedReclaimBytes = (sizes (released plan.decisions)).sum
  /-- The released resources are the shortest front of the sorted candidates. -/
  shortest : ∃ sorted count, sorted.Perm (planner.candidates policy context need) ∧
    sorted.Pairwise (candidateLe profile (policy.mode = .reuseAware ∧ profile.isSome)) ∧
    Shortest need (sizes sorted) count ∧
    (released plan.decisions).map undecided = sorted.take count
  met : plan.estimatedBudgetMet = true ↔ need ≤ plan.estimatedReclaimBytes

/-- The candidates in the order in which they are released. -/
def sortedCandidates (planner : Planner) (policy : ResidencyPolicy) (context : OperationContext)
    (profile : Option ExecutionProfile) (need : Nat) : List ResourceDecision :=
  (planner.candidates policy context need).insertionSort
    (candidateLe profile (policy.mode = .reuseAware ∧ profile.isSome))

theorem undecided_of_candidate {candidate : ResourceDecision}
    (h : candidate ∈ planner.candidates policy context need) : undecided candidate = candidate := by
  obtain ⟨resource, -, -, rfl⟩ := mem_candidates.mp h
  rfl

theorem map_undecided_of_candidates {l : List ResourceDecision}
    (h : ∀ candidate ∈ l, candidate ∈ planner.candidates policy context need) :
    l.map undecided = l := by
  refine (List.map_congr_left fun candidate hmem => ?_).trans l.map_id
  exact undecided_of_candidate (h candidate hmem)

theorem retained_of_candidates {l : List ResourceDecision}
    (h : ∀ candidate ∈ l, candidate ∈ planner.candidates policy context need) :
    ∀ candidate ∈ l, candidate.action = .retain := by
  intro candidate hmem
  obtain ⟨resource, -, -, rfl⟩ := mem_candidates.mp (h candidate hmem)
  rfl

/-- The sum of the released resources is the excess or more exactly where what is left
is within the target. -/
theorem met_iff (inventory : ResourceInventory) (policy : ResidencyPolicy)
    (observedBytes : Option Nat) (reclaim : Nat) :
    (policy.targetBytes.map (saturatingSub · policy.safetyReserveBytes)).all
        (saturatingSub (observedBytes.getD inventory.summary.pageBytes) reclaim ≤ ·) = true ↔
      excess inventory policy observedBytes ≤ reclaim := by
  unfold excess
  cases policy.targetBytes with
  | none => simp
  | some target =>
    simp only [Option.map_some, Option.all_some, decide_eq_true_eq]
    unfold saturatingSub
    omega

/-- The decisions about the resources that a rule retains. -/
def retainedDecisions (planner : Planner) (policy : ResidencyPolicy) (context : OperationContext)
    (need : Nat) : List ResourceDecision :=
  planner.inventory.resources.filterMap fun resource =>
    (planner.retainReason policy context need resource).map (decisionOf resource)

theorem retained_of_retainedDecisions :
    ∀ decision ∈ retainedDecisions planner policy context need, decision.action = .retain := by
  intro decision hmem
  obtain ⟨resource, -, hreason⟩ := List.mem_filterMap.mp hmem
  obtain ⟨reason, -, rfl⟩ := Option.map_eq_some_iff.mp hreason
  rfl

theorem mem_candidates_of_mem_sorted {candidate : ResourceDecision}
    (h : candidate ∈ sortedCandidates planner policy context profile need) :
    candidate ∈ planner.candidates policy context need :=
  (List.mem_insertionSort _).mp h

theorem released_front (count : Nat) :
    released (retainedDecisions planner policy context need ++
      (((sortedCandidates planner policy context profile need).take count).map releaseOf ++
        ((sortedCandidates planner policy context profile need).drop count).map keepOf)) =
    ((sortedCandidates planner policy context profile need).take count).map releaseOf := by
  have hkept : released (((sortedCandidates planner policy context profile need).drop count).map keepOf) =
      [] :=
    released_map_keepOf (retained_of_candidates fun candidate hmem =>
      mem_candidates_of_mem_sorted (List.mem_of_mem_drop hmem))
  rw [released_append, released_append, released_of_retained retained_of_retainedDecisions,
    released_map_releaseOf, hkept, List.nil_append, List.append_nil]

/-- The decisions about a front of the candidates and the rest. -/
theorem decided_front (count : Nat) :
    ((retainedDecisions planner policy context need ++
      (((sortedCandidates planner policy context profile need).take count).map releaseOf ++
        ((sortedCandidates planner policy context profile need).drop count).map keepOf)).map
          undecided).Perm
    (planner.inventory.resources.map fun resource => decisionOf resource .eligibleButNotNeeded) := by
  have hsorted : (sortedCandidates planner policy context profile need).map undecided =
      sortedCandidates planner policy context profile need :=
    map_undecided_of_candidates fun candidate hmem => mem_candidates_of_mem_sorted hmem
  have hfront : ((((sortedCandidates planner policy context profile need).take count).map releaseOf ++
      ((sortedCandidates planner policy context profile need).drop count).map keepOf).map undecided) =
      sortedCandidates planner policy context profile need := by
    rw [List.map_append, List.map_map, List.map_map]
    calc ((sortedCandidates planner policy context profile need).take count).map undecided ++
          ((sortedCandidates planner policy context profile need).drop count).map undecided
        = (sortedCandidates planner policy context profile need).map undecided := by
          rw [← List.map_append, List.take_append_drop]
      _ = sortedCandidates planner policy context profile need := hsorted
  rw [List.map_append, hfront]
  exact ((List.perm_insertionSort _ _).append_left _).trans (resources_perm _ _)

theorem exactPlan_front {plan : ResidencyPlan} {count : Nat}
    (hcount : Shortest need (sizes (sortedCandidates planner policy context profile need)) count)
    (hdecisions : plan.decisions = retainedDecisions planner policy context need ++
      (((sortedCandidates planner policy context profile need).take count).map releaseOf ++
        ((sortedCandidates planner policy context profile need).drop count).map keepOf))
    (hselected : plan.selected =
      ((sortedCandidates planner policy context profile need).take count).map ResourceDecision.key)
    (hreclaim : plan.estimatedReclaimBytes =
      ((sizes (sortedCandidates planner policy context profile need)).take count).sum)
    (hmet : plan.estimatedBudgetMet = true ↔ need ≤ plan.estimatedReclaimBytes) :
    ExactPlan planner policy context profile need plan := by
  have hreleased : released plan.decisions =
      ((sortedCandidates planner policy context profile need).take count).map releaseOf := by
    rw [hdecisions]
    exact released_front count
  have htake : ∀ candidate ∈ (sortedCandidates planner policy context profile need).take count,
      candidate ∈ planner.candidates policy context need := fun candidate hmem =>
    mem_candidates_of_mem_sorted (List.mem_of_mem_take hmem)
  refine
    { decided := by rw [hdecisions]; exact decided_front count
      eligible := ?_
      selected := by rw [hreleased, hselected, List.map_map]; rfl
      reclaim := ?_
      shortest := ⟨_, count, List.perm_insertionSort _ _, List.pairwise_insertionSort _ _, hcount, ?_⟩
      met := hmet }
  · rw [hreleased]
    intro decision hmem
    obtain ⟨candidate, hcandidate, rfl⟩ := List.mem_map.mp hmem
    obtain ⟨resource, hresource, hreason, rfl⟩ := mem_candidates.mp (htake candidate hcandidate)
    obtain ⟨heligible, hshared, -⟩ := retainReason_eq_none.mp hreason
    exact ⟨resource, hresource, rfl, heligible, hshared⟩
  · rw [hreleased, hreclaim, sizes, sizes, ← List.map_take, List.map_map]
    rfl
  · rw [hreleased, List.map_map]
    exact map_undecided_of_candidates htake

/-- A plan is made that is exact, but where the bytes of the shortest covering front of
the candidates do not fit. -/
theorem planWithProfile_exact_iff (build : Build) (planner : Planner) (policy : ResidencyPolicy)
    (observedBytes : Option Nat) (context : OperationContext) (profile : Option ExecutionProfile) :
    (∃ plan, planWithProfile build planner policy observedBytes context profile = some plan ∧
      ExactPlan planner policy context profile (excess planner.inventory policy observedBytes) plan) ↔
    frontSum (excess planner.inventory policy observedBytes)
      (sizes (sortedCandidates planner policy context profile
        (excess planner.inventory policy observedBytes))) < u64Bound := by
  constructor
  · rintro ⟨plan, hplan, hexact⟩
    by_contra hge
    rw [planWithProfile] at hplan
    obtain ⟨⟨decisions, selected, reclaim⟩, hselect, hplan⟩ := Option.bind_eq_some_iff.mp hplan
    cases hplan
    have hlt := select_total_lt (by decide) hselect
    have hsum := select_of_ge (by decide) (by rw [Nat.sub_zero, Nat.zero_add]; exact Nat.le_of_not_lt hge)
      hselect
    have hreclaim := hexact.reclaim
    have hretained : released (retainedDecisions planner policy context
        (excess planner.inventory policy observedBytes)) = [] :=
      released_of_retained retained_of_retainedDecisions
    change reclaim = (sizes (released (retainedDecisions planner policy context _ ++ decisions))).sum
      at hreclaim
    rw [released_append, hretained, List.nil_append] at hreclaim
    omega
  · intro hlt
    have hfront : 0 + frontSum (excess planner.inventory policy observedBytes - 0)
        (sizes (sortedCandidates planner policy context profile
          (excess planner.inventory policy observedBytes))) < u64Bound := by
      rw [Nat.sub_zero, Nat.zero_add]
      exact hlt
    have hselect := @select_of_lt build _ _ _ hfront
    rw [Nat.sub_zero, Nat.zero_add] at hselect
    exact ⟨_, Option.bind_eq_some_iff.mpr ⟨_, hselect, rfl⟩, exactPlan_front
      (shortest_frontLength _ _) rfl rfl rfl (met_iff planner.inventory policy observedBytes _)⟩

/-! ## Two resources of half the address space -/

def halfMapping (name : String) (index : Nat) : TensorMappingInfo where
  name := name
  fileBacked := true
  mappingIndex := some index
  mappingId := none
  mappingGeneration := none
  filePath := none
  fileSize := none
  mappingSize := 2 ^ 63
  offset := 0
  size := 2 ^ 63
  pageSize := 4096
  pageStart := 0
  pageEnd := 2 ^ 63

def halfInventory : ResourceInventory where
  modelId := ⟨"model"⟩
  generation := ⟨1⟩
  nativeModelInstance := none
  nativeContractVersion := none
  resources :=
    [ResourceInventory.resourceOf ⟨1, 0⟩ (halfMapping "a" 0) 0 (2 ^ 63) (.ok ()) .native,
      ResourceInventory.resourceOf ⟨1, 1⟩ (halfMapping "b" 1) 0 (2 ^ 63) (.ok ()) .native]
  byIndex := ((∅ : ExtTreeMap Int Nat compare).insert 0 0).insert 1 1
  summary :=
    { tensors := 2, fileBackedTensors := 2, anonymousTensors := 0, unknownTensors := 0, mappings := 2,
      logicalFileBackedBytes := 0, logicalAnonymousBytes := 0, pageBytes := 0, sharedPageBytes := 0 }

def halfBuilt : BuiltInventory :=
  ⟨halfInventory, .release, ⟨"model"⟩, ⟨1⟩, [halfMapping "a" 0, halfMapping "b" 1], rfl⟩


def halfPolicy : ResidencyPolicy where
  mode := .active
  targetBytes := some 0
  safetyReserveBytes := 0

def halfPlanner : Planner := Planner.new halfBuilt.val ∅

def halfPlan (build : Build) : Option ResidencyPlan :=
  planWithProfile build halfPlanner halfPolicy (some (2 ^ 63 + 4096))
    { required := ∅, pinned := ∅ } none

/-- Both resources are released and the plan reports no bytes; a debug build panics. -/
theorem reclaim_wraps :
    halfPlan .debug = none ∧
    ∃ plan, halfPlan .release = some plan ∧ (sizes (released plan.decisions)).sum = 2 ^ 64 ∧
      plan.estimatedReclaimBytes = 0 ∧ plan.estimatedBudgetMet = false ∧
      ¬ExactPlan halfPlanner halfPolicy { required := ∅, pinned := ∅ } none
        (excess halfInventory halfPolicy (some (2 ^ 63 + 4096))) plan := by
  have hplan : (halfPlan .release).any (fun plan =>
      (sizes (released plan.decisions)).sum = 2 ^ 64 ∧ plan.estimatedReclaimBytes = 0 ∧
        plan.estimatedBudgetMet = false) = true := by decide +kernel
  obtain ⟨plan, hsome, hfacts⟩ := (Option.any_eq_true _ _).mp hplan
  obtain ⟨hsum, hreclaim, hmet⟩ := of_decide_eq_true hfacts
  refine ⟨by decide +kernel, plan, hsome, hsum, hreclaim, hmet, fun hexact => ?_⟩
  have hreported := hexact.reclaim
  rw [hsum, hreclaim] at hreported
  cases hreported

end Planner
end Ramforge
