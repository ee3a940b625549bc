/-
The simulation of predictive prefetching.

A strategy is run in three loops: the initial placement, the staging of what the planner
selected, and the accesses of the test sequence with the evictions they need.  The loops
share their counters, which are the fields of `SimRun`.
-/
import Ramforge.Rust.Call
import Ramforge.Runtime.PredictionConfidence
import Ramforge.Runtime.PredictionPlanner
import Mathlib.Data.List.MinMax

namespace Ramforge

open Std Rust Rust.Outcome

inductive SimInitialResidency where
  | resident
  | nonResident
  | unknown
deriving DecidableEq, Repr

inductive SimPrefetchEffect where
  | makesResident
  | noEffect
  | fail
  | unknown
deriving DecidableEq, Repr

inductive SimPrefetchTiming where
  | onTime
  | late
deriving DecidableEq, Repr

inductive SimObservationMode where
  | disabled
  | general
  | targeted
deriving DecidableEq, Repr

inductive SimCacheCondition where
  | warm
  | controlledNonresident
  | uncontrolled
deriving DecidableEq, Repr

structure SimResource where
  name : String
  bytes : Nat
  fileBacked : Bool
  knownSize : Bool
  initial : SimInitialResidency
  overlapGroup : Option Nat
  /-- `bytes` is a `u64`. -/
  bytes_lt : bytes < u64Bound := by decide
  /-- A group is a `u32`. -/
  overlapGroup_lt : ∀ group ∈ overlapGroup, group < 2 ^ 32 := by decide
deriving DecidableEq, Repr

structure SimCosts where
  setupNs : Nat := 1000
  predictionNs : Nat := 100
  planningNs : Nat := 50
  observationNsPerPage : Nat := 10
  stagingNs : Nat := 500
  rereadNsPerByte : Nat := 2
  executionNsPerAccess : Nat := 1000
  synchronizationNs : Nat := 25
deriving DecidableEq, Repr

structure SimScenario where
  name : String
  budgetBytes : Nat
  stagingWindowBytes : Nat
  speculativeBudgetBytes : Nat
  minConfidenceBps : Nat
  predictionHorizon : Nat
  resources : List SimResource
  trainingSequence : List String
  testSequence : List String
  prefetchEffect : SimPrefetchEffect
  prefetchTiming : SimPrefetchTiming
  observationMode : SimObservationMode
  observationPageBudget : Nat
  beforeAccessObservation : Bool
  cacheCondition : SimCacheCondition
  costs : SimCosts
deriving DecidableEq, Repr

inductive SimStrategy where
  | baseline
  | reactive
  | predictive
  | conservative
  | aggressive
deriving DecidableEq, Repr

def SimStrategy.label : SimStrategy → String
  | .baseline => "baseline"
  | .reactive => "reactive"
  | .predictive => "predictive"
  | .conservative => "conservative"
  | .aggressive => "aggressive"

structure SimResult where
  scenario : String
  strategy : String
  initialResidentBytes : Nat
  initialNonresidentBytes : Nat
  initialUnknownBytes : Nat
  predictedResources : Nat
  correctPredictions : Nat
  falsePositives : Nat
  falseNegatives : Nat
  precisionBps : Option Nat
  recallBps : Option Nat
  stagedBytes : Nat
  newlyResidentBytes : Nat
  redundantStagedBytes : Nat
  ineffectiveStagedBytes : Nat
  wastedStagedBytes : Nat
  deferredBytes : Nat
  rejectedBytes : Nat
  evictedBeforeAccessBytes : Nat
  rereadBytes : Nat
  peakResidentBytes : Nat
  budgetViolations : Nat
  observationMode : String
  observationPageBudget : Nat
  targetedPagesAvailable : Nat
  targetedPagesSampled : Nat
  generalPagesAvailable : Nat
  generalPagesSampled : Nat
  selectedResourcesFullyObserved : Nat
  selectedResourcesPartiallyObserved : Nat
  selectedResourcesNotObserved : Nat
  beforeAccessObservationAvailable : Bool
  cacheCondition : String
  predictionCostNs : Nat
  planningCostNs : Nat
  observationCostNs : Nat
  stagingCostNs : Nat
  rereadCostNs : Nat
  executionCostNs : Nat
  synchronizationCostNs : Nat
  totalEndToEndNs : Nat
  netBenefitNs : Int
  improved : Bool
  benefitKnown : Bool
  notes : List String
deriving DecidableEq, Repr

structure SimComparison where
  scenario : String
  baseline : SimResult
  reactive : SimResult
  predictive : SimResult
  conservative : SimResult
  aggressive : SimResult
deriving DecidableEq, Repr

namespace SimComparison

def result (comparison : SimComparison) : SimStrategy → SimResult
  | .baseline => comparison.baseline
  | .reactive => comparison.reactive
  | .predictive => comparison.predictive
  | .conservative => comparison.conservative
  | .aggressive => comparison.aggressive

def netBenefit (comparison : SimComparison) (strategy : SimStrategy) : Int :=
  (comparison.result strategy).netBenefitNs

end SimComparison

namespace SimScenario

/-- `iter().find(..)` by name. -/
def find (scenario : SimScenario) (name : String) : Option SimResource :=
  scenario.resources.find? fun resource => resource.name = name

/-- `.sum()` of `u64` values. -/
def sum (build : Build) (values : List Nat) : Outcome String Nat :=
  expect (values.foldlM build.add 0) Build.addOverflow

def initialBytes (build : Build) (scenario : SimScenario) (initial : SimInitialResidency) :
    Outcome String Nat :=
  sum build ((scenario.resources.filter fun resource => resource.initial = initial).map
    SimResource.bytes)

/-! ## The inventory and the profile of a scenario -/

def pageSize : Nat := 4096

/-- `value & !(page_size - 1)`. -/
def pageFloor (value : Nat) : Nat := value - value % pageSize

/-- `(offset + size + page_size - 1) & !(page_size - 1)`; `none` is a panic. -/
def pageCeil (build : Build) (offset size : Nat) : Option Nat := do
  let stop ← build.add offset size
  let stop ← build.add stop pageSize
  let stop ← build.sub stop 1
  pure (pageFloor stop)

structure InputScan where
  mappings : List TensorMappingInfo
  offsets : ExtTreeMap Nat Nat compare

/-- `value as u32`. -/
def asU32 (value : Nat) : Nat := value % 2 ^ 32

/-- One round of the loop over the resources, at `index`. -/
def scanResource (build : Build) (scan : InputScan) (entry : SimResource × Nat) :
    Outcome String InputScan := do
  let (resource, index) := entry
  let group := resource.overlapGroup.getD (asU32 index)
  let offset := if resource.overlapGroup.isSome then 0 else scan.offsets[group]?.getD 0
  let size := if resource.knownSize then resource.bytes else 0
  let pageStart := pageFloor offset
  let pageEnd ←
    if size = 0 then pure pageStart
    else expect (pageCeil build offset size) Build.addOverflow
  let mapping : TensorMappingInfo :=
    { name := resource.name
      fileBacked := resource.fileBacked
      mappingIndex := if resource.fileBacked then some group else none
      mappingSize := max (saturatingAdd offset size) 1
      offset := offset
      size := size
      pageSize := pageSize
      pageStart := pageStart
      pageEnd := pageEnd
      mappingId := none
      mappingGeneration := none
      filePath := none
      fileSize := none }
  pure
    { mappings := scan.mappings ++ [mapping]
      offsets :=
        if 0 < size ∧ resource.overlapGroup.isNone then
          scan.offsets.insert group (saturatingAdd offset (max size 1))
        else scan.offsets }

/-- One round of the loop over the training sequence. -/
def countAccess (access : ExtTreeMap String AccessPattern compare) (entry : String × Nat) :
    ExtTreeMap String AccessPattern compare :=
  let (name, order) := entry
  let pattern := access[name]?.getD
    { firstOrder := order
      lastOrder := order
      observedConsumers := 0 }
  access.insert name
    { firstOrder := min pattern.firstOrder order
      lastOrder := max pattern.lastOrder order
      observedConsumers := saturatingAdd pattern.observedConsumers 1 }

def scenarioInputs (build : Build) (scenario : SimScenario) :
    Outcome String (ResourceInventory × ExecutionProfile) := do
  let scan ← scenario.resources.zipIdx.foldlM (scanResource build)
    { mappings := [], offsets := ∅ }
  let inventory ← Outcome.mapErr InventoryError.display
    (ResourceInventory.fromTensorMappings build ⟨scenario.name⟩ ⟨1⟩ scan.mappings ()).1
  pure (inventory,
    { ExecutionProfile.new ⟨scenario.name⟩ ⟨1⟩ with
      completeObservations := 1
      access := scenario.trainingSequence.zipIdx.foldl countAccess ∅ })

/-! ## Observation -/

abbrev Names := ExtTreeSet String compare

/-- The group under which the pages of a resource are counted.  An inventory has at most
`2 ^ 31` resources, so the sum stays below `2 ^ 32`. -/
def pageGroup (resource : SimResource) (index : Nat) : Nat :=
  resource.overlapGroup.getD (1000000 + asU32 index)

/-- `bytes.div_ceil(4096)`. -/
def pageCount (bytes : Nat) : Nat := (bytes + 4095) / 4096

def resourcePages (resource : SimResource) (index : Nat) : Finset (Nat × Nat) :=
  (Finset.range (pageCount resource.bytes)).image fun page => (pageGroup resource index, page)

/-- The sets `targeted` and `general`. -/
structure PageSets where
  targeted : Finset (Nat × Nat) := ∅
  general : Finset (Nat × Nat) := ∅

/-- One round of the loop over the resources. -/
def PageSets.observe (selected : Names) (sets : PageSets) (entry : SimResource × Nat) : PageSets :=
  if selected.contains entry.1.name then
    { sets with targeted := sets.targeted ∪ resourcePages entry.1 entry.2 }
  else { sets with general := sets.general ∪ resourcePages entry.1 entry.2 }

def observedPages (scenario : SimScenario) (selected : Names) : PageSets :=
  scenario.resources.zipIdx.foldl (PageSets.observe selected) {}

def observationPages (scenario : SimScenario) (selected : Names) : Nat × Nat :=
  let sets := observedPages scenario selected
  (sets.targeted.card, (sets.general \ sets.targeted).card)

/-- The counters of `selected_coverage`. -/
structure Coverage where
  budget : Nat
  fully : Nat := 0
  partially : Nat := 0
  notObserved : Nat := 0

def coverName (build : Build) (scenario : SimScenario) (targeted : Bool) (coverage : Coverage)
    (name : String) : Outcome String Coverage := do
  let pages ← sum build ((scenario.resources.filter fun resource => resource.name = name).map
    fun resource => pageCount resource.bytes)
  if !targeted ∨ pages = 0 then pure { coverage with notObserved := coverage.notObserved + 1 }
  else if pages ≤ coverage.budget then
    pure { coverage with
      budget := coverage.budget - pages
      fully := coverage.fully + 1 }
  else if 0 < coverage.budget then
    pure { coverage with
      partially := coverage.partially + 1
      budget := 0 }
  else pure { coverage with notObserved := coverage.notObserved + 1 }

def selectedCoverage (build : Build) (scenario : SimScenario) (selected : Names)
    (sampledPages : Nat) (targeted : Bool) : Outcome String Coverage :=
  selected.toList.foldlM (coverName build scenario targeted) { budget := sampledPages }

end SimScenario

/-! ## The run of a strategy -/

/-- The locals of `run_strategy` that its loops update.  An entry of `resident` has the
bytes, the order of the last access, and whether the entry was staged. -/
structure SimRun where
  resident : ExtTreeMap String (Nat × Nat × Bool) compare := ∅
  residentBytes : Nat := 0
  peak : Nat := 0
  budgetViolations : Nat := 0
  stagedBytes : Nat := 0
  redundantStagedBytes : Nat := 0
  newlyResidentBytes : Nat := 0
  ineffectiveStagedBytes : Nat := 0
  deferredBytes : Nat := 0
  rejectedBytes : Nat := 0
  stagedPending : ExtTreeSet String compare := ∅
  evictedBeforeAccessBytes : Nat := 0
  rereadBytes : Nat := 0
  benefitKnown : Bool
  notes : List String := []
  lastOrder : Nat := 0

namespace SimRun

/-- One round of the initial placement. -/
def place (scenario : SimScenario) (run : SimRun) (resource : SimResource) : SimRun :=
  if resource.initial = .resident then
    if saturatingAdd run.residentBytes resource.bytes ≤ scenario.budgetBytes then
      { run with
        resident := run.resident.insert resource.name (resource.bytes, 0, false)
        residentBytes := saturatingAdd run.residentBytes resource.bytes }
    else
      { run with
        budgetViolations := saturatingAdd run.budgetViolations 1
        notes := run.notes ++ [s!"initial resident resource {resource.name} exceeds budget"] }
  else run

/-- What staging a resource does that is not resident. -/
def prefetch (scenario : SimScenario) (run : SimRun) (name : String) (bytes : Nat) : SimRun :=
  match scenario.prefetchEffect with
  | .makesResident =>
    if scenario.budgetBytes < saturatingAdd run.residentBytes bytes then
      { run with deferredBytes := saturatingAdd run.deferredBytes bytes }
    else
      { run with
        resident := run.resident.insert name (bytes, 0, true)
        residentBytes := saturatingAdd run.residentBytes bytes
        peak := max run.peak (saturatingAdd run.residentBytes bytes)
        stagedBytes := saturatingAdd run.stagedBytes bytes
        newlyResidentBytes := saturatingAdd run.newlyResidentBytes bytes
        stagedPending := run.stagedPending.insert name }
  | .noEffect =>
    { run with
      stagedBytes := saturatingAdd run.stagedBytes bytes
      ineffectiveStagedBytes := saturatingAdd run.ineffectiveStagedBytes bytes }
  | .fail =>
    { run with
      rejectedBytes := saturatingAdd run.rejectedBytes bytes
      benefitKnown := false }
  | .unknown =>
    { run with
      stagedBytes := saturatingAdd run.stagedBytes bytes
      ineffectiveStagedBytes := saturatingAdd run.ineffectiveStagedBytes bytes
      benefitKnown := false }

/-- One round of the staging. -/
def stage (scenario : SimScenario) (run : SimRun) (name : String) : SimRun :=
  match scenario.find name with
  | none => run
  | some resource =>
    if run.resident.contains name then
      { run with
        redundantStagedBytes := saturatingAdd run.redundantStagedBytes resource.bytes
        stagedBytes := saturatingAdd run.stagedBytes resource.bytes }
    else prefetch scenario run name resource.bytes

/-- `min_by_key` by the last access, over the names in order. -/
def victim (run : SimRun) : Option String :=
  (run.resident.toList.argmin fun entry => entry.2.2.1).map Prod.fst

/-- One round of the eviction loop. -/
def evict (run : SimRun) (victim : String) : SimRun :=
  match run.resident[victim]? with
  | none => run
  | some (bytes, _, _) =>
    let run :=
      { run with
        resident := run.resident.erase victim
        residentBytes := saturatingSub run.residentBytes bytes }
    if run.stagedPending.contains victim then
      { run with
        stagedPending := run.stagedPending.erase victim
        evictedBeforeAccessBytes := saturatingAdd run.evictedBeforeAccessBytes bytes }
    else run

/-- The eviction loop.  Each round takes one entry out, so as many rounds as there are
entries are enough. -/
def makeRoom (budget bytes : Nat) : Nat → SimRun → SimRun
  | 0, run => run
  | rounds + 1, run =>
    if budget < saturatingAdd run.residentBytes bytes then
      match run.victim with
      | none => run
      | some name => makeRoom budget bytes rounds (run.evict name)
    else run

/-- An access to a resource that is not resident. -/
def load (scenario : SimScenario) (run : SimRun) (resource : SimResource) : SimRun :=
  let run := makeRoom scenario.budgetBytes resource.bytes run.resident.size run
  let run := { run with rereadBytes := saturatingAdd run.rereadBytes resource.bytes }
  if scenario.budgetBytes < saturatingAdd run.residentBytes resource.bytes then
    { run with budgetViolations := saturatingAdd run.budgetViolations 1 }
  else
    { run with
      resident := run.resident.insert resource.name (resource.bytes, run.lastOrder, false)
      residentBytes := saturatingAdd run.residentBytes resource.bytes
      peak := max run.peak (saturatingAdd run.residentBytes resource.bytes) }

/-- An access to a resource that is resident. -/
def hit (run : SimRun) (name : String) : SimRun :=
  { run with
    stagedPending := run.stagedPending.erase name
    resident := run.resident.modify name fun (bytes, _, staged) => (bytes, run.lastOrder, staged) }

/-- `last_order += 1`. -/
def tick (run : SimRun) : SimRun := { run with lastOrder := run.lastOrder + 1 }

/-- One round of the accesses. -/
def access (scenario : SimScenario) (run : SimRun) (name : String) : Outcome String SimRun :=
  match scenario.find name with
  | none => .err s!"simulation sequence references unknown resource {name}"
  | some resource =>
    if run.resident.contains name then .ok (run.tick.hit name)
    else .ok (run.tick.load scenario resource)

def start (scenario : SimScenario) (initialUnknown : Nat) : SimRun where
  benefitKnown := initialUnknown = 0 ∧ scenario.prefetchEffect ≠ .unknown

/-- The run after the initial placement. -/
def placed (scenario : SimScenario) (initialUnknown : Nat) : SimRun :=
  scenario.resources.foldl (place scenario) (start scenario initialUnknown)

/-- The run after the staging. -/
def staged (scenario : SimScenario) (selected : SimScenario.Names) (initialUnknown : Nat) : SimRun :=
  if scenario.prefetchTiming = .onTime then
    selected.toList.foldl (stage scenario) (placed scenario initialUnknown)
  else placed scenario initialUnknown

/-- The run after the accesses. -/
def accessed (scenario : SimScenario) (selected : SimScenario.Names) (initialUnknown : Nat) :
    Outcome String SimRun :=
  scenario.testSequence.foldlM (access scenario) (staged scenario selected initialUnknown)

end SimRun

namespace SimStrategy

def config (scenario : SimScenario) : SimStrategy → PredictionConfig
  | .baseline | .reactive => PredictionConfig.default
  | .predictive =>
    { enabled := true
      minConfidenceBps := scenario.minConfidenceBps
      stagingWindowBytes := scenario.stagingWindowBytes
      speculativeBudgetBytes := scenario.speculativeBudgetBytes
      maxInFlight := 1
      lookahead := scenario.predictionHorizon }
  | .conservative =>
    { enabled := true
      minConfidenceBps := 7500
      stagingWindowBytes := scenario.stagingWindowBytes / 2
      speculativeBudgetBytes := 0
      maxInFlight := 1
      lookahead := scenario.predictionHorizon }
  | .aggressive =>
    { enabled := true
      minConfidenceBps := 2500
      stagingWindowBytes := scenario.stagingWindowBytes
      speculativeBudgetBytes := scenario.speculativeBudgetBytes
      maxInFlight := 1
      lookahead := scenario.predictionHorizon }

end SimStrategy

namespace SimScenario

open SimStrategy (config)

def predictionsFor (build : Build) (scenario : SimScenario) (inventory : ResourceInventory)
    (profile : ExecutionProfile) (strategy : SimStrategy) : Outcome String PredictionSet :=
  if (config scenario strategy).enabled then
    Outcome.mapErr Empty.elim
      (PredictionSet.predictFromProfile build (config scenario strategy) (some profile) inventory none)
  else pure (PredictionSet.empty inventory.modelId inventory.generation "prediction disabled")

def planFor (scenario : SimScenario) (inventory : ResourceInventory) (strategy : SimStrategy)
    (predictions : PredictionSet) (residentBefore : Nat) : PredictionPlan :=
  if (config scenario strategy).enabled then
    PredictionPlanner.planPredictions (config scenario strategy) predictions inventory
      (some residentBefore) (some scenario.budgetBytes) 0 false
  else {}

/-- The names that a plan stages or prefetches. -/
def selectedNames (plan : PredictionPlan) : Names :=
  ExtTreeSet.ofList ((plan.decisions.filter fun decision =>
    decision.action = .stageNow ∨ decision.action = .prefetch).map PredictiveDecision.name) compare

def namesOf (names : List String) : Names := ExtTreeSet.ofList names compare

def wastedStagedBytes (build : Build) (scenario : SimScenario) (selected : Names) :
    Outcome String Nat :=
  sum build ((selected.toList.filter fun name => name ∉ scenario.testSequence).filterMap fun name =>
    (scenario.find name).map SimResource.bytes)

/-- The staged bytes of the result: a late prefetch counts all that was selected. -/
def reportedStagedBytes (build : Build) (scenario : SimScenario) (selected : Names)
    (stagedBytes : Nat) : Outcome String Nat :=
  if scenario.prefetchTiming = .late ∧ selected.toList ≠ [] then
    sum build (selected.toList.filterMap fun name => (scenario.find name).map SimResource.bytes)
  else pure stagedBytes

def reportedCoverage (build : Build) (scenario : SimScenario) (selected : Names) (active : Bool)
    (sampledPages : Nat) : Outcome String Coverage :=
  if active then
    selectedCoverage build scenario selected sampledPages (scenario.observationMode = .targeted)
  else
    pure
      { budget := 0
        notObserved := selected.toList.length }

/-- The pages sampled of the selected resources and of the others. -/
def sampledPages (scenario : SimScenario) (active : Bool) (available : Nat × Nat) : Nat × Nat :=
  if !active then (0, 0)
  else
    match scenario.observationMode with
    | .disabled => (0, 0)
    | .general =>
      let all := saturatingAdd available.1 available.2
      let budget := if scenario.observationPageBudget = 0 then all else scenario.observationPageBudget
      (0, min budget all)
    | .targeted =>
      let budget :=
        if scenario.observationPageBudget = 0 then u64Bound - 1 else scenario.observationPageBudget
      let targeted := min budget available.1
      (targeted, min (saturatingSub budget targeted) available.2)

/-- `as u16` of a share in basis points; `none` where the whole is empty. -/
def shareBps (part whole : Nat) : Option Nat :=
  if whole = 0 then none else some (part * 10000 / whole % 2 ^ 16)

def modeText (scenario : SimScenario) (active : Bool) : String :=
  if !active then "disabled"
  else
    match scenario.observationMode with
    | .disabled => "disabled"
    | .general => "general"
    | .targeted => "targeted"

def cacheText (scenario : SimScenario) : String :=
  match scenario.cacheCondition with
  | .warm => "warm"
  | .controlledNonresident => "controlled-nonresident"
  | .uncontrolled => "uncontrolled"

/-- The notes that follow those of the loops. -/
def closingNotes (scenario : SimScenario) (selected : Names) (initialUnknown : Nat) : List String :=
  (if scenario.prefetchTiming = .late ∧ selected.toList ≠ [] then
    ["prefetch arrived after the evaluation accesses"] else []) ++
  (if 0 < initialUnknown then
    ["initial unknown residency treated as nonresident for cost, not as proof"] else []) ++
  (if scenario.prefetchEffect = .unknown then ["prefetch residency outcome is unknown"] else [])

def runStrategy (build : Build) (scenario : SimScenario) (inventory : ResourceInventory)
    (profile : ExecutionProfile) (strategy : SimStrategy) : Outcome String SimResult := do
  let enabled := (config scenario strategy).enabled
  let predictions ← predictionsFor build scenario inventory profile strategy
  let residentBefore ← initialBytes build scenario .resident
  let initialNonresident ← initialBytes build scenario .nonResident
  let initialUnknown ← initialBytes build scenario .unknown
  let plan := planFor scenario inventory strategy predictions residentBefore
  let selected := selectedNames plan
  let predicted := namesOf (predictions.predictions.map PredictedAccess.name)
  let tested := namesOf scenario.testSequence
  let correct := (predicted.toList.filter tested.contains).length
  let run ← SimRun.accessed scenario selected initialUnknown
  let wasted ← wastedStagedBytes build scenario selected
  let stagedBytes ← reportedStagedBytes build scenario selected run.stagedBytes
  let active := enabled && scenario.observationMode ≠ .disabled
  let available := observationPages scenario selected
  let sampled := sampledPages scenario active available
  let coverage ← reportedCoverage build scenario selected active sampled.1
  let predictionCost := if enabled then scenario.costs.predictionNs else 0
  let planningCost := if enabled then scenario.costs.planningNs else 0
  let observationCost := saturatingMul scenario.costs.observationNsPerPage
    (saturatingAdd sampled.1 sampled.2)
  let stagingCost :=
    if 0 < stagedBytes ∨ 0 < run.deferredBytes ∨ 0 < run.rejectedBytes then scenario.costs.stagingNs
    else 0
  let rereadCost := saturatingMul scenario.costs.rereadNsPerByte run.rereadBytes
  let executionCost := saturatingMul scenario.costs.executionNsPerAccess
    scenario.testSequence.length
  pure
    { scenario := scenario.name
      strategy := strategy.label
      initialResidentBytes := residentBefore
      initialNonresidentBytes := initialNonresident
      initialUnknownBytes := initialUnknown
      predictedResources := predicted.toList.length
      correctPredictions := correct
      falsePositives := (predicted.toList.filter fun name => !tested.contains name).length
      falseNegatives := (tested.toList.filter fun name => !predicted.contains name).length
      precisionBps := shareBps correct predicted.toList.length
      recallBps := shareBps correct tested.toList.length
      stagedBytes := stagedBytes
      newlyResidentBytes := run.newlyResidentBytes
      redundantStagedBytes := run.redundantStagedBytes
      ineffectiveStagedBytes := run.ineffectiveStagedBytes
      wastedStagedBytes := wasted
      deferredBytes := run.deferredBytes
      rejectedBytes := run.rejectedBytes
      evictedBeforeAccessBytes := run.evictedBeforeAccessBytes
      rereadBytes := run.rereadBytes
      peakResidentBytes := run.peak
      budgetViolations := run.budgetViolations
      observationMode := modeText scenario active
      observationPageBudget := scenario.observationPageBudget
      targetedPagesAvailable := available.1
      targetedPagesSampled := sampled.1
      generalPagesAvailable := available.2
      generalPagesSampled := sampled.2
      selectedResourcesFullyObserved := coverage.fully
      selectedResourcesPartiallyObserved := coverage.partially
      selectedResourcesNotObserved := coverage.notObserved
      beforeAccessObservationAvailable := scenario.beforeAccessObservation
      cacheCondition := scenario.cacheText
      predictionCostNs := predictionCost
      planningCostNs := planningCost
      observationCostNs := observationCost
      stagingCostNs := stagingCost
      rereadCostNs := rereadCost
      executionCostNs := executionCost
      synchronizationCostNs := scenario.costs.synchronizationNs
      totalEndToEndNs :=
        [predictionCost, planningCost, observationCost, stagingCost, rereadCost, executionCost,
          scenario.costs.synchronizationNs].foldl saturatingAdd scenario.costs.setupNs
      netBenefitNs := 0
      improved := false
      benefitKnown := run.benefitKnown
      notes := run.notes ++ closingNotes scenario selected initialUnknown }

/-- What `simulate` sets in the result of a strategy once the baseline is known. -/
def compared (baseline result : SimResult) : SimResult :=
  let net : Int := baseline.totalEndToEndNs - result.totalEndToEndNs
  { result with
    netBenefitNs := net
    improved := result.benefitKnown ∧ 0 < net }

def simulate (build : Build) (scenario : SimScenario) : Outcome String SimComparison := do
  failIf (scenario.budgetBytes = 0) "simulation budget must be greater than zero"
  failIf (scenario.budgetBytes < scenario.stagingWindowBytes)
    "staging window exceeds simulation budget"
  let (inventory, profile) ← scenarioInputs build scenario
  let baseline ← runStrategy build scenario inventory profile .baseline
  let reactive ← runStrategy build scenario inventory profile .reactive
  let predictive ← runStrategy build scenario inventory profile .predictive
  let conservative ← runStrategy build scenario inventory profile .conservative
  let aggressive ← runStrategy build scenario inventory profile .aggressive
  pure
    { scenario := scenario.name
      baseline := baseline
      reactive := compared baseline reactive
      predictive := compared baseline predictive
      conservative := compared baseline conservative
      aggressive := compared baseline aggressive }

end SimScenario
end Ramforge
