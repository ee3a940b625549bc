/-
The static plan of a model: file size against budget, and a lower bound on the
memory that the runtime charges.

The planner reads the result.  Nothing of the payload is read here.
-/
import Ramforge.Runtime.Accounting
import Ramforge.Runtime.LlamaConfig
import Ramforge.Runtime.PlannerCalibration

namespace Ramforge

open Rust Rust.Outcome

/-- The policy for persistent tensors: at most a quarter of the budget stays resident. -/
def shouldKeepResident (residentBytes budgetTotal : Nat) : Bool := residentBytes ≤ budgetTotal / 4

namespace Planner

/-- `checked_add` of this file, with its label in the error. -/
def labelledAdd (left right : Nat) (label : String) : Outcome String Nat :=
  okOr (checkedAdd left right) s!"{label} overflow: {left} + {right}"

theorem labelledAdd_ok {left right total : Nat} {label : String}
    (h : labelledAdd left right label = .ok total) : total = left + right ∧ total < u64Bound := by
  unfold labelledAdd at h
  cases hadd : checkedAdd left right with
  | none =>
    rw [hadd] at h
    cases h
  | some sum =>
    rw [hadd] at h
    cases h
    obtain ⟨hlt, rfl⟩ := checkedAdd_eq_some.mp hadd
    exact ⟨rfl, hlt⟩

/-- The persistent tensors so far. -/
structure PersistentTotals where
  residentBytes : Nat
  startupPeakBytes : Nat
  residentCount : Nat
  streamedCount : Nat

namespace PersistentTotals

def zero : PersistentTotals :=
  { residentBytes := 0, startupPeakBytes := 0, residentCount := 0, streamedCount := 0 }

/-- A round of the loop over the persistent tensors. -/
def add (ramBudgetBytes : Nat) (totals : PersistentTotals) (descriptor : TensorDescriptor) :
    Outcome String PersistentTotals := do
  let fileBytes ← okOr descriptor.byteLength
    ("cannot preflight persistent tensor '" ++ descriptor.name ++ "': byte length is unknown")
  let residentBytes ← liftResult
    (fun error => "cannot preflight persistent tensor '" ++ descriptor.name ++ "': " ++
      DataSourceError.text error)
    (TensorData.residentBytesFor descriptor.ggmlType descriptor.numElements fileBytes)
  if shouldKeepResident residentBytes ramBudgetBytes then do
    let loadCharge ← tensorLoadChargeBytes descriptor.ggmlType fileBytes
    let startupPeak ← labelledAdd totals.residentBytes (max loadCharge 1) "persistent startup peak"
    let resident ← labelledAdd totals.residentBytes (max residentBytes 1) "persistent resident bytes"
    pure
      { residentBytes := resident
        startupPeakBytes := max totals.startupPeakBytes startupPeak
        residentCount := totals.residentCount + 1
        streamedCount := totals.streamedCount }
  else pure { totals with streamedCount := totals.streamedCount + 1 }

theorem add_startupPeak_lt {ramBudgetBytes : Nat} {totals totals' : PersistentTotals}
    {descriptor : TensorDescriptor} (hlt : totals.startupPeakBytes < u64Bound)
    (h : totals.add ramBudgetBytes descriptor = .ok totals') :
    totals'.startupPeakBytes < u64Bound := by
  obtain ⟨_, -, h⟩ := of_okOr_bind_ok h
  obtain ⟨_, -, h⟩ := of_bind_ok h
  split at h
  · obtain ⟨_, -, h⟩ := of_bind_ok h
    obtain ⟨_, hpeak, h⟩ := of_bind_ok h
    obtain ⟨_, -, h⟩ := of_bind_ok h
    cases h
    exact Nat.max_lt.mpr ⟨hlt, (labelledAdd_ok hpeak).2⟩
  · cases h
    exact hlt

end PersistentTotals

/-- The layers so far. -/
structure LayerTotals where
  largestIndex : Nat
  largestTensorCount : Nat
  largestResidentBytes : Nat
  largestLoadPeakBytes : Nat
  residentSizes : List Nat
  logicalReads : Nat
  physicalReads : Nat
  logicalBytes : Nat
  physicalBytes : Nat
  gapBytes : Nat

namespace LayerTotals

def zero : LayerTotals :=
  { largestIndex := 0
    largestTensorCount := 0
    largestResidentBytes := 0
    largestLoadPeakBytes := 0
    residentSizes := []
    logicalReads := 0
    physicalReads := 0
    logicalBytes := 0
    physicalBytes := 0
    gapBytes := 0 }

/-- The largest layer is the first one with the highest load peak. -/
def noteLargest (totals : LayerTotals) (layer : LayerDescriptor) (estimate : LayerMemoryEstimate) :
    LayerTotals :=
  if totals.largestLoadPeakBytes < estimate.loadPeakBytes then
    { totals with
      largestIndex := layer.layerIdx
      largestTensorCount := layer.tensors.length
      largestResidentBytes := estimate.residentBytes
      largestLoadPeakBytes := estimate.loadPeakBytes }
  else totals

/-- A round of the loop over the layers. -/
def add (totals : LayerTotals) (layer : LayerDescriptor) : Outcome String LayerTotals := do
  let readPlan ← (buildLayerReadPlan layer.tensors).mapErr
    fun error => s!"cannot plan layer {layer.layerIdx} reads: " ++ error
  let estimate ← (estimateLayerMemory layer.tensors).mapErr
    fun error => s!"cannot preflight layer {layer.layerIdx}: " ++ error
  let logicalReads ← okOr (checkedAdd totals.logicalReads readPlan.logicalTensorCount)
    "logical tensor read count overflow"
  let physicalReads ← okOr (checkedAdd totals.physicalReads readPlan.ranges.length)
    "physical read count overflow"
  let logicalBytes ← labelledAdd totals.logicalBytes readPlan.logicalBytes
    "logical tensor bytes per forward"
  let physicalBytes ← labelledAdd totals.physicalBytes readPlan.physicalBytes
    "physical bytes per forward"
  let gapBytes ← labelledAdd totals.gapBytes readPlan.gapBytes "coalesced gap bytes per forward"
  pure
    { totals.noteLargest layer estimate with
      residentSizes := totals.residentSizes ++ [estimate.residentBytes]
      logicalReads := logicalReads
      physicalReads := physicalReads
      logicalBytes := logicalBytes
      physicalBytes := physicalBytes
      gapBytes := gapBytes }

theorem add_physicalBytes_lt {totals totals' : LayerTotals} {layer : LayerDescriptor}
    (h : totals.add layer = .ok totals') : totals'.physicalBytes < u64Bound := by
  obtain ⟨_, -, h⟩ := of_bind_ok h
  obtain ⟨_, -, h⟩ := of_bind_ok h
  obtain ⟨_, -, h⟩ := of_okOr_bind_ok h
  obtain ⟨_, -, h⟩ := of_okOr_bind_ok h
  obtain ⟨_, -, h⟩ := of_bind_ok h
  obtain ⟨_, hphysical, h⟩ := of_bind_ok h
  obtain ⟨_, -, h⟩ := of_bind_ok h
  cases h
  exact (labelledAdd_ok hphysical).2

end LayerTotals

/-- The loop of `max_complete_layers_for_capacity`. -/
def completeLayers (capacity : Nat) : List Nat → Nat → Nat → Nat
  | [], _, count => count
  | layerBytes :: rest, used, count =>
    match checkedAdd used layerBytes with
    | none => count
    | some next => if capacity < next then count else completeLayers capacity rest next (count + 1)

def maxCompleteLayersForCapacity (sortedLayerBytes : List Nat) (capacity : Nat) : Nat :=
  completeLayers capacity sortedLayerBytes 0 0

variable (R : Type) [F32 R] [F32Narrow R] [FloatText]

def planExecutionMemory (model : GgufModel) (ramBudgetBytes : Nat) :
    Outcome String ExecutionMemoryPlan := do
  let config ← LlamaConfig.fromGguf R model
  validateRequiredTensors model config
  let persistent ← (PersistentDescriptors.fromModel model).present.foldlM
    (PersistentTotals.add ramBudgetBytes) .zero
  let layers ← (groupLayers model config.blockCount).foldlM LayerTotals.add .zero
  let layerWithPersistents ← labelledAdd persistent.residentBytes layers.largestLoadPeakBytes
    "persistent plus largest layer lower bound"
  let managedLowerBoundBytes := max persistent.startupPeakBytes layerWithPersistents
  let layerCacheCapacityBytes := saturatingSub ramBudgetBytes managedLowerBoundBytes
  let layerResidentSizes := layers.residentSizes.insertionSort (· ≤ ·)
  pure
    { blockCount := config.blockCount
      residentPersistentCount := persistent.residentCount
      streamedPersistentCount := persistent.streamedCount
      persistentResidentBytes := persistent.residentBytes
      persistentStartupPeakBytes := persistent.startupPeakBytes
      largestLayerIndex := layers.largestIndex
      largestLayerTensorCount := layers.largestTensorCount
      largestLayerResidentBytes := layers.largestResidentBytes
      largestLayerLoadPeakBytes := layers.largestLoadPeakBytes
      managedLowerBoundBytes := managedLowerBoundBytes
      layerCacheCapacityBytes := layerCacheCapacityBytes
      maxCompleteCachedLayers :=
        maxCompleteLayersForCapacity layerResidentSizes layerCacheCapacityBytes
      minLayerResidentBytes := layerResidentSizes.head?.getD 0
      logicalTensorReadsPerForward := layers.logicalReads
      estimatedPhysicalReadsPerForward := layers.physicalReads
      logicalTensorBytesPerForward := layers.logicalBytes
      estimatedPhysicalBytesPerForward := layers.physicalBytes
      estimatedGapBytesPerForward := layers.gapBytes
      layerStreamingLowerBoundFits := managedLowerBoundBytes ≤ ramBudgetBytes }

/-- `cache_capacity`: four fifths of the budget, half of a tiny one. -/
def informationalCacheCapacity (ramBudgetBytes : Nat) : Outcome String Nat := do
  let eighty ← okOr ((checkedMul (ramBudgetBytes / 5) 4).bind
      (checkedAdd · (ramBudgetBytes % 5 * 4 / 5)))
    "cache capacity arithmetic overflow"
  if ramBudgetBytes < 2 * 1024 * 1024 then pure (ramBudgetBytes / 2)
  else
    let cacheHeadroom := saturatingSub ramBudgetBytes (1024 * 1024)
    pure (min (max eighty (1024 * 1024)) cacheHeadroom)

def planModel (model : GgufModel) (ramBudgetBytes : Nat) : Outcome String PlanResult := do
  let budget ← liftResult MemoryError.display (MemoryBudget.new ramBudgetBytes)
  let cacheCapacity ← informationalCacheCapacity ramBudgetBytes
  let fitsInRam := decide (model.fileSize ≤ ramBudgetBytes)
  let available ← expect (checkedSub budget.total budget.used)
    "MemoryBudget invariant violated: used bytes exceed total"
  let (executionMemory, executionPreflightError) ←
    (match planExecutionMemory R model ramBudgetBytes with
    | .ok memory => pure (some memory, none)
    | .err error => pure (none, some error)
    | .panic message => .panic message)
  pure
    { fileSize := model.fileSize
      architecture := model.architecture
      tensorCount := model.tensors.length
      ramRequested := ramBudgetBytes
      cacheCapacity := cacheCapacity
      overheadReserved := 0
      available := available
      fitsInRam := fitsInRam
      fileBackedNeeded := if fitsInRam then 0 else model.fileSize - ramBudgetBytes
      totalTensorBytes := model.totalTensorBytes
      executionMemory := executionMemory
      executionPreflightError := executionPreflightError
      budget := budget }

/-! ## What a static plan promises -/

/-- The numbers of a static plan that the planner and the compiler read. -/
structure ExecutionMemoryPlan.Consistent (memory : ExecutionMemoryPlan) (ramBudgetBytes : Nat) :
    Prop where
  capacity : memory.layerCacheCapacityBytes = ramBudgetBytes - memory.managedLowerBoundBytes
  resident_lt : memory.persistentResidentBytes < u64Bound
  startupPeak_lt : memory.persistentStartupPeakBytes < u64Bound
  layerPeak_lt : memory.largestLayerLoadPeakBytes < u64Bound
  lowerBound_lt : memory.managedLowerBoundBytes < u64Bound
  physicalBytes_lt : memory.estimatedPhysicalBytesPerForward < u64Bound

variable {R} {model : GgufModel} {ramBudgetBytes : Nat}

theorem planExecutionMemory_consistent {memory : ExecutionMemoryPlan}
    (h : planExecutionMemory R model ramBudgetBytes = .ok memory) :
    memory.Consistent ramBudgetBytes := by
  obtain ⟨config, -, h⟩ := of_bind_ok h
  obtain ⟨_, -, h⟩ := of_bind_ok h
  obtain ⟨persistent, hpersistent, h⟩ := of_bind_ok h
  obtain ⟨layers, hlayers, h⟩ := of_bind_ok h
  obtain ⟨layerWithPersistents, hlayer, h⟩ := of_bind_ok h
  cases h
  obtain ⟨rfl, hlt⟩ := labelledAdd_ok hlayer
  have hstartup : persistent.startupPeakBytes < u64Bound :=
    foldlM_ok (P := fun totals => totals.startupPeakBytes < u64Bound)
      (fun _ _ _ hlt hadd => PersistentTotals.add_startupPeak_lt hlt hadd) (by decide) hpersistent
  have hphysical : layers.physicalBytes < u64Bound :=
    foldlM_ok (P := fun totals => totals.physicalBytes < u64Bound)
      (fun _ _ _ _ hadd => LayerTotals.add_physicalBytes_lt hadd) (by decide) hlayers
  exact
    { capacity := rfl
      resident_lt := Nat.lt_of_le_of_lt (Nat.le_add_right _ _) hlt
      startupPeak_lt := hstartup
      layerPeak_lt := Nat.lt_of_le_of_lt (Nat.le_add_left _ _) hlt
      lowerBound_lt := Nat.max_lt.mpr ⟨hstartup, hlt⟩
      physicalBytes_lt := hphysical }

theorem planModel_ok {staticPlan : PlanResult} (h : planModel R model ramBudgetBytes = .ok staticPlan) :
    staticPlan.ramRequested = ramBudgetBytes ∧
      ∀ memory, staticPlan.executionMemory = some memory →
        planExecutionMemory R model ramBudgetBytes = .ok memory ∧
          staticPlan.executionPreflightError = none := by
  obtain ⟨_, -, h⟩ := of_bind_ok h
  obtain ⟨_, -, h⟩ := of_bind_ok h
  obtain ⟨_, -, h⟩ := of_bind_ok h
  obtain ⟨⟨executionMemory, preflightError⟩, hmemory, h⟩ := of_bind_ok h
  cases h
  refine ⟨rfl, fun memory hsome => ?_⟩
  obtain rfl : executionMemory = some memory := hsome
  split at hmemory
  · rename_i found hfound
    cases hmemory
    exact ⟨hfound, rfl⟩
  · cases hmemory
  · cases hmemory

end Planner
end Ramforge
