/-
The weights of one transformer layer, as they are held while the layer is in memory.
-/
import Ramforge.Core.Tensor
import Ramforge.Runtime.LayerCache
import Ramforge.Runtime.Persistent
import Ramforge.Runtime.RuntimeConfig
import Ramforge.Rust.Call

namespace Ramforge

open Rust Rust.Outcome

structure StreamingLayerWeights (R : Type) where
  attnNorm : TensorData R
  attnQ : TensorData R
  attnK : TensorData R
  attnV : TensorData R
  attnOutput : TensorData R
  ffnNorm : TensorData R
  ffnGate : TensorData R
  ffnUp : TensorData R
  ffnDown : TensorData R
  attnQBias : Option (TensorData R)
  attnKBias : Option (TensorData R)
  attnVBias : Option (TensorData R)

namespace StreamingLayerWeights

variable {R : Type}

/-- All tensors of the layer, the biases last. -/
def tensors (layer : StreamingLayerWeights R) : List (TensorData R) :=
  [layer.attnNorm, layer.attnQ, layer.attnK, layer.attnV, layer.attnOutput, layer.ffnNorm,
    layer.ffnGate, layer.ffnUp, layer.ffnDown] ++
    [layer.attnQBias, layer.attnKBias, layer.attnVBias].filterMap id

def tryTotalResidentBytes (layer : StreamingLayerWeights R) : Outcome String Nat :=
  layer.tensors.foldlM (fun total tensor =>
    okOr (checkedAdd total tensor.residentBytes) "layer resident byte total overflow") 0

end StreamingLayerWeights
end Ramforge

/-!
Loading a model: its persistent weights under their charges, and the read plans and
memory estimates of its layers.

Startup is transactional.  A load that fails gives back every charge it has made.
-/

namespace Ramforge

open Rust Rust.Exec GgufDataSource

/-- A loaded model.  Its layer cache is behind a lock and changes under a shared
reference, so the cache is part of the state of a call and not of the model. -/
structure StreamingLlamaModel (R : Type) where
  config : LlamaConfig R
  tokenEmbd : PersistentWeight R
  outputNorm : PersistentWeight R
  output : Option (PersistentWeight R)
  layerDescriptors : List LayerDescriptor
  persistentDescriptors : PersistentDescriptors
  totalWeightBytes : Nat
  quantizedWeightBytes : Nat
  attnBiasPresent : Bool
  layerMemoryEstimates : List LayerMemoryEstimate
  groupedLayerMemoryEstimates : List LayerMemoryEstimate
  layerReadPlans : List LayerReadPlan
  readCoalescingEnabled : Bool
  groupedReadBufferReuseEnabled : Bool
  persistentChargeNames : List String

section persistent

variable {R : Type} [F32 R] [Zero R] [Add R] [Sub R] [Mul R]

def weightCharge (name : String) : String := "weight:" ++ name

/-- The closure of `load_persistent_weight`: read the tensor and settle its charge. -/
def settlePersistent (desc : TensorDescriptor) (name : String) (expectedResident : Nat) :
    Managed (TensorData R) := do
  let tensor ← onFst (loadTensorData desc)
  let actualResident := tensor.residentBytes
  failIf (actualResident ≠ expectedResident)
    ("persistent tensor '" ++ name ++
      s!"' resident-size mismatch: descriptor predicted {expectedResident} bytes, decoded representation owns {actualResident} bytes")
  let _ ← mapErr (fun error => "failed to settle resident charge for '" ++ name ++ "': " ++
      MemoryError.display error)
    (onSnd (MemoryBudget.resize (weightCharge name) actualResident))
  return tensor

/-- The weight, and the name of its charge if it is resident. -/
def loadPersistentWeight (name : String) : Managed (PersistentWeight R × Option String) := do
  let s ← self
  let desc ← ofResult ((s.1.2.2.getDescriptor name).mapError
    fun error => "tensor '" ++ name ++ "' not found: " ++ error.text)
  let fileBytes ← okOr desc.byteLength
    ("cannot load persistent tensor '" ++ name ++ "': byte length is unknown for " ++
      desc.ggmlType.name)
  let expectedResident ← ofResult
    ((TensorData.residentBytesFor desc.ggmlType desc.numElements fileBytes).mapError
      fun error => "failed to determine resident size for '" ++ name ++ "': " ++ error.text)
  if !shouldKeepResident expectedResident s.2.total then return (.streamed desc, none)
  else
    let transientCharge ← resume (tensorLoadChargeBytes desc.ggmlType fileBytes)
    failIf (transientCharge < expectedResident)
      ("persistent tensor '" ++ name ++
        s!"' load charge {transientCharge} is smaller than predicted resident size {expectedResident}")
    mapErr (fun error => s!"RAM budget exceeded establishing {transientCharge}-byte load charge for '" ++
        name ++ "': " ++ MemoryError.display error)
      (onSnd (MemoryBudget.allocate (weightCharge name) transientCharge))
    match ← attempt (settlePersistent desc name expectedResident) with
    | .ok tensor => return (.resident tensor, some (weightCharge name))
    | .error error => do
      let _ ← orPanic (onSnd (MemoryBudget.release (weightCharge name))) fun releaseError =>
        "failed to roll back persistent charge '" ++ weightCharge name ++ "': " ++
          releaseError.display
      throw error

/-- Load one weight and note the charge that this load now owns. -/
def loadOwned (name : String) :
    Exec (List String × Host × MemoryBudget) String (PersistentWeight R) := do
  let (weight, charge) ← onSnd (loadPersistentWeight name)
  modify fun s => (s.1 ++ charge.toList, s.2)
  return weight

/-- The persistent weights of a model. -/
structure PersistentWeights (R : Type) where
  tokenEmbd : PersistentWeight R
  outputNorm : PersistentWeight R
  output : Option (PersistentWeight R)

/-- The closure of `load_internal` over the names of the charges. -/
def loadPersistents (model : GgufModel) :
    Exec (List String × Host × MemoryBudget) String (PersistentWeights R) := do
  let tokenEmbd ← loadOwned "token_embd.weight"
  let outputNorm ← loadOwned "output_norm.weight"
  if model.hasTensor "output.weight" then do
    let output ← loadOwned "output.weight"
    return { tokenEmbd, outputNorm, output := some output }
  else return { tokenEmbd, outputNorm, output := none }

/-- Give the charges of a failed load back, the last one first. -/
def rollBackCharges {κ ε : Type} (names : List String) : Exec (κ × MemoryBudget) ε Unit :=
  LayerCache.releaseNames (fun name releaseError =>
    "failed to roll back persistent charge '" ++ name ++ "': " ++ releaseError.display)
    names.reverse

end persistent

/-! ## The layers -/

/-- The types counted by `quantized_weight_bytes`. -/
def countsAsQuantized : GgmlType → Bool
  | .q4_0 | .q8_0 | .q4_K | .q5_K | .q6_K | .q2_K | .q3_K | .q8_K => true
  | _ => false

/-- What loading derives from the descriptors of the layers. -/
structure LayerTables where
  totalWeightBytes : Nat
  quantizedWeightBytes : Nat
  readPlans : List LayerReadPlan
  estimates : List LayerMemoryEstimate
  groupedEstimates : List LayerMemoryEstimate

def readPlanOf (layer : LayerDescriptor) : Outcome String LayerReadPlan :=
  (buildLayerReadPlan layer.tensors).mapErr
    fun error => s!"failed to plan layer {layer.layerIdx} reads: " ++ error

def estimateOf (layer : LayerDescriptor) : Outcome String LayerMemoryEstimate :=
  (estimateLayerMemory layer.tensors).mapErr
    fun error => s!"failed to estimate layer {layer.layerIdx} memory: " ++ error

def groupedEstimateOf (p : LayerDescriptor × LayerReadPlan) : Outcome String LayerMemoryEstimate :=
  (estimateGroupedLayerMemory p.1.tensors p.2).mapErr
    fun error => s!"failed to estimate grouped layer {p.1.layerIdx} memory: " ++ error

def layerTables (model : GgufModel) (layers : List LayerDescriptor) : Outcome String LayerTables := do
  let totalWeightBytes ← Outcome.okOr (checkedSum (model.tensors.filterMap (·.byteLength)))
    "total model weight byte size overflow"
  let quantizedWeightBytes ← Outcome.okOr
    (checkedSum ((model.tensors.filter fun t => countsAsQuantized t.ggmlType).filterMap (·.byteLength)))
    "quantized model weight byte size overflow"
  let readPlans ← layers.mapM readPlanOf
  let estimates ← layers.mapM estimateOf
  let groupedEstimates ← (layers.zip readPlans).mapM groupedEstimateOf
  return { totalWeightBytes, quantizedWeightBytes, readPlans, estimates, groupedEstimates }

/-- `map(..).max().unwrap_or(0)`. -/
def maxLoadPeak (estimates : List LayerMemoryEstimate) : Nat :=
  (estimates.map (·.loadPeakBytes)).foldl max 0

variable (R : Type) [F32 R] [F32Narrow R] [FloatText] [Zero R] [Add R] [Sub R] [Mul R]

/-- A failed load: drop the weights, then give their charges back. -/
def abandonLoad {α : Type} (names : List String) (error : String) : Managed α := do
  rollBackCharges names
  throw error

/-- The cache capacity of a load, once the persistent weights are charged. -/
def cacheCapacity (runtimeConfig : Option RuntimeConfig) (names : List String)
    (maxLayerLoadPeak : Nat) : Managed Nat := do
  let s ← self
  match checkedAdd s.2.used maxLayerLoadPeak with
  | none => abandonLoad names "layer cache lower-bound overflow"
  | some layerLowerBound =>
    let managedLowerBound := max s.2.peakUsed layerLowerBound
    match checkedSub s.2.total managedLowerBound with
    | none =>
      abandonLoad names
        s!"managed lower bound {managedLowerBound} exceeds RAMforge budget {s.2.total}"
    | some maximum =>
      let capacity := match runtimeConfig with
        | some config => if config.layerCacheEnabled then config.layerCacheCapacityBytes else 0
        | none => maximum
      if capacity > maximum then
        abandonLoad names
          s!"configured layer cache capacity {capacity} exceeds runtime maximum {maximum}"
      else return capacity

/-- Where `load_internal` stands once the persistent weights are charged. -/
structure Startup where
  config : LlamaConfig R
  layerDescriptors : List LayerDescriptor
  tables : LayerTables
  weights : PersistentWeights R
  chargeNames : List String

/-- `load_internal` up to the charges of the persistent weights. -/
def startUp (model : GgufModel) : Managed (Startup R) := do
  let config ← resume (LlamaConfig.fromGguf R model)
  resume (validateRequiredTensors model config)
  let layerDescriptors := groupLayers model config.blockCount
  let tables ← resume (layerTables model layerDescriptors)
  let (result, chargeNames) ← withLocal [] (attempt (loadPersistents model))
  match result with
  | .error error => abandonLoad chargeNames error
  | .ok weights => return { config, layerDescriptors, tables, weights, chargeNames }

def loadInternal (runtimeConfig : Option RuntimeConfig) :
    Managed (StreamingLlamaModel R × LayerCache (StreamingLayerWeights R)) := do
  let s ← self
  let model := s.1.2.2.model
  let startup ← startUp R model
  let capacity ← cacheCapacity runtimeConfig startup.chargeNames
    (maxLoadPeak startup.tables.estimates)
  return (
    { config := startup.config
      tokenEmbd := startup.weights.tokenEmbd
      outputNorm := startup.weights.outputNorm
      output := startup.weights.output
      layerDescriptors := startup.layerDescriptors
      persistentDescriptors := .fromModel model
      totalWeightBytes := startup.tables.totalWeightBytes
      quantizedWeightBytes := startup.tables.quantizedWeightBytes
      attnBiasPresent := model.tensors.any fun t => Text.endsWith t.name ".attn_q.bias"
      layerMemoryEstimates := startup.tables.estimates
      groupedLayerMemoryEstimates := startup.tables.groupedEstimates
      layerReadPlans := startup.tables.readPlans
      readCoalescingEnabled := runtimeConfig.elim RuntimeConfig.currentReadCoalescingEnabled
        (·.readCoalescingEnabled)
      groupedReadBufferReuseEnabled :=
        runtimeConfig.elim RuntimeConfig.currentGroupedReadBufferReuseEnabled
          (·.groupedReadBufferReuseEnabled)
      persistentChargeNames := startup.chargeNames },
    LayerCache.new capacity)

/-- `load`, for callers without a plan. -/
def StreamingLlamaModel.load :
    Managed (StreamingLlamaModel R × LayerCache (StreamingLayerWeights R)) :=
  loadInternal R none

def StreamingLlamaModel.loadWithRuntimeConfig (runtimeConfig : RuntimeConfig) :
    Managed (StreamingLlamaModel R × LayerCache (StreamingLayerWeights R)) := do
  mapErr (fun error => "invalid runtime configuration: " ++ error.text)
    (resume runtimeConfig.validate)
  let s ← self
  failIf (s.2.total ≠ runtimeConfig.ramBudgetBytes)
    s!"runtime configuration RAM budget {runtimeConfig.ramBudgetBytes} does not match MemoryBudget {s.2.total}"
  loadInternal R (some runtimeConfig)

end Ramforge
