/-
Loading one layer: a charge for each of its tensors, and then the weights by their parts.

The tensors come one after the other, or by the ranges of the read plan of the layer.  A
range of several tensors is read into one buffer, which has a charge of its own for as
long as it lives.
-/
import Ramforge.Runtime.ModelLoad

namespace Ramforge

open Rust Rust.Exec GgufDataSource

/-- The counters of `load_layer` and `release_layer`. -/
structure ResidencyStats where
  currentResidentLayerBytes : Nat
  peakResidentLayerBytes : Nat
  numLayerLoads : Nat
  numLayerReleases : Nat
  peakManagedBytes : Nat
  currentManagedBytes : Nat
deriving DecidableEq

namespace ResidencyStats

def new : ResidencyStats where
  currentResidentLayerBytes := 0
  peakResidentLayerBytes := 0
  numLayerLoads := 0
  numLayerReleases := 0
  peakManagedBytes := 0
  currentManagedBytes := 0

def onLayerLoad (stats : ResidencyStats) (layerBytes currentManaged : Nat) : ResidencyStats :=
  { stats with
    numLayerLoads := stats.numLayerLoads + 1
    currentResidentLayerBytes := layerBytes
    peakResidentLayerBytes := max stats.peakResidentLayerBytes layerBytes
    currentManagedBytes := currentManaged
    peakManagedBytes := max stats.peakManagedBytes currentManaged }

def onLayerInactive (stats : ResidencyStats) (currentManaged : Nat) : ResidencyStats :=
  { stats with
    currentResidentLayerBytes := 0
    currentManagedBytes := currentManaged
    peakManagedBytes := max stats.peakManagedBytes currentManaged }

def onLayerRelease (stats : ResidencyStats) (currentManaged : Nat) : ResidencyStats :=
  { stats with numLayerReleases := stats.numLayerReleases + 1 }.onLayerInactive currentManaged

end ResidencyStats

/-- The text of an index out of range. -/
def indexOutOfBounds : String := "index out of bounds"

/-- `loaded` and `total_layer_bytes`. -/
structure LoadedTensors (R : Type) where
  loaded : List (String × TensorData R)
  totalLayerBytes : Nat

namespace LayerLoad

def chargeName (layerIdx : Nat) (name : String) : String := LayerCache.activePrefix layerIdx ++ name

/-- The temporary charge of a read buffer. -/
def bufferName (layerIdx : Nat) (which : String) : String :=
  "tmp:layer_read:" ++ toString layerIdx ++ ":" ++ which

section tensors

variable {R : Type} [F32 R]

/-- Add a tensor to those that are loaded. -/
def push (l : LoadedTensors R) (name : String) (tensorData : TensorData R) :
    Managed (LoadedTensors R) := do
  let totalLayerBytes ← okOr (checkedAdd l.totalLayerBytes tensorData.residentBytes)
    "layer resident byte total overflow"
  return { loaded := l.loaded ++ [(name, tensorData)], totalLayerBytes }

/-- Bring the charge of a tensor down to what it holds. -/
def settleCharge (layerIdx : Nat) (name : String) (charge resident : Nat) : Managed Unit :=
  if max resident 1 = charge then return ()
  else do
    let _ ← mapErr (fun error => s!"RAM budget error settling layer {layerIdx} tensor '" ++ name ++
        "': " ++ MemoryError.display error)
      (onSnd (MemoryBudget.resize (chargeName layerIdx name) (max resident 1)))
    return ()

/-- A tensor that is read on its own. -/
def loadTensor (layerIdx : Nat) (l : LoadedTensors R) (desc : TensorDescriptor) :
    Managed (LoadedTensors R) := do
  let fileBytes ← resume desc.knownBytes
  let loadCharge ← resume (tensorLoadChargeBytes desc.ggmlType fileBytes)
  mapErr (fun error => s!"RAM budget too small for layer {layerIdx} tensor '" ++ desc.name ++ "': " ++
      MemoryError.display error)
    (onSnd (MemoryBudget.allocate (chargeName layerIdx desc.name) (max loadCharge 1)))
  let tensorData ← onFst (loadTensorData desc)
  let l ← push l desc.name tensorData
  settleCharge layerIdx desc.name (max loadCharge 1) tensorData.residentBytes
  return l

/-- A tensor of a range, read on its own. -/
def loadPlanned (layerIdx : Nat) (layer : LayerDescriptor) (l : LoadedTensors R)
    (tensor : PlannedTensor) : Managed (LoadedTensors R) := do
  let desc ← resume (descriptorAt layer.tensors tensor)
  loadTensor layerIdx l desc

/-- The charge of a tensor that is read with others; `kind` is how its error calls the load. -/
def chargeTensor (kind : String) (layerIdx : Nat) (layer : LayerDescriptor)
    (tensor : PlannedTensor) : Managed Unit := do
  let desc ← resume (descriptorAt layer.tensors tensor)
  let fileBytes ← resume desc.knownBytes
  let resident ← ofResult
    ((TensorData.residentBytesFor desc.ggmlType desc.numElements fileBytes).mapError
      fun error => "failed to size tensor '" ++ desc.name ++ "': " ++ error.text)
  mapErr (fun error => "RAM budget too small for " ++ kind ++ s!" layer {layerIdx} tensor '" ++
      desc.name ++ "': " ++ MemoryError.display error)
    (onSnd (MemoryBudget.allocate (chargeName layerIdx desc.name) (max resident 1)))

def chargeRange (kind : String) (layerIdx : Nat) (layer : LayerDescriptor)
    (range : PlannedReadRange) : Managed Unit :=
  range.tensors.forM (chargeTensor kind layerIdx layer)

variable [Zero R] [Sub R] [Mul R]

/-- A tensor of the range in `buffer`. -/
def decodeGrouped (layerIdx : Nat) (layer : LayerDescriptor) (buffer : List UInt8)
    (l : LoadedTensors R) (tensor : PlannedTensor) : Managed (LoadedTensors R) := do
  let desc ← resume (descriptorAt layer.tensors tensor)
  let tensorBytes ← resume desc.knownBytes
  let stop ← okOr (checkedAdd tensor.offsetInRange tensorBytes)
    ("tensor '" ++ desc.name ++ "' grouped slice overflows")
  let bytes ← okOr (slice buffer tensor.offsetInRange stop)
    ("tensor '" ++ desc.name ++ "' is outside grouped read buffer")
  let tensorData ← onFst (loadTensorDataFromBorrowedBytes desc bytes)
  let s ← self
  failIf (s.2.get (chargeName layerIdx desc.name) ≠ some (max tensorData.residentBytes 1))
    ("grouped tensor '" ++ desc.name ++ "' resident charge mismatch")
  push l desc.name tensorData

/-- `read_and_decode_grouped_range`; the buffer is returned for the next range. -/
def readAndDecodeGroupedRange (layer : LayerDescriptor) (range : PlannedReadRange)
    (layerIdx rangeIndex : Nat) (buffer : List UInt8) (l : LoadedTensors R) :
    Managed (List UInt8 × LoadedTensors R) := do
  let descriptors ← resume (range.tensors.mapM (descriptorAt layer.tensors))
  let (_, buffer) ← onFst (withLocal buffer (mapErr
    (fun error => s!"failed grouped read for layer {layerIdx} range {rangeIndex} tensors [" ++
      ", ".intercalate (descriptors.map (·.name)) ++ "]: " ++ DataSourceError.text error)
    (readCoalescedTensorRangeInto descriptors range.fileOffset range.byteLength)))
  let l ← range.tensors.foldlM (decodeGrouped layerIdx layer buffer) l
  return (buffer, l)

/-! ## The three ways to load the tensors -/

def loadIndividually (layerIdx : Nat) (layer : LayerDescriptor) : Managed (LoadedTensors R) :=
  layer.tensors.foldlM (loadTensor layerIdx) { loaded := [], totalLayerBytes := 0 }

/-- All ranges through one buffer. -/
def loadReused (layerIdx : Nat) (layer : LayerDescriptor) (plan : LayerReadPlan)
    (scratchBytes : Nat) : Managed (LoadedTensors R) := do
  plan.ranges.forM (chargeRange "reusable grouped" layerIdx layer)
  MemoryBudget.withTemp MemoryError.display (bufferName layerIdx "reused") scratchBytes do
    onFst (reserveBuffer "reusable grouped read buffer")
    let r ← plan.ranges.zipIdx.foldlM
      (fun r range => readAndDecodeGroupedRange layer range.1 layerIdx range.2 r.1 r.2)
      ([], { loaded := [], totalLayerBytes := 0 })
    return r.2

/-- A range through a buffer of its own, if it has several tensors. -/
def loadGroupedRange (layerIdx : Nat) (layer : LayerDescriptor) (l : LoadedTensors R)
    (range : PlannedReadRange × Nat) : Managed (LoadedTensors R) :=
  if 1 < range.1.tensors.length then do
    chargeRange "grouped" layerIdx layer range.1
    MemoryBudget.withTemp MemoryError.display (bufferName layerIdx (toString range.2))
        range.1.byteLength do
      let r ← readAndDecodeGroupedRange layer range.1 layerIdx range.2 [] l
      return r.2
  else range.1.tensors.foldlM (loadPlanned layerIdx layer) l

def loadGrouped (layerIdx : Nat) (layer : LayerDescriptor) (plan : LayerReadPlan) :
    Managed (LoadedTensors R) :=
  plan.ranges.zipIdx.foldlM (loadGroupedRange layerIdx layer) { loaded := [], totalLayerBytes := 0 }

/-! ## The choice between them -/

/-- The three paths of `load_layer`. -/
inductive ReadPath where
  | individual
  | reused (scratchBytes : Nat)
  | grouped
deriving DecidableEq

/-- `use_grouped_reads`. -/
def useGroupedReads (model : StreamingLlamaModel R) (layerIdx : Nat) (plan : LayerReadPlan) :
    Managed Bool := do
  if model.readCoalescingEnabled && plan.ranges.any (fun range => 1 < range.tensors.length) then do
    let estimate ← expect model.groupedLayerMemoryEstimates[layerIdx]? indexOutOfBounds
    onSnd (MemoryBudget.canAllocate estimate.loadPeakBytes)
  else return false

/-- `reusable_peak`. -/
def reusablePeak (model : StreamingLlamaModel R) (layerIdx : Nat) (plan : LayerReadPlan) :
    Managed (Option Nat) :=
  match plan.reusableGroupBufferBytes with
  | none => return none
  | some scratchBytes => do
    let estimate ← expect model.groupedLayerMemoryEstimates[layerIdx]? indexOutOfBounds
    return checkedAdd scratchBytes estimate.residentBytes

/-- `use_reusable_buffer`. -/
def useReusableBuffer (model : StreamingLlamaModel R) (grouped : Bool) (peak : Option Nat) :
    Managed Bool :=
  if model.groupedReadBufferReuseEnabled && grouped then
    match peak with
    | none => return false
    | some required => onSnd (MemoryBudget.canAllocate required)
  else return false

def readPath (model : StreamingLlamaModel R) (layerIdx : Nat) (plan : LayerReadPlan) :
    Managed ReadPath := do
  let grouped ← useGroupedReads model layerIdx plan
  let peak ← reusablePeak model layerIdx plan
  let reusable ← useReusableBuffer model grouped peak
  return if !grouped then .individual
    else if reusable then .reused (plan.reusableGroupBufferBytes.getD 0)
    else .grouped

def loadTensors (layerIdx : Nat) (layer : LayerDescriptor) (plan : LayerReadPlan) :
    ReadPath → Managed (LoadedTensors R)
  | .individual => loadIndividually layerIdx layer
  | .reused scratchBytes => loadReused layerIdx layer plan scratchBytes
  | .grouped => loadGrouped layerIdx layer plan

end tensors

/-! ## The weights by their parts -/

section parts

variable {R : Type}

/-- The map from names to tensors. -/
abbrev Extraction (R α : Type) : Type := Exec (Std.ExtTreeMap String (TensorData R)) String α

def tensorMap (loaded : List (String × TensorData R)) : Std.ExtTreeMap String (TensorData R) :=
  loaded.foldl (fun map p => map.insert p.1 p.2) ∅

/-- `map.remove(..)`. -/
def removeTensor (layerIdx : Nat) (suffix : String) : Extraction R (Option (TensorData R)) := do
  let map ← self
  modify (·.erase (layerPrefix layerIdx ++ suffix))
  return map[layerPrefix layerIdx ++ suffix]?

/-- The closure `get`. -/
def getTensor (layerIdx : Nat) (suffix : String) : Extraction R (TensorData R) := do
  let tensor ← removeTensor layerIdx suffix
  okOr tensor ("missing tensor '" ++ layerPrefix layerIdx ++ suffix ++
    s!"' in loaded layer {layerIdx}")

/-- A round of the loop over the biases. -/
def checkBias (layerIdx : Nat) (name : String) (bias : Option (TensorData R)) (expected : Nat) :
    Outcome String Unit := do
  let b ← Outcome.expect bias "all-or-none checked above"
  Outcome.failIf (b.shape ≠ [expected])
    (s!"invalid blk.{layerIdx}." ++ name ++ s!" shape: expected 1D [{expected}], got {b.shape}")

def validateQkvBias (weights : StreamingLayerWeights R) (layerIdx : Nat) (cfg : LlamaConfig R) :
    Outcome String Unit :=
  let present := [weights.attnQBias.isSome, weights.attnKBias.isSome, weights.attnVBias.isSome]
  let count := present.count true
  if count = 0 then .ok ()
  else do
    Outcome.failIf (count ≠ 3)
      s!"layer {layerIdx} has an incomplete Q/K/V bias set (q.bias: {weights.attnQBias.isSome}, k.bias: {weights.attnKBias.isSome}, v.bias: {weights.attnVBias.isSome}); refusing to run inference with partial biases"
    let qDim ← Outcome.okOr (checkedMul cfg.headCount cfg.headDim) "Q bias dimension overflow"
    let kvDim ← Outcome.okOr (checkedMul cfg.headCountKv cfg.headDim) "K/V bias dimension overflow"
    checkBias layerIdx "attn_q.bias" weights.attnQBias qDim
    checkBias layerIdx "attn_k.bias" weights.attnKBias kvDim
    checkBias layerIdx "attn_v.bias" weights.attnVBias kvDim

/-- The closure behind `extract_result`. -/
def extractWeights (cfg : LlamaConfig R) (layerIdx : Nat) :
    Extraction R (StreamingLayerWeights R) := do
  let attnNorm ← getTensor layerIdx "attn_norm.weight"
  let attnQ ← getTensor layerIdx "attn_q.weight"
  let attnK ← getTensor layerIdx "attn_k.weight"
  let attnV ← getTensor layerIdx "attn_v.weight"
  let attnOutput ← getTensor layerIdx "attn_output.weight"
  let ffnNorm ← getTensor layerIdx "ffn_norm.weight"
  let ffnGate ← getTensor layerIdx "ffn_gate.weight"
  let ffnUp ← getTensor layerIdx "ffn_up.weight"
  let ffnDown ← getTensor layerIdx "ffn_down.weight"
  let attnQBias ← removeTensor layerIdx "attn_q.bias"
  let attnKBias ← removeTensor layerIdx "attn_k.bias"
  let attnVBias ← removeTensor layerIdx "attn_v.bias"
  let weights : StreamingLayerWeights R :=
    { attnNorm, attnQ, attnK, attnV, attnOutput, ffnNorm, ffnGate, ffnUp, ffnDown
      attnQBias, attnKBias, attnVBias }
  resume (validateQkvBias weights layerIdx cfg)
  return weights

end parts

end LayerLoad

namespace StreamingLlamaModel

open LayerLoad

/-- A call on the counters, the file and the budget. -/
abbrev LayerCall (α : Type) : Type := Exec (ResidencyStats × Host × MemoryBudget) String α

/-- The check that every charge is still there, before the first is released. -/
def checkReleasable {ε : Type} (name : String) : Exec (ResidencyStats × Host × MemoryBudget) ε Unit := do
  let s ← self
  let _ ← expect (s.2.2.get name) ("layer charge '" ++ name ++ "' disappeared before release")

def releaseLayer {ε : Type} (layerIdx : Nat) :
    Exec (ResidencyStats × Host × MemoryBudget) ε Unit := do
  let names := (← self).2.2.namesUnder (LayerCache.activePrefix layerIdx)
  names.forM checkReleasable
  onSnd (LayerCache.releaseNames (fun name error =>
    "failed to release layer charge '" ++ name ++ "': " ++ error.display) names)
  modify fun s => (s.1.onLayerRelease s.2.2.used, s.2)

variable {R : Type} [F32 R] [Zero R] [Sub R] [Mul R]

def loadLayer (model : StreamingLlamaModel R) (layerIdx : Nat) :
    LayerCall (StreamingLayerWeights R) := do
  let layer ← okOr model.layerDescriptors[layerIdx]? s!"layer {layerIdx} out of bounds"
  let plan ← expect model.layerReadPlans[layerIdx]? indexOutOfBounds
  let path ← onSnd (readPath model layerIdx plan)
  match ← attempt (onSnd (loadTensors layerIdx layer plan path)) with
  | .error error => do
    releaseLayer layerIdx
    throw error
  | .ok l => do
    modify fun s => (s.1.onLayerLoad l.totalLayerBytes s.2.2.used, s.2)
    match ← attempt (resume (extractWeights model.config layerIdx (tensorMap l.loaded)).1) with
    | .error error => do
      releaseLayer layerIdx
      throw error
    | .ok weights => return weights

end StreamingLlamaModel
end Ramforge
