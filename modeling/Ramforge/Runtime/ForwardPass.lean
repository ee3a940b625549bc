/-
The forward pass of one token through all layers.

Each layer is found in the cache or loaded, and works against the history of the K/V
cache.  The keys and values of the token are staged until every layer has run; only then
are they appended.
-/
import Ramforge.Runtime.ForwardState

namespace Ramforge

open Rust Rust.Exec GgufDataSource

/-- `size_of::<Vec<f32>>()`. -/
def sizeOfVec : Nat := 24

/-- `staged_k` and `staged_v`. -/
structure Staged (R : Type) where
  k : List (List R)
  v : List (List R)

/-- The sizes a pass is charged by. -/
structure ForwardSizes where
  qDim : Nat
  kvDim : Nat
  nonStagedBytes : Nat
  stagedBytes : Nat
  actBytes : Nat
deriving DecidableEq

namespace ForwardPass

open Running StreamingLlamaModel

section sizes

variable {σ R : Type}

/-- Worst-case transient floats of a pass. -/
def actFloats (cfg : LlamaConfig R) (qDim kvDim seq biasFloats : Nat) : Option Nat := do
  let value ← checkedMul cfg.embeddingLength 7
  let value ← checkedAdd value (← checkedMul qDim 2)
  let value ← checkedAdd value (← checkedMul kvDim 2)
  let value ← checkedAdd value (← checkedMul cfg.feedForwardLength 4)
  let value ← checkedAdd value (← checkedMul cfg.headCount seq)
  checkedAdd value biasFloats

/-- `bias_floats`. -/
def biasFloats (attnBiasPresent : Bool) (qDim kvDim : Nat) : Exec σ String Nat :=
  if attnBiasPresent then do
    let both ← okOr (checkedMul kvDim 2) "attention bias dimension overflow"
    okOr (checkedAdd qDim both) "attention bias dimension overflow"
  else return 0

def forwardSizes (cfg : LlamaConfig R) (attnBiasPresent : Bool) (pos : Nat) :
    Exec σ String ForwardSizes := do
  let kvDim ← okOr (checkedMul cfg.headCountKv cfg.headDim) "KV activation dimension overflow"
  let qDim ← okOr (checkedMul cfg.headCount cfg.headDim) "query activation dimension overflow"
  let seq ← okOr (checkedAdd pos 1) "attention sequence length overflow"
  let bias ← biasFloats attnBiasPresent qDim kvDim
  let floats ← okOr (actFloats cfg qDim kvDim seq bias) "forward activation size overflow"
  let stagedKvFloats ← okOr ((checkedMul cfg.blockCount kvDim).bind (checkedMul · 2))
    "staged K/V capacity overflow"
  let stagedPayloadBytes ← okOr (checkedMul stagedKvFloats KvCache.sizeOfF32)
    "staged K/V byte size overflow"
  let stagedTableBytes ← okOr ((checkedMul cfg.blockCount 2).bind (checkedMul · sizeOfVec))
    "staged K/V table byte size overflow"
  let stagedBytes ← okOr (checkedAdd stagedPayloadBytes stagedTableBytes)
    "forward staged K/V byte size exceeds u64"
  let nonStagedBytes ← okOr (checkedMul floats KvCache.sizeOfF32)
    "forward activation byte size exceeds u64"
  let actBytes ← okOr (checkedAdd nonStagedBytes stagedBytes)
    "forward temporary byte size overflow"
  return { qDim, kvDim, nonStagedBytes, stagedBytes, actBytes }

/-- `embedding_workspace_bytes`. -/
def embeddingWorkspaceBytes (model : StreamingLlamaModel R) (nEmbd : Nat) : Exec σ String Nat := do
  let decodedBytes ← okOr (checkedMul nEmbd KvCache.sizeOfF32) "embedding workspace size overflow"
  match model.tokenEmbd with
  | .resident _ => return decodedBytes
  | .streamed descriptor =>
    if descriptor.ggmlType = .f32 then return decodedBytes else rowBytesFor descriptor nEmbd

end sizes

/-! ## Staged keys and values -/

section staged

variable {σ R : Type} (machine : Machine)

/-- The capacities of the staged vectors, those of the keys first. -/
def stagedCapacities (staged : Staged R) : List Nat :=
  staged.k.zipIdx.map (fun k => machine.capacity (2 + 2 * k.2) k.1.length) ++
    staged.v.zipIdx.map fun v => machine.capacity (3 + 2 * v.2) v.1.length

def stagedKvCapacityBytes (blockCount : Nat) (staged : Staged R) : Exec σ String Nat := do
  let tableSlots ← okOr (checkedAdd (machine.capacity 0 blockCount) (machine.capacity 1 blockCount))
    "staged K/V table capacity overflow"
  let tableBytes ← okOr (checkedMul tableSlots sizeOfVec) "staged K/V table byte size overflow"
  let payloadElements ← (stagedCapacities machine staged).foldlM
    (fun total capacity => okOr (checkedAdd total capacity) "staged K/V payload capacity overflow") 0
  let payloadBytes ← okOr (checkedMul payloadElements KvCache.sizeOfF32)
    "staged K/V payload byte size overflow"
  okOr (checkedAdd tableBytes payloadBytes) "staged K/V capacity byte size overflow"

/-- The charge of the running pass. -/
def chargeName : String := "tmp:forward"

def settleStagedKvCharge (blockCount nonStagedBytes minimumStagedBytes : Nat) (staged : Staged R) :
    Exec MemoryBudget String Unit := do
  let actualStagedBytes ← stagedKvCapacityBytes machine blockCount staged
  let target ← okOr (checkedAdd nonStagedBytes (max actualStagedBytes minimumStagedBytes))
    "forward staged K/V charge overflow"
  let b ← self
  let current ← okOr (b.get chargeName) "forward charge missing while staging K/V"
  if current ≠ target then do
    let _ ← mapErr (fun error => "failed to settle staged K/V charge: " ++ MemoryError.display error)
      (MemoryBudget.resize chargeName target)
  else return ()

end staged

variable {R : Type} [Zero R] [One R] [Add R] [Sub R] [Neg R] [Mul R] [Div R] [F32 R] [F32Math R]
  [F32Rotation R]

/-- What a pass knows besides its state. -/
structure Pass (R : Type) where
  machine : Machine
  model : StreamingLlamaModel R
  pos : Nat
  sizes : ForwardSizes

/-- The locals of the loop over the layers. -/
structure Locals (R : Type) where
  acts : Activations R
  staged : Staged R

namespace Pass

/-- `settle_staged_kv_charge` while staging is in progress. -/
def settle (p : Pass R) (staged : Staged R) : Running R Unit :=
  onBudget (settleStagedKvCharge p.machine p.model.config.blockCount p.sizes.nonStagedBytes
    p.sizes.stagedBytes staged)

/-- Stage the key and the value that a layer has left. -/
def stage (p : Pass R) (acts : Activations R) (staged : Staged R) : Running R (Staged R) := do
  let k ← clonedBuffer acts.kTmp "staged K storage"
  let staged := { staged with k := staged.k ++ [k] }
  p.settle staged
  let v ← clonedBuffer acts.vTmp "staged V storage"
  let staged := { staged with v := staged.v ++ [v] }
  p.settle staged
  return staged

/-- `ModelExecutor::execute_layer` over the buffers of the pass. -/
def execute (p : Pass R) (layerIdx : Nat) (kv : KvCache R) (acts : Activations R)
    (layer : StreamingLayerWeights R) : Outcome String Unit × Activations R :=
  ModelExecutor.executeLayer p.machine p.model.config layer layerIdx p.pos kv acts

/-- Offer a layer that has run to the cache, and give its charges back if it is declined. -/
def retainLayer (layerIdx : Nat) (layer : StreamingLayerWeights R) (layerBytes : Nat) :
    Running R Unit := do
  match ← attempt (onCache (LayerCache.insertLoaded layerIdx layer layerBytes)) with
  | .ok (.cached evictions) => do
    count (·.onCacheEvictions evictions)
    recordCacheState
    modify fun s => ({ s.1 with
      stats := s.1.stats.onLayerInactive s.2.used
      cacheStats := s.1.cacheStats.onLayerCached }, s.2)
  | .ok (.skipped _ evictions) => do
    count (·.onCacheEvictions evictions)
    recordCacheState
    onLayer (releaseLayer layerIdx)
  | .error error => do
    recordCacheState
    onLayer (releaseLayer layerIdx)
    throw error

/-- The end of a layer that was loaded and has run. -/
def finishLoaded (p : Pass R) (layerIdx : Nat) (layer : StreamingLayerWeights R)
    (acts : Activations R) (staged : Staged R) : Running R (Locals R) := do
  match ← attempt (p.stage acts staged) with
  | .error error => do
    onLayer (releaseLayer layerIdx)
    throw error
  | .ok staged => do
    match ← attempt (resume layer.tryTotalResidentBytes) with
    | .error error => do
      onLayer (releaseLayer layerIdx)
      throw error
    | .ok layerBytes => do
      retainLayer layerIdx layer layerBytes
      return { acts, staged }

/-- A layer that is not in the cache. -/
def missedLayer (p : Pass R) (layerIdx : Nat) (l : Locals R) : Running R (Locals R) := do
  count (·.onCacheMiss)
  let estimate ← expect p.model.layerMemoryEstimates[layerIdx]? indexOutOfBounds
  ensureLayerCacheHeadroom estimate.loadPeakBytes
  let layer ← onLayer (p.model.loadLayer layerIdx)
  let s ← self
  match p.execute layerIdx s.1.kv l.acts layer with
  | (.panic message, _) => panic message
  | (.err error, _) => do
    onLayer (releaseLayer layerIdx)
    throw error
  | (.ok _, acts) => p.finishLoaded layerIdx layer acts l.staged

/-- A layer that was in the cache, with what running it there has given. -/
def hitLayer (p : Pass R) (l : Locals R) : Outcome String Unit × Activations R → Running R (Locals R)
  -- The layer runs under the lock of the cache, so its panic leaves before the counters.
  | (.panic message, _) => panic message
  | (result, acts) => do
    recordCacheState
    count (·.onCacheHit)
    resume result
    let staged ← p.stage acts l.staged
    return { acts, staged }

/-- A round of the loop over the layers. -/
def runLayer (p : Pass R) (l : Locals R) (layerIdx : Nat) : Running R (Locals R) := do
  let s ← self
  let cached ← onCache (onFst (LayerCache.withEntry layerIdx (p.execute layerIdx s.1.kv l.acts)))
  match cached with
  | some result => p.hitLayer l result
  | none => p.missedLayer layerIdx l

/-- The scratch of the pass, with the embedding of the token in `hidden`. -/
def activations (p : Pass R) (tokenId : Nat) : Running R (Activations R) := do
  let cfg := p.model.config
  let hidden ← zeroedBuffer cfg.embeddingLength "hidden activation"
  let hidden ← onManaged (p.model.tokenEmbd.getEmbeddingInto tokenId cfg.embeddingLength hidden)
  let tmp ← zeroedBuffer cfg.embeddingLength "forward scratch"
  let qTmp ← zeroedBuffer p.sizes.qDim "query scratch"
  let kTmp ← zeroedBuffer p.sizes.kvDim "key scratch"
  let vTmp ← zeroedBuffer p.sizes.kvDim "value scratch"
  let attnProj ← zeroedBuffer cfg.embeddingLength "attention projection scratch"
  let gate ← zeroedBuffer cfg.feedForwardLength "FFN gate scratch"
  let up ← zeroedBuffer cfg.feedForwardLength "FFN up scratch"
  let gateSilu ← zeroedBuffer cfg.feedForwardLength "FFN activation scratch"
  let gateUp ← zeroedBuffer cfg.feedForwardLength "FFN product scratch"
  let ffnOut ← zeroedBuffer cfg.embeddingLength "FFN output scratch"
  return { hidden, tmp, qTmp, kTmp, vTmp, attnProj, gate, up, gateSilu, gateUp, ffnOut }

/-- Everything before the commit: the embedding, the layers, and the charge of what is staged. -/
def runLayers (p : Pass R) (tokenId : Nat) : Running R (Locals R) := do
  let cfg := p.model.config
  let workspace ← embeddingWorkspaceBytes p.model cfg.embeddingLength
  ensureLayerCacheHeadroom workspace
  let acts ← p.activations tokenId
  onHost (reserveBuffer "staged K table")
  onHost (reserveBuffer "staged V table")
  p.settle { k := [], v := [] }
  let l ← (List.range cfg.blockCount).foldlM p.runLayer { acts, staged := { k := [], v := [] } }
  onBudget (settleStagedKvCharge p.machine cfg.blockCount p.sizes.nonStagedBytes 0 l.staged)
  return l

/-- Append what is staged and move to the next position. -/
def commit (p : Pass R) (staged : Staged R) : Exec (KvCache R) String Unit := do
  (staged.k.zip staged.v).zipIdx.forM fun kv => KvCache.append kv.2 kv.1.1 kv.1.2
  KvCache.incrementSeqLen p.machine.debugAssertions

/-- `persistent_f32_view`. -/
def persistentF32View (weight : PersistentWeight R) : Running R (List R) :=
  match weight with
  | .resident tensor => ComputeDispatch.tensorF32View tensor
  | .streamed _ => onHost weight.toF32Vec

/-- The closure under the charge of the pass. -/
def body (p : Pass R) (tokenId : Nat) (finalHidden : List R) : Running R (List R) := do
  let l ← p.runLayers tokenId
  onKv (p.commit l.staged)
  let outputNorm ← persistentF32View p.model.outputNorm
  let (_, finalHidden) ← onLocal finalHidden
    (CpuBackend.rmsnorm l.acts.hidden outputNorm p.model.config.rmsEps)
  return finalHidden

end Pass

/-- The checks of a pass on its position, the K/V cache and the output buffer. -/
def checkCall (cfg : LlamaConfig R) (pos : Nat) (finalHidden : List R) : Running R Unit := do
  let s ← self
  let kv := s.1.kv
  failIf (pos ≠ kv.seqLen)
    s!"KV position/history mismatch: position {pos} requires cache history {pos}, got {kv.seqLen}"
  failIf (kv.nLayers ≠ cfg.blockCount ∨ kv.nKvHeads ≠ cfg.headCountKv ∨ kv.headDim ≠ cfg.headDim)
    s!"KV cache dimensions do not match model: cache layers={kv.nLayers}, kv_heads={kv.nKvHeads}, head_dim={kv.headDim}; model layers={cfg.blockCount}, kv_heads={cfg.headCountKv}, head_dim={cfg.headDim}"
  failIf (finalHidden.length ≠ cfg.embeddingLength)
    s!"final hidden buffer size mismatch: expected {cfg.embeddingLength}, got {finalHidden.length}"

end ForwardPass

open ForwardPass

/-- The result is what `final_hidden` holds after the call; only the last step writes it. -/
def StreamingLlamaModel.forwardSingleStreaming {R : Type} [Zero R] [One R] [Add R] [Sub R] [Neg R]
    [Mul R] [Div R] [F32 R] [F32Math R] [F32Rotation R] (model : StreamingLlamaModel R)
    (machine : Machine) (tokenId : UInt32) (pos : Nat) (finalHidden : List R) :
    Running R (List R) := do
  checkCall model.config pos finalHidden
  let sizes ← forwardSizes model.config model.attnBiasPresent pos
  ensureLayerCacheHeadroom sizes.actBytes
  MemoryBudget.withTemp MemoryError.display chargeName sizes.actBytes
    (Pass.body { machine, model, pos, sizes } tokenId.toNat finalHidden)

end Ramforge
