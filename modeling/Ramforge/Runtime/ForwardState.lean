/-
One transformer layer over activation buffers that the caller owns.

The buffers are the state of the call.  The key and the value of the token are left in
`kTmp` and `vTmp`: the layer reads the history of the cache and writes none.
-/
import Ramforge.Core.Elementwise
import Ramforge.Runtime.Backend
import Ramforge.Runtime.Decoding
import Ramforge.Runtime.LayerLoad
import Ramforge.Runtime.LlamaConfig
import Ramforge.Runtime.ModelLoad
import Ramforge.Runtime.Persistent

namespace Ramforge

open Rust Rust.Exec

/-- What `expect` on a `Result` adds to its own text is left out. -/
def orExpect {σ ε ε' α : Type} (m : Exec σ ε α) (message : String) : Exec σ ε' α :=
  orPanic m fun _ => message

namespace CpuBackend

variable {R : Type} [Zero R] [Add R] [Mul R] [Div R] [Neg R] [One R] [F32 R] [F32Math R]
  [F32Rotation R]

/-- The state is `y`, and `out` below. -/
def rmsnorm (x weight : List R) (eps : R) : Exec (List R) String Unit :=
  orExpect (Compute.rmsNormReference x weight eps) "backend RMSNorm input dimensions must match"

def add (a b : List R) : Exec (List R) String Unit :=
  orExpect (Compute.addReference a b) "backend add input dimensions must match"

def mul (a b : List R) : Exec (List R) String Unit :=
  orExpect (Compute.mulReference a b) "backend multiply input dimensions must match"

def silu (x : List R) : Exec (List R) String Unit :=
  orExpect (Compute.siluReference x) "backend SiLU input dimensions must match"

end CpuBackend

namespace ComputeDispatch

variable {R : Type} [F32 R] [Zero R] [Add R] [Sub R] [Mul R]

def tensorF32View {σ : Type} (tensor : TensorData R) : Exec σ String (List R) :=
  match tensor.asF32Slice with
  | some (data, _) => pure data
  | none => mapErr DataSourceError.text tensor.toF32Vec

/-- The state is `y`. -/
def matvecBackend (backend : CpuBackend) (td : TensorData R) (x : List R) :
    Exec (List R) String Unit :=
  match td.asF32Slice with
  | some (data, shape) => backend.matvec data shape x
  | none => quantizedMatvecDispatch backend td x

end ComputeDispatch

/-- The scratch of a forward pass. -/
structure Activations (R : Type) where
  hidden : List R
  tmp : List R
  qTmp : List R
  kTmp : List R
  vTmp : List R
  attnProj : List R
  gate : List R
  up : List R
  gateSilu : List R
  gateUp : List R
  ffnOut : List R

namespace Activations

variable {R ε α : Type}

/-! A call on one of the buffers. -/

def onHidden (m : Exec (List R) ε α) : Exec (Activations R) ε α :=
  onPart hidden (fun x a => { a with hidden := x }) m

def onTmp (m : Exec (List R) ε α) : Exec (Activations R) ε α :=
  onPart tmp (fun x a => { a with tmp := x }) m

def onQ (m : Exec (List R) ε α) : Exec (Activations R) ε α :=
  onPart qTmp (fun x a => { a with qTmp := x }) m

def onK (m : Exec (List R) ε α) : Exec (Activations R) ε α :=
  onPart kTmp (fun x a => { a with kTmp := x }) m

def onV (m : Exec (List R) ε α) : Exec (Activations R) ε α :=
  onPart vTmp (fun x a => { a with vTmp := x }) m

def onAttnProj (m : Exec (List R) ε α) : Exec (Activations R) ε α :=
  onPart attnProj (fun x a => { a with attnProj := x }) m

def onGate (m : Exec (List R) ε α) : Exec (Activations R) ε α :=
  onPart gate (fun x a => { a with gate := x }) m

def onUp (m : Exec (List R) ε α) : Exec (Activations R) ε α :=
  onPart up (fun x a => { a with up := x }) m

def onGateSilu (m : Exec (List R) ε α) : Exec (Activations R) ε α :=
  onPart gateSilu (fun x a => { a with gateSilu := x }) m

def onGateUp (m : Exec (List R) ε α) : Exec (Activations R) ε α :=
  onPart gateUp (fun x a => { a with gateUp := x }) m

def onFfnOut (m : Exec (List R) ε α) : Exec (Activations R) ε α :=
  onPart ffnOut (fun x a => { a with ffnOut := x }) m

def onQK (m : Exec (List R × List R) ε α) : Exec (Activations R) ε α :=
  onPart (fun a => (a.qTmp, a.kTmp)) (fun x a => { a with qTmp := x.1, kTmp := x.2 }) m

end Activations

/-- What an execution takes from the machine it runs on. -/
structure Machine where
  build : Build
  debugAssertions : Bool
  backend : CpuBackend
  /-- The capacity of the `i`-th vector that a call reserves for `len` elements. -/
  capacity : Nat → Nat → Nat
  le_capacity : ∀ i len, len ≤ capacity i len

namespace ModelExecutor

open Activations ComputeDispatch

variable {R : Type} [Zero R] [One R] [Add R] [Sub R] [Neg R] [Mul R] [Div R] [F32 R] [F32Math R]
  [F32Rotation R]

def applyRope (pos headDim nHeads nKvHeads : Nat) (freqBase : R) :
    Exec (List R × List R) String Unit :=
  orExpect (Compute.ropeReference pos headDim nHeads nKvHeads freqBase)
    "model RoPE tensors must satisfy their declared dimensions"

/-- `for (value, bias) in values.iter_mut().zip(bias) { *value += *bias; }`. -/
def addBias (values bias : List R) : List R :=
  List.zipWith (· + ·) values bias ++ values.drop bias.length

/-- `hidden.copy_from_slice(tmp)`. -/
def copyTmpToHidden : Exec (Activations R) String Unit := do
  let a ← self
  let hidden ← copyFromSlice a.hidden a.tmp
  modify fun a => { a with hidden }

/-- `tensor_f32_view` of a bias. -/
def biasView {σ : Type} (layerIdx : Nat) (name : String) (bias : TensorData R) :
    Exec σ String (List R) :=
  mapErr (fun e => "failed to decode " ++ name ++ s!" of layer {layerIdx}: " ++ e)
    (tensorF32View bias)

def addBiases (layer : StreamingLayerWeights R) (layerIdx : Nat) : Exec (Activations R) String Unit :=
  match layer.attnQBias, layer.attnKBias, layer.attnVBias with
  | none, none, none => return ()
  | some bq, some bk, some bv => do
    let bq ← biasView layerIdx "attn_q.bias" bq
    let bk ← biasView layerIdx "attn_k.bias" bk
    let bv ← biasView layerIdx "attn_v.bias" bv
    onQ (modify (addBias · bq))
    onK (modify (addBias · bk))
    onV (modify (addBias · bv))
  | _, _, _ =>
    throw s!"internal error: incomplete Q/K/V bias set survived load of layer {layerIdx}"

/-- The checks on the lengths of the buffers. -/
def checkActivations (cfg : LlamaConfig R) (layerIdx : Nat) : Exec (Activations R) String Unit := do
  let qDim ← okOr (checkedMul cfg.headCount cfg.headDim) "query activation dimension overflow"
  let kvDim ← okOr (checkedMul cfg.headCountKv cfg.headDim) "KV activation dimension overflow"
  let a ← self
  failIf (a.hidden.length ≠ cfg.embeddingLength ∨ a.tmp.length ≠ cfg.embeddingLength ∨
      a.attnProj.length ≠ cfg.embeddingLength ∨ a.ffnOut.length ≠ cfg.embeddingLength ∨
      a.qTmp.length ≠ qDim ∨ a.kTmp.length ≠ kvDim ∨ a.vTmp.length ≠ kvDim)
    s!"layer {layerIdx} activation shape mismatch for embedding {cfg.embeddingLength}, heads {cfg.headCount}, kv heads {cfg.headCountKv}, head_dim {cfg.headDim}"

variable (machine : Machine) (cfg : LlamaConfig R) (layer : StreamingLayerWeights R)
  (layerIdx : Nat)

/-- `backend.rmsnorm(hidden, norm, cfg.rms_eps, tmp)` with the norm of a part of the layer. -/
def normalize (name : String) (norm : TensorData R) : Exec (Activations R) String Unit := do
  let norm ← mapErr (fun e => "failed to decode " ++ name ++ s!" of layer {layerIdx}: " ++ e)
    (tensorF32View norm)
  let a ← self
  onTmp (CpuBackend.rmsnorm a.hidden norm cfg.rmsEps)

/-- Norm, projections and biases. -/
def project : Exec (Activations R) String Unit := do
  normalize cfg layerIdx "attn_norm" layer.attnNorm
  let a ← self
  onQ (matvecBackend machine.backend layer.attnQ a.tmp)
  onK (matvecBackend machine.backend layer.attnK a.tmp)
  onV (matvecBackend machine.backend layer.attnV a.tmp)
  addBiases layer layerIdx

/-- The attention of the token over the history and itself. -/
def attendHistory (kvCache : KvCache R) : Exec (Activations R) String (List R) := do
  let histLen := kvCache.seqLen
  let kHistory ← resume (KvCache.getKRange layerIdx 0 histLen kvCache).1
  let vHistory ← resume (KvCache.getVRange layerIdx 0 histLen kvCache).1
  let a ← self
  attentionChecked machine.build a.qTmp kHistory vHistory a.kTmp a.vTmp histLen cfg.headCount
    cfg.headCountKv cfg.headDim

/-- A residual: `tmp = hidden + part`, and back to `hidden`. -/
def addResidual (part : Activations R → List R) : Exec (Activations R) String Unit := do
  let a ← self
  onTmp (CpuBackend.add a.hidden (part a))
  copyTmpToHidden

/-- Norm, SwiGLU and the down projection. -/
def feedForward : Exec (Activations R) String Unit := do
  normalize cfg layerIdx "ffn_norm" layer.ffnNorm
  let a ← self
  onGate (matvecBackend machine.backend layer.ffnGate a.tmp)
  onUp (matvecBackend machine.backend layer.ffnUp a.tmp)
  let a ← self
  onGateSilu (CpuBackend.silu a.gate)
  let a ← self
  onGateUp (CpuBackend.mul a.gateSilu a.up)
  let a ← self
  onFfnOut (matvecBackend machine.backend layer.ffnDown a.gateUp)

def executeLayer (pos : Nat) (kvCache : KvCache R) : Exec (Activations R) String Unit := do
  checkActivations cfg layerIdx
  project machine cfg layer layerIdx
  onQK (applyRope pos cfg.headDim cfg.headCount cfg.headCountKv cfg.ropeFreqBase)
  let attnOut ← attendHistory machine cfg layerIdx kvCache
  onAttnProj (matvecBackend machine.backend layer.attnOutput attnOut)
  addResidual Activations.attnProj
  feedForward machine cfg layer layerIdx
  addResidual Activations.ffnOut

end ModelExecutor
end Ramforge

/-!
What the calls on a loaded model change: the counters, the file handle, the layer cache
behind its lock, the K/V cache and the budget.
-/

namespace Ramforge

open Rust Rust.Exec GgufDataSource

/-- The counters of `ResidencyStats` about the layer cache. -/
structure LayerCacheStats where
  numLayerCached : Nat
  currentCachedLayerCount : Nat
  peakCachedLayerCount : Nat
  currentCachedBytes : Nat
  peakCachedBytes : Nat
  cacheHits : Nat
  cacheMisses : Nat
  cacheEvictions : Nat
deriving DecidableEq

namespace LayerCacheStats

def new : LayerCacheStats where
  numLayerCached := 0
  currentCachedLayerCount := 0
  peakCachedLayerCount := 0
  currentCachedBytes := 0
  peakCachedBytes := 0
  cacheHits := 0
  cacheMisses := 0
  cacheEvictions := 0

def onCacheHit (stats : LayerCacheStats) : LayerCacheStats := { stats with cacheHits := stats.cacheHits + 1 }

def onCacheMiss (stats : LayerCacheStats) : LayerCacheStats :=
  { stats with cacheMisses := stats.cacheMisses + 1 }

/-- `saturating_add`. -/
def onCacheEvictions (stats : LayerCacheStats) (count : Nat) : LayerCacheStats :=
  { stats with cacheEvictions := min (stats.cacheEvictions + count) (u64Bound - 1) }

def onCacheState (stats : LayerCacheStats) (entries bytes : Nat) : LayerCacheStats :=
  { stats with
    currentCachedLayerCount := entries
    currentCachedBytes := bytes
    peakCachedLayerCount := max stats.peakCachedLayerCount entries
    peakCachedBytes := max stats.peakCachedBytes bytes }

/-- The first half of `on_layer_cached`; the second is `ResidencyStats.onLayerInactive`. -/
def onLayerCached (stats : LayerCacheStats) : LayerCacheStats :=
  { stats with numLayerCached := stats.numLayerCached + 1 }

end LayerCacheStats

def ResidencyStats.updateManaged (stats : ResidencyStats) (currentManaged : Nat) : ResidencyStats :=
  { stats with
    currentManagedBytes := currentManaged
    peakManagedBytes := max stats.peakManagedBytes currentManaged }

/-- All that a call on the model may change besides the budget. -/
structure ForwardState (R : Type) where
  stats : ResidencyStats
  cacheStats : LayerCacheStats
  host : Host
  cache : LayerCache (StreamingLayerWeights R)
  kv : KvCache R

/-- A call on a loaded model. -/
abbrev Running (R α : Type) : Type := Exec (ForwardState R × MemoryBudget) String α

namespace Running

variable {R α : Type}

/-! A call on a part of the state. -/

def onHost (m : Exec Host String α) : Running R α :=
  onFst (onPart ForwardState.host (fun host s => { s with host }) m)

def onManaged (m : Managed α) : Running R α :=
  onPart (fun s => (s.1.host, s.2)) (fun t s => ({ s.1 with host := t.1 }, t.2)) m

def onLayer (m : StreamingLlamaModel.LayerCall α) : Running R α :=
  onPart (fun s => (s.1.stats, s.1.host, s.2))
    (fun t s => ({ s.1 with stats := t.1, host := t.2.1 }, t.2.2)) m

def onCache (m : LayerCache.Method (StreamingLayerWeights R) α) : Running R α :=
  onPart (fun s => (s.1.cache, s.2)) (fun t s => ({ s.1 with cache := t.1 }, t.2)) m

def onKv (m : Exec (KvCache R) String α) : Running R α :=
  onFst (onPart ForwardState.kv (fun kv s => { s with kv }) m)

def onBudget (m : Exec MemoryBudget String α) : Running R α := onSnd m

def count (f : LayerCacheStats → LayerCacheStats) : Running R Unit :=
  modify fun s => ({ s.1 with cacheStats := f s.1.cacheStats }, s.2)

/-- `stats.on_cache_state(cache.entry_count(), cache.used_bytes())`. -/
def recordCacheState : Running R Unit :=
  modify fun s => ({ s.1 with
    cacheStats := s.1.cacheStats.onCacheState s.1.cache.entries.size s.1.cache.usedBytes }, s.2)

/-- `zeroed_f32_buffer`. -/
def zeroedBuffer [Zero R] (len : Nat) (label : String) : Running R (List R) := do
  onHost (reserveBuffer label)
  return List.replicate len 0

/-- `cloned_f32_buffer`. -/
def clonedBuffer (source : List R) (label : String) : Running R (List R) := do
  onHost (reserveBuffer label)
  return source

end Running

open Running

namespace StreamingLlamaModel

variable {R : Type}

def ensureLayerCacheHeadroom (requiredBytes : Nat) : Running R Unit := do
  let evictions ← onCache (LayerCache.evictUntilAvailable requiredBytes)
  count (·.onCacheEvictions evictions)
  recordCacheState

def clearLayerCache : Exec (LayerCache (StreamingLayerWeights R) × MemoryBudget) String Unit := do
  let _ ← LayerCache.clear

variable [Zero R] [One R] [Add R] [Sub R] [Neg R] [Mul R] [Div R] [F32 R] [F32Math R]
  [F32Rotation R]

/-! ## Logits -/

/-- The output projection, or the embedding where the two are tied. -/
def outputWeight (model : StreamingLlamaModel R) : PersistentWeight R :=
  model.output.getD model.tokenEmbd

def logitsWorkspaceMinBytes {σ : Type} (model : StreamingLlamaModel R) : Exec σ String Nat :=
  match model.outputWeight with
  | .resident _ => return 0
  | .streamed descriptor => do
    let rowBytes ← rowBytesFor descriptor model.config.embeddingLength
    if descriptor.ggmlType = .f32 then return rowBytes
    else do
      let decodedBytes ← okOr (checkedMul model.config.embeddingLength 4)
        "logits workspace decoded size overflow"
      okOr (checkedAdd rowBytes decodedBytes) "logits workspace size overflow"

/-- The result is what `logits_out` holds after the call. -/
def computeLogits (model : StreamingLlamaModel R) (machine : Machine) (hidden logitsOut : List R) :
    Running R (List R) := do
  failIf (logitsOut.length ≠ model.config.vocabSize)
    s!"logits buffer size mismatch: expected {model.config.vocabSize}, got {logitsOut.length}"
  let required ← model.logitsWorkspaceMinBytes
  ensureLayerCacheHeadroom required
  match model.outputWeight with
  | .resident td => do
    let (_, logits) ← onLocal logitsOut (ComputeDispatch.matvecBackend machine.backend td hidden)
    return logits
  | .streamed desc => onManaged ((PersistentWeight.streamed desc).matvecInto hidden logitsOut)

/-! ## The end of a model -/

/-- `empty_persistent_weight`, a tensor without elements. -/
def emptyPersistentWeight : PersistentWeight R := .resident (.f32 [] [0])

/-- The check that the charges of a model are still there. -/
def checkPersistentCharges {κ : Type} : List String → Exec (κ × MemoryBudget) String Unit
  | [] => return ()
  | name :: rest => do
    let s ← self
    failIf ((s.2.get name).isNone)
      ("persistent model charge '" ++ name ++ "' is missing before model release")
    checkPersistentCharges rest

/-- A call on a model, its layer cache and the budget. -/
abbrev Owning (R α : Type) : Type :=
  Exec ((StreamingLlamaModel R × LayerCache (StreamingLayerWeights R)) × MemoryBudget) String α

/-- `release_persistent`; the weights are dropped before their charges are released. -/
def releasePersistent : Owning R Unit := do
  onPart (fun s => (s.1.2, s.2)) (fun t s => ((s.1.1, t.1), t.2)) clearLayerCache
  let s ← self
  let activeLayerCharges := s.2.namesUnder "layer:"
  failIf (activeLayerCharges ≠ [])
    ("cannot release persistent model while external layer charges remain: [" ++
      ", ".intercalate (activeLayerCharges.map fun name => "\"" ++ name ++ "\"") ++ "]")
  let chargeNames := s.1.1.persistentChargeNames
  checkPersistentCharges chargeNames
  if chargeNames = [] then return ()
  else do
    modify fun s => (({ s.1.1 with
      tokenEmbd := emptyPersistentWeight
      outputNorm := emptyPersistentWeight
      output := none
      persistentChargeNames := [] }, s.1.2), s.2)
    LayerCache.releaseNames (fun name error =>
      "failed to release persistent model charge '" ++ name ++ "' after dropping weight: " ++
        error.display) chargeNames

end StreamingLlamaModel
end Ramforge
