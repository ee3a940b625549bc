/-
The inference engine: prompt pass, generation loop, and the cleanup around them.

A generation owns its K/V cache until it returns `Ok`; the `kv_cache` charge of a failed
one is given back by the cleanup.
-/
import Ramforge.Core.Tokenizer
import Ramforge.Core.TokenEncoder
import Ramforge.Runtime.ForwardPass
import Ramforge.Runtime.Sampling
import Ramforge.Rust.Ends

namespace Ramforge

open Rust Rust.Exec GgufDataSource

/-- Why generation left the decode loop. -/
inductive StopReason where
  | eos
  | maxTokens
  | contextLength
deriving DecidableEq, Repr

structure GenerationOutcome where
  generatedTokenIds : List UInt32
  generatedText : List Char
  promptTokens : Nat
  configuredMaxTokens : Nat
  contextLength : Nat
  stopReason : StopReason
  eosTokenId : Option UInt32
  eosEncountered : Bool
  tokenIdsSample : List UInt32
  kvCacheReset : Bool
  tokenHistoryReset : Bool
  samplerIsStateless : Bool
deriving DecidableEq

def tokenIdSampleLimit : Nat := 64

/-- `on_text`: its error for a text, after the texts it has been given before. -/
abbrev OnText : Type := List (List Char) → List Char → Option String

/-- What the generator and the allocator answer to the sampler in its `i`-th call. -/
structure Draws (R : Type) where
  draw : Nat → R
  memory : Nat → SamplerMemory

/-- The state of a generation besides the budget. -/
structure GenerationState (R : Type) where
  forward : ForwardState R
  /-- The texts that `on_text` was given. -/
  heard : List (List Char)

abbrev Generating (R α : Type) : Type := Exec (GenerationState R × MemoryBudget) String α

/-- What a generation knows besides its state. -/
structure Generation (R S : Type) where
  machine : Machine
  model : StreamingLlamaModel R
  tokenizer : Tokenizer S
  sampler : Sampler R
  draws : Draws R
  onText : OnText
  promptTokens : List UInt32
  maxTokens : Nat
  neededLen : Nat
  samplerScratch : Nat

/-- The locals of the generation loop. -/
structure GenerationLocals (R : Type) where
  hidden : List R
  logits : List R
  generatedTokens : List UInt32
  generatedText : List Char
  decoder : TokenDecoder
  currentPos : Nat
  stopReason : StopReason
  eosEncountered : Bool

/-- The answers to the reservations of the tables and the buffers of a K/V cache.  After a
refused one nobody asks for the rest. -/
def nextKvReserve {ε : Type} (nLayers : Nat) : Exec Host ε Ramforge.Reserve := fun s =>
  (.ok fun k => match s.1[k]? with
    | some (.error error) => some error
    | _ => none, (s.1.drop (2 + 2 * nLayers), s.2))

def KvCache.tryChunkAlignedCapacity (required : Nat) : Except String Nat :=
  match checkedAdd required (growChunkTokens - 1) with
  | none => .error "KV cache chunk capacity overflow"
  | some rounded =>
    match checkedMul (rounded / growChunkTokens) growChunkTokens with
    | none => .error "KV cache chunk capacity overflow"
    | some capacity => .ok capacity

namespace Generation

open Running StreamingLlamaModel

/-- `size_of::<(usize, f32)>()`. -/
def sizeOfIndexed : Nat := 16

/-- The name of the charge of the K/V cache. -/
def kvCharge : String := "kv_cache"

variable {R S : Type}

/-- A call on the model. -/
def onForward {α : Type} (m : Running R α) : Generating R α :=
  onPart (fun s => (s.1.forward, s.2)) (fun t s => ({ s.1 with forward := t.1 }, t.2)) m

/-- A call of the token decoder, which cannot fail. -/
def decoding {σ α : Type} (o : Outcome Empty α) : Exec σ String α := resume (o.mapErr Empty.elim)

/-- Give a text to `on_text`, and keep it in `generated_text`. -/
def emit (g : Generation R S) (text generatedText : List Char) : Generating R (List Char) :=
  if text = [] then return generatedText
  else do
    let s ← self
    modify fun s => ({ s.1 with heard := s.1.heard ++ [text] }, s.2)
    match g.onText s.1.heard text with
    | some error => throw error
    | none => return generatedText ++ text

variable [Zero R] [One R] [Add R] [Sub R] [Neg R] [Mul R] [Div R] [F32 R] [F32Math R]
  [F32Rotation R]

/-- Make room for `next_pos` positions. -/
def growKv (g : Generation R S) (nextPos : Nat) : Running R Unit := do
  let s ← self
  let kv := s.1.kv
  if nextPos > kv.maxSeqLen then do
    let aligned ← ofResult (KvCache.tryChunkAlignedCapacity nextPos)
    let target := min aligned g.neededLen
    let newBytes ← ofResult (kv.tryBytesForTokens target)
    ensureLayerCacheHeadroom newBytes
    let reserve ← onHost (nextKvReserve kv.nLayers)
    mapErr (fun e => s!"failed to grow KV cache from {kv.maxSeqLen} to {target} tokens (new charge {newBytes} bytes): " ++ e)
      (onPart (fun s => (s.1.kv, s.2)) (fun t s => ({ s.1 with kv := t.1 }, t.2))
        (KvCache.growToWithBudget reserve target kvCharge))
  else return ()

/-- The prompt pass; the result is the hidden state of the last token. -/
def promptPass (g : Generation R S) (hidden : List R) : Running R (List R) :=
  g.promptTokens.zipIdx.foldlM (fun hidden token =>
    g.model.forwardSingleStreaming g.machine token.1 token.2 hidden) hidden

variable [LinearOrder R] [F32Exp R]

/-- `sampler_scratch`. -/
def samplerScratchBytes {σ : Type} (sampler : Sampler R) (vocab : Nat) : Exec σ String Nat :=
  if 0 < sampler.temperature then do
    let scaledBytes ← okOr (checkedMul vocab KvCache.sizeOfF32) "sampler scaled-logit size overflow"
    let indexedNeeded := sampler.topK.any (fun k => 0 < k && k < vocab) ||
      sampler.topP.any fun p => 0 < p && p < 1
    let indexedBytes ← if indexedNeeded then
        okOr (checkedMul vocab sizeOfIndexed) "sampler index-table size overflow"
      else pure 0
    okOr (checkedAdd scaledBytes indexedBytes) "sampler scratch byte size overflow"
  else return 0

/-- `sampler.sample_checked(&logits)` under its charge. -/
def sampleToken (g : Generation R S) (index : Nat) (logits : List R) : Running R UInt32 := do
  ensureLayerCacheHeadroom g.samplerScratch
  let token ← MemoryBudget.withTemp MemoryError.display "tmp:sampling" g.samplerScratch
    (ofResult (g.sampler.sampleChecked (g.draws.memory index) logits (g.draws.draw index)))
  return UInt32.ofNat token

/-- A round of the generation loop. -/
def round (g : Generation R S) (index : Nat) (l : GenerationLocals R) :
    Generating R (RoundEnd (GenerationLocals R) (GenerationLocals R)) := do
  let logits ← onForward (g.model.computeLogits g.machine l.hidden l.logits)
  let l := { l with logits }
  let nextToken ← onForward (g.sampleToken index logits)
  if g.tokenizer.eosId = some nextToken then
    return .leave { l with eosEncountered := true, stopReason := .eos }
  else do
    let (decoded, decoder) ← decoding (TokenDecoder.push g.tokenizer l.decoder nextToken)
    let generatedText ← g.emit decoded l.generatedText
    let l := { l with
      generatedTokens := l.generatedTokens ++ [nextToken]
      generatedText
      decoder }
    let nextPos ← okOr (checkedAdd l.currentPos 1) "generation position overflow"
    if ¬(checkedAdd index 1).any (· < g.maxTokens) then
      return .leave { l with stopReason := .maxTokens }
    else if ¬nextPos < g.model.config.contextLength then
      return .leave { l with stopReason := .contextLength }
    else do
      onForward (g.growKv nextPos)
      let hidden ← onForward
        (g.model.forwardSingleStreaming g.machine nextToken l.currentPos l.hidden)
      let l := { l with hidden, currentPos := nextPos }
      if nextPos ≥ g.model.config.contextLength then
        return .leave { l with stopReason := .contextLength }
      else return .again l

/-- The closures under `tmp:hidden` and `tmp:logits`. -/
def run (g : Generation R S) (hiddenBytes logitsBytes : Nat) : Generating R (GenerationLocals R) :=
  MemoryBudget.withTemp MemoryError.display "tmp:hidden" hiddenBytes do
    let hidden ← onForward (zeroedBuffer g.model.config.embeddingLength "hidden activation")
    MemoryBudget.withTemp MemoryError.display "tmp:logits" logitsBytes do
      let logits ← onForward (zeroedBuffer g.model.config.vocabSize "logits buffer")
      let hidden ← onForward (g.promptPass hidden)
      forBreak g.round g.maxTokens 0
        { hidden
          logits
          generatedTokens := []
          generatedText := []
          decoder := TokenDecoder.new
          currentPos := g.promptTokens.length
          stopReason := .maxTokens
          eosEncountered := false }

end Generation

/-! ## The engine -/

/-- The engine besides its budget.  The backend and the flags of the build are the machine of
a call. -/
structure InferenceEngine (R S : Type) where
  host : Host
  tokenizer : Tokenizer S
  model : StreamingLlamaModel R
  cache : LayerCache (StreamingLayerWeights R)
  kvCache : Option (KvCache R)
  stats : ResidencyStats
  cacheStats : LayerCacheStats
  /-- The texts that `on_text` was given in the running generation. -/
  heard : List (List Char)

/-- A request for a generation, with what the machine answers during it. -/
structure Request (R : Type) where
  machine : Machine
  prompt : List Char
  maxTokens : Nat
  sampler : Sampler R
  draws : Draws R
  onText : OnText

namespace InferenceEngine

open Generation StreamingLlamaModel

variable {R S : Type}

abbrev Method (R S α : Type) : Type := Exec (InferenceEngine R S × MemoryBudget) String α

/-- Idempotent; its panics are broken accounting. -/
def clearKvCache {ε : Type} : Exec (InferenceEngine R S × MemoryBudget) ε Unit := do
  let s ← self
  let hadCache := s.1.kvCache.isSome
  modify fun s => ({ s.1 with kvCache := none }, s.2)
  let hadCharge := (s.2.get kvCharge).isSome
  expect (if hadCache ∧ ¬hadCharge then none else some ())
    "KV cache ownership/accounting invariant violated: cache present without charge"
  if hadCharge then do
    let _ ← orPanic (onSnd (MemoryBudget.release kvCharge))
      fun error => "failed to release KV cache charge: " ++ error.display
  else return ()

def onLayerCache {α : Type} (m : LayerCache.Method (StreamingLayerWeights R) α) : Method R S α :=
  onPart (fun s => (s.1.cache, s.2)) (fun t s => ({ s.1 with cache := t.1 }, t.2)) m

/-- A call of a generation, with `kv_cache` and the counters as its locals. -/
def generating {α : Type} (kv : KvCache R) (stats : ResidencyStats) (m : Generating R α) :
    Method R S (α × ForwardState R) := fun s =>
  let r := m ({ forward := { stats, cacheStats := .new, host := s.1.host, cache := s.1.cache, kv }
                heard := [] }, s.2)
  (r.1.map fun a => (a, r.2.1.forward),
    { s.1 with host := r.2.1.forward.host, cache := r.2.1.forward.cache, heard := r.2.1.heard }, r.2.2)

variable [Zero R] [One R] [Add R] [Sub R] [Neg R] [Mul R] [Div R] [F32 R] [F32Math R]
  [F32Rotation R] [LinearOrder R] [F32Exp R] [Score S]

/-- `sampler_stateless`. -/
def isStateless (sampler : Sampler R) : Bool :=
  sampler.temperature ≤ 0 && sampler.topK.isNone && sampler.topP.isNone

/-- The K/V cache of a generation, as long as its prompt. -/
def newKvCache (cfg : LlamaConfig R) (promptLen : Nat) : Method R S (KvCache R) := do
  let reserve ← onFst (onPart InferenceEngine.host (fun host s => { s with host })
    (nextKvReserve cfg.blockCount))
  mapErr (fun e => s!"RAM budget too small for initial KV cache ({cfg.blockCount} layers, {cfg.headCountKv} kv_heads, head_dim {cfg.headDim}, {promptLen} prompt tokens): " ++ e)
    (onSnd (KvCache.newWithBudget reserve cfg.blockCount cfg.headCountKv cfg.headDim promptLen kvCharge))

/-- The debug assertions at the end of a generation. -/
def checkIntegrity (request : Request R) (tokenizer : Tokenizer S) (text : List Char)
    (tokens : List UInt32) : Method R S Unit :=
  if request.machine.debugAssertions then do
    let s ← self
    expect (if s.2.namesUnder "tmp:" = [] then some () else none)
      "temp charges must be released after generate()"
    let decoded ← decoding (tokenizer.decode tokens)
    expect (if text = decoded then some () else none) "assertion `left == right` failed"
  else return ()

def generateImpl (request : Request R) : Method R S GenerationOutcome := do
  let s ← self
  let cfg := s.1.model.config
  let promptTokens := s.1.tokenizer.encode request.prompt true
  failIf (promptTokens = []) "prompt tokenization produced no tokens"
  let neededLen ← okOr (checkedAdd promptTokens.length request.maxTokens)
    "prompt + max_tokens length overflow"
  failIf (neededLen > cfg.contextLength)
    s!"prompt + max_tokens exceeds context length: {promptTokens.length} + {request.maxTokens} > {cfg.contextLength}"
  let kv ← newKvCache cfg promptTokens.length
  let used := (← self).2.used
  let logitsBytes ← okOr (checkedMul cfg.vocabSize KvCache.sizeOfF32)
    "logits buffer byte size overflow"
  let hiddenBytes ← okOr (checkedMul cfg.embeddingLength KvCache.sizeOfF32)
    "hidden buffer byte size overflow"
  let samplerScratch ← samplerScratchBytes request.sampler cfg.vocabSize
  let g : Generation R S :=
    { machine := request.machine
      model := s.1.model
      tokenizer := s.1.tokenizer
      sampler := request.sampler
      draws := request.draws
      onText := request.onText
      promptTokens
      maxTokens := request.maxTokens
      neededLen
      samplerScratch }
  let ((l, text), forward) ← generating kv (ResidencyStats.new.updateManaged used) do
    let l ← g.run hiddenBytes logitsBytes
    let (trailing, _) ← decoding (TokenDecoder.finish g.tokenizer l.decoder)
    let text ← g.emit trailing l.generatedText
    return (l, text)
  modify fun s => ({ s.1 with
    kvCache := some forward.kv
    stats := forward.stats
    cacheStats := forward.cacheStats }, s.2)
  checkIntegrity request s.1.tokenizer text l.generatedTokens
  return {
    generatedTokenIds := l.generatedTokens
    generatedText := text
    promptTokens := promptTokens.length
    configuredMaxTokens := request.maxTokens
    contextLength := cfg.contextLength
    stopReason := l.stopReason
    eosTokenId := s.1.tokenizer.eosId
    eosEncountered := l.eosEncountered
    tokenIdsSample := l.generatedTokens.take tokenIdSampleLimit
    kvCacheReset := true
    tokenHistoryReset := true
    samplerIsStateless := isStateless request.sampler }

def generateWithCallback (request : Request R) : Method R S GenerationOutcome := do
  clearKvCache
  onLayerCache clearLayerCache
  let result ← attempt (generateImpl request)
  let cleared ← attempt (onLayerCache clearLayerCache)
  if cleared.isOk then
    modify fun s => ({ s.1 with stats := s.1.stats.updateManaged s.2.used }, s.2)
  else pure ()
  match result, cleared with
  | .ok outcome, .ok _ => return outcome
  | .error error, _ => do
    clearKvCache
    throw error
  | .ok _, .error error => do
    clearKvCache
    throw error

/-- `generate`, without a callback. -/
def generate (request : Request R) : Method R S (List UInt32 × List Char) := do
  let outcome ← generateWithCallback { request with onText := fun _ _ => none }
  return (outcome.generatedTokenIds, outcome.generatedText)

/-- `Drop` for the engine. -/
def dropEngine : Method R S Unit := do
  clearKvCache
  orPanic
    (onPart (fun s => ((s.1.model, s.1.cache), s.2))
      (fun t s => ({ s.1 with model := t.1.1, cache := t.1.2 }, t.2)) releasePersistent)
    fun error => "failed to release model allocations during engine drop: " ++ error

end InferenceEngine
end Ramforge
