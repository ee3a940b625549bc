/-
A request has one outcome.

Two engines that are built over the same files, with the same total of the RAM budget, may be
configured differently and have served other requests before.  Where both return an outcome of
one request, the outcome, the K/V cache and the texts given to the caller are the same.
-/
import Ramforge.Runtime.GenerationTransparency

namespace Ramforge

open Rust Rust.Exec GgufDataSource MemoryBudget Generation

/-! ## Models over the same files -/

section models

variable {R : Type} [F32 R] [F32Narrow R] [FloatText] {source : GgufDataSource} {gguf : GgufModel}
  {total : Nat}

theorem StreamingLlamaModel.Of.alike {files : List (GgufShardLayout × List UInt8)}
    {model model' : StreamingLlamaModel R} (h : model.Of files gguf total)
    (h' : model'.Of files gguf total) : model.Alike model' := by
  have hconfig : model'.config = model.config := Outcome.ok.inj (h'.config.symm.trans h.config)
  have hweights := h'.weights.unique h.weights
  injection hweights with htoken hnorm houtput
  refine ⟨hconfig, htoken, hnorm, houtput, ?_, h'.attnBiasPresent.trans h.attnBiasPresent.symm⟩
  rw [h'.layerDescriptors, h.layerDescriptors, hconfig]

namespace InferenceEngine

variable [Zero R] [Add R] [Sub R] [Mul R] {S : Type}

omit [Add R] [Zero R] [Sub R] [Mul R] in
theorem ends_startModel_of (htiled : Tiled source.files) {s : Host × MemoryBudget}
    (hs : Under source gguf total s) (env : Surroundings S) (ramBudgetBytes : Nat)
    (requestedConfig : Option RuntimeConfig) :
    Ends (startModel R env ramBudgetBytes requestedConfig) s
      (fun r _ => r.1.1.Of source.files gguf total) (fun _ _ => True) fun _ _ => True := by
  have hfail : ∀ {α : Type} {what error : String} {model : StreamingLlamaModel R} {cache}
      {Q : α → Host × MemoryBudget → Prop} (t : Host × MemoryBudget),
      Ends (rollBackModel what model cache error) t Q (fun _ _ => True) fun _ _ => True := by
    intro α what error model cache Q t
    exact (ends_any _ t).bind fun _ _ _ => trivial
  unfold startModel
  rw [ends_bind, ends_mapErr]
  cases requestedConfig with
  | some config =>
    have hload : Ends (StreamingLlamaModel.loadWithRuntimeConfig R config) s
        (fun loaded _ => loaded.1.Of source.files gguf total) (fun _ _ => True) fun _ _ => True := by
      unfold StreamingLlamaModel.loadWithRuntimeConfig
      simp only [ends_bind, ends_mapErr, ends_resume, ends_self, ends_failIf]
      exact ⟨fun _ _ => ⟨fun _ => trivial, fun _ => ends_loadInternal_of htiled hs _⟩,
        fun _ _ => trivial, fun _ _ => trivial⟩
    refine hload.mono (fun loaded t ht => ?_) (fun _ _ _ => trivial) fun _ _ _ => trivial
    simp only
    cases CpuBackend.tryWithThreads env config.cpuThreadCount with
    | error error => exact hfail t
    | ok backend => exact ht
  | none =>
    refine (ends_loadInternal_of htiled hs none).mono (fun loaded t ht => ?_) (fun _ _ _ => trivial)
      fun _ _ _ => trivial
    simp only
    cases RuntimeConfig.currentDefaultsWithThreadCount (CpuBackend.new env).threadCount ramBudgetBytes
        loaded.2.capacityBytes with
    | ok config => exact ht
    | err error => exact hfail t
    | panic p => trivial

omit [Add R] [Zero R] [Sub R] [Mul R] in
/-- The model and the tokenizer of an engine are those of its file. -/
theorem ends_fromDataSourceInternal_of (htiled : Tiled source.files) {host : Host}
    (hserves : OnHost (Serves source) host) (env : Surroundings S) {ramBudgetBytes : Nat}
    (hram : ramBudgetBytes < u64Bound) (requestedConfig : Option RuntimeConfig) :
    Ends (fromDataSourceInternal R env ramBudgetBytes requestedConfig) host
      (fun built _ => built.engine.model.Of source.files host.2.2.model ramBudgetBytes ∧
        env.tokenizerFrom host.2.2.model = .ok built.engine.tokenizer)
      (fun _ _ => True) fun _ _ => True := by
  unfold fromDataSourceInternal
  simp only [ends_bind, ends_self, ends_resume, ends_ofResult]
  refine ⟨fun config _ => ⟨fun _ _ => trivial, fun tokenizer htokenizer => ⟨fun _ _ => trivial,
    fun b hb => ?_⟩⟩, fun _ _ => trivial, fun _ _ => trivial⟩
  have hnew := Except.of_mapError_ok hb
  obtain ⟨hacc, -, -, htotal, -⟩ := accounted_new hram hnew
  rw [ends_withBudget]
  refine (ends_startModel_of htiled (s := (host, b)) ⟨⟨hserves, rfl⟩, hacc, htotal⟩ env ramBudgetBytes
    requestedConfig).mono (fun r t ht => ?_) (fun _ _ _ => trivial) fun _ _ _ => trivial
  exact ⟨ht, Except.of_mapError_ok htokenizer⟩

end InferenceEngine
end models

/-! ## What a generation has returned -/

/-- The generation that a request starts. -/
def Request.generation {R S : Type} (request : Request R) (model : StreamingLlamaModel R)
    (tokenizer : Tokenizer S) [Score S] (neededLen samplerScratch : Nat) : Generation R S where
  machine := request.machine
  model := model
  tokenizer := tokenizer
  sampler := request.sampler
  draws := request.draws
  onText := request.onText
  promptTokens := tokenizer.encode request.prompt true
  maxTokens := request.maxTokens
  neededLen := neededLen
  samplerScratch := samplerScratch

/-- The requests ask for the same; the allocator may answer their samplers differently. -/
structure Request.Alike {R : Type} (request request' : Request R) : Prop where
  machine : request'.machine = request.machine
  prompt : request'.prompt = request.prompt
  maxTokens : request'.maxTokens = request.maxTokens
  sampler : request'.sampler = request.sampler
  draw : request'.draws.draw = request.draws.draw
  onText : request'.onText = request.onText

section returned

variable {R S : Type} [Zero R] [One R] [Add R] [Sub R] [Neg R] [Mul R] [Div R] [F32 R] [F32Math R]
  [F32Rotation R] [LinearOrder R] [F32Exp R]

/-- A generation with its trailing text. -/
def Generation.whole (g : Generation R S) (hiddenBytes logitsBytes : Nat) :
    Generating R (GenerationLocals R × List Char) := do
  let l ← g.run hiddenBytes logitsBytes
  let (trailing, _) ← decoding (TokenDecoder.finish g.tokenizer l.decoder)
  let text ← g.emit trailing l.generatedText
  return (l, text)

theorem Generation.coincides_whole {source : GgufDataSource} {g g' : Generation R S}
    (htiled : Tiled source.files) (hplanned : LayerLoad.Planned g.model)
    (hplanned' : LayerLoad.Planned g'.model) (halike : g.Alike g')
    (hiddenBytes logitsBytes hiddenBytes' logitsBytes' : Nat) :
    Coincides (Twin source g.model) (g.whole hiddenBytes logitsBytes)
      (g'.whole hiddenBytes' logitsBytes') := by
  unfold whole
  rw [halike.tokenizer]
  exact (coincides_run htiled hplanned hplanned' halike _ _ _ _).bind fun l =>
    (Coincides.resume _).bind fun r => (coincides_emit halike _ _).bind fun _ => .pure _

variable [Score S]

def Request.outcome (request : Request R) (model : StreamingLlamaModel R) (tokenizer : Tokenizer S)
    (r : GenerationLocals R × List Char) : GenerationOutcome where
  generatedTokenIds := r.1.generatedTokens
  generatedText := r.2
  promptTokens := (tokenizer.encode request.prompt true).length
  configuredMaxTokens := request.maxTokens
  contextLength := model.config.contextLength
  stopReason := r.1.stopReason
  eosTokenId := tokenizer.eosId
  eosEncountered := r.1.eosEncountered
  tokenIdsSample := r.1.generatedTokens.take tokenIdSampleLimit
  kvCacheReset := true
  tokenHistoryReset := true
  samplerIsStateless := InferenceEngine.isStateless request.sampler

/-- The generation `g` from `v` to `w` has made `outcome`, and `t` is what it left. -/
structure Returned (source : GgufDataSource) (model : StreamingLlamaModel R) (request : Request R)
    (tokenizer : Tokenizer S) (neededLen : Nat) (v w : GenerationState R × MemoryBudget)
    (r : GenerationLocals R × List Char) (outcome : GenerationOutcome)
    (t : InferenceEngine R S × MemoryBudget) : Prop where
  needed : checkedAdd (tokenizer.encode request.prompt true).length request.maxTokens = some neededLen
  context : neededLen ≤ model.config.contextLength
  fresh : ∃ reserve, KvCache.new reserve model.config.blockCount model.config.headCountKv
    model.config.headDim (tokenizer.encode request.prompt true).length = .ok v.1.forward.kv
  silent : v.1.heard = []
  underway : ∃ base, Underway source model base (v.1.forward, v.2)
  ran : ∃ scratch hiddenBytes logitsBytes,
    (request.generation model tokenizer neededLen scratch).whole hiddenBytes logitsBytes v = (.ok r, w)
  kvCache : t.1.kvCache = some w.1.forward.kv
  heard : t.1.heard = w.1.heard
  outcome_eq : outcome = request.outcome model tokenizer r

omit [One R] [Add R] [Sub R] [Neg R] [Mul R] [Div R] [F32 R] [F32Math R] [F32Rotation R]
  [LinearOrder R] [F32Exp R] [Score S] in
theorem KvCache.new_unique {reserve reserve' : Ramforge.Reserve} {nLayers nKvHeads headDim maxSeqLen : Nat}
    {c c' : KvCache R} (h : KvCache.new reserve nLayers nKvHeads headDim maxSeqLen = .ok c)
    (h' : KvCache.new reserve' nLayers nKvHeads headDim maxSeqLen = .ok c') : c = c' := by
  obtain ⟨l, hl, h⟩ := of_except_bind_ok h
  obtain ⟨l', hl', h'⟩ := of_except_bind_ok h'
  cases hl.symm.trans hl'
  rw [KvCache.allocateFromLayout_eq_ok h, KvCache.allocateFromLayout_eq_ok h']

/-- Alike requests over alike models have one outcome. -/
theorem Returned.unique {source : GgufDataSource} {model model' : StreamingLlamaModel R}
    {request request' : Request R} {tokenizer : Tokenizer S} {neededLen neededLen' : Nat}
    {v v' w w' : GenerationState R × MemoryBudget} {r r' : GenerationLocals R × List Char}
    {outcome outcome' : GenerationOutcome} {t t' : InferenceEngine R S × MemoryBudget}
    (htiled : Tiled source.files) (hplanned : LayerLoad.Planned model)
    (hplanned' : LayerLoad.Planned model') (halike : model.Alike model')
    (hrequest : request.Alike request')
    (h : Returned source model request tokenizer neededLen v w r outcome t)
    (h' : Returned source model' request' tokenizer neededLen' v' w' r' outcome' t') :
    outcome = outcome' ∧ t.1.kvCache = t'.1.kvCache ∧ t.1.heard = t'.1.heard := by
  obtain rfl : neededLen = neededLen' := by
    have hneeded := h'.needed
    rw [hrequest.prompt, hrequest.maxTokens, h.needed] at hneeded
    exact Option.some.inj hneeded
  have hkv : v.1.forward.kv = v'.1.forward.kv := by
    obtain ⟨reserve, hnew⟩ := h.fresh
    obtain ⟨reserve', hnew'⟩ := h'.fresh
    rw [halike.config, hrequest.prompt] at hnew'
    exact KvCache.new_unique hnew hnew'
  obtain ⟨base, hleft⟩ := h.underway
  obtain ⟨base', hright⟩ := h'.underway
  obtain ⟨scratch, hiddenBytes, logitsBytes, hrun⟩ := h.ran
  obtain ⟨scratch', hiddenBytes', logitsBytes', hrun'⟩ := h'.ran
  have hgenerations : (request.generation model tokenizer neededLen scratch).Alike
      (request'.generation model' tokenizer neededLen scratch') :=
    ⟨hrequest.machine, halike, rfl, hrequest.sampler, hrequest.draw, hrequest.onText,
      congrArg (tokenizer.encode · true) hrequest.prompt, hrequest.maxTokens, rfl⟩
  have htwin : Twin source model v v' :=
    ⟨⟨⟨base, hleft⟩, ⟨base', halike.underway hright⟩, hkv⟩, h.silent.trans h'.silent.symm⟩
  obtain ⟨rfl, hforward, hheard⟩ := coincides_whole htiled hplanned hplanned' hgenerations hiddenBytes
    logitsBytes hiddenBytes' logitsBytes' v v' htwin r w r' w' hrun hrun'
  refine ⟨?_, ?_, ?_⟩
  · rw [h.outcome_eq, h'.outcome_eq]
    unfold Request.outcome
    rw [hrequest.prompt, hrequest.maxTokens, hrequest.sampler, halike.config]
  · rw [h.kvCache, h'.kvCache, hforward.kv]
  · rw [h.heard, h'.heard, hheard]

namespace InferenceEngine

open LayerLoad

variable {source : GgufDataSource} {model : StreamingLlamaModel R} {base : MemoryBudget}
  {s t : InferenceEngine R S × MemoryBudget} {request : Request R} {outcome : GenerationOutcome}

omit [Zero R] [One R] [Add R] [Sub R] [Neg R] [Mul R] [Div R] [F32 R] [F32Math R] [F32Rotation R]
  [LinearOrder R] [F32Exp R] [Score S] in
theorem of_generating_ok {α : Type} {kv : KvCache R} {stats : ResidencyStats} {m : Generating R α}
    {r : α × ForwardState R} (h : generating kv stats m s = (.ok r, t)) :
    ∃ v w, (v.1.forward.host = s.1.host ∧ v.1.forward.cache = s.1.cache ∧ v.1.forward.kv = kv ∧
        v.1.heard = [] ∧ v.2 = s.2) ∧
      m v = (.ok r.1, w) ∧ r.2 = w.1.forward ∧ t.1.heard = w.1.heard := by
  unfold generating at h
  obtain ⟨hok, rfl⟩ := Prod.mk.inj h
  obtain ⟨a, ha, rfl⟩ := Outcome.of_map_ok hok
  exact ⟨_, _, ⟨rfl, rfl, rfl, rfl, rfl⟩, Prod.ext ha rfl, rfl, rfl⟩

theorem of_generateImpl_ok (h : Kept source model base s) (hnone : s.1.kvCache = none)
    (hrun : generateImpl request s = (.ok outcome, t)) :
    ∃ neededLen v w r, Returned source model request s.1.tokenizer neededLen v w r outcome t := by
  unfold generateImpl at hrun
  rw [self_bind_run] at hrun
  obtain ⟨_, s₁, hs₁, hrun⟩ := of_bind_ok hrun
  obtain ⟨-, rfl⟩ := of_failIf_ok hs₁
  obtain ⟨neededLen, hneeded, hrun⟩ := of_okOr_bind_ok hrun
  obtain ⟨_, s₂, hs₂, hrun⟩ := of_bind_ok hrun
  obtain ⟨hcontext, rfl⟩ := of_failIf_ok hs₂
  rw [h.model_eq] at hcontext
  obtain ⟨kv, s₃, hkv, hrun⟩ := of_bind_ok hrun
  obtain ⟨⟨hkept, -⟩, hcharged⟩ :=
    (h.ends_newKvCache (P := fun _ _ => True) hnone _ _).of_ok hkv
  have hfresh : ∃ reserve, KvCache.new reserve model.config.blockCount model.config.headCountKv
      model.config.headDim (s₂.1.tokenizer.encode request.prompt true).length = .ok kv := by
    unfold newKvCache at hkv
    obtain ⟨reserve, _, -, hkv⟩ := of_bind_ok hkv
    obtain ⟨hkv, -⟩ := of_onSnd_ok (of_mapErr_ok hkv)
    rw [← h.model_eq]
    exact ⟨reserve, KvCache.newWithBudget_eq_ok (congrArg Prod.fst hkv)⟩
  rw [self_bind_run] at hrun
  obtain ⟨logitsBytes, -, hrun⟩ := of_okOr_bind_ok hrun
  obtain ⟨hiddenBytes, -, hrun⟩ := of_okOr_bind_ok hrun
  obtain ⟨scratch, s₄, hscratch, hrun⟩ := of_bind_ok hrun
  obtain rfl : s₄ = s₃ := by
    have hs₄ := keeps_samplerScratchBytes (I := (· = s₃)) request.sampler s₂.1.model.config.vocabSize s₃ rfl
    rw [hscratch] at hs₄
    exact hs₄
  obtain ⟨⟨r, forward⟩, s₅, hgenerate, hrun⟩ := of_bind_ok hrun
  obtain ⟨v, w, ⟨hhost, hcache, hcopy, hsilent, hmemory⟩, hwhole, hforward, hheard⟩ :=
    of_generating_ok hgenerate
  obtain ⟨_, s₆, hmodify, hrun⟩ := of_bind_ok hrun
  have hs₆ : s₆.1.kvCache = some forward.kv ∧ s₆.1.heard = s₅.1.heard := by
    cases hmodify
    exact ⟨rfl, rfl⟩
  obtain ⟨_, s₇, hcheck, hrun⟩ := of_bind_ok hrun
  have hs₇ := keeps_checkIntegrity (I := fun u : InferenceEngine R S × MemoryBudget =>
    u.1.kvCache = some forward.kv ∧ u.1.heard = s₅.1.heard) request s₂.1.tokenizer r.2
    r.1.generatedTokens s₆ hs₆
  rw [hcheck] at hs₇
  cases hrun
  have hunderway : Underway source model base (v.1.forward, v.2) := by
    rw [hmemory]
    refine ⟨⟨?_, hkept.idle, ?_, ?_⟩, ?_, hkept.charges⟩
    · rw [hcache]
      exact hkept.coherent
    · rw [hhost]
      exact hkept.serves
    · rw [hcache]
      exact hkept.cached
    · rw [hcopy]
      exact hcharged
  refine ⟨neededLen, v, w, r, hneeded, Nat.not_lt.mp hcontext, hcopy ▸ hfresh, hsilent, ⟨base, hunderway⟩,
    ⟨scratch, hiddenBytes, logitsBytes, ?_⟩, ?_, ?_, ?_⟩
  · rw [h.model_eq] at hwhole
    exact hwhole
  · exact hs₇.1.trans (congrArg (fun f : ForwardState R => some f.kv) hforward)
  · exact hs₇.2.trans hheard
  · rw [h.model_eq]
    rfl

/-! ### The tokenizer -/

/-- The tokenizer of the engine is `tokenizer`. -/
def Speaks (tokenizer : Tokenizer S) (s : InferenceEngine R S × MemoryBudget) : Prop :=
  s.1.tokenizer = tokenizer

variable {tokenizer : Tokenizer S}

omit [Zero R] [One R] [Add R] [Sub R] [Neg R] [Mul R] [Div R] [F32 R] [F32Math R] [F32Rotation R]
  [LinearOrder R] [F32Exp R] [Score S] in
theorem keeps_speaks_clearKvCache {ε : Type} :
    Keeps (Speaks tokenizer) (clearKvCache (R := R) (ε := ε)) := by
  refine Keeps.self.bind fun _ => Keeps.bind (fun _ hs => hs) fun _ => (Keeps.expect _ _).bind fun _ => ?_
  split
  · exact Keeps.bind (Keeps.orPanic (fun _ hs => hs) _) fun _ => .pure _
  · exact .pure _

theorem keeps_speaks_generateImpl (request : Request R) :
    Keeps (Speaks tokenizer) (generateImpl (S := S) request) := by
  refine Keeps.self.bind fun s => (Keeps.failIf _ _).bind fun _ => (Keeps.okOr _ _).bind fun neededLen =>
    (Keeps.failIf _ _).bind fun _ => Keeps.bind ?_ fun kv => Keeps.self.bind fun u =>
      (Keeps.okOr _ _).bind fun _ => (Keeps.okOr _ _).bind fun _ =>
        (keeps_samplerScratchBytes _ _).bind fun _ => Keeps.bind (fun _ hs => hs) fun r =>
          Keeps.bind (fun _ hs => hs) fun _ => (keeps_checkIntegrity _ _ _ _).bind fun _ => .pure _
  exact Keeps.bind (fun _ hs => hs) fun _ => Keeps.mapErr (fun _ hs => hs) _

theorem keeps_speaks_generateWithCallback (request : Request R) :
    Keeps (Speaks tokenizer) (generateWithCallback (S := S) request) := by
  have hclear : Keeps (Speaks (R := R) tokenizer) (onLayerCache StreamingLlamaModel.clearLayerCache) :=
    fun _ hs => hs
  refine keeps_speaks_clearKvCache.bind fun _ => hclear.bind fun _ =>
    (Keeps.attempt (keeps_speaks_generateImpl request)).bind fun result =>
      (Keeps.attempt hclear).bind fun cleared => ?_
  rcases cleared with e | u
  · rcases result with e' | outcome
    · exact keeps_speaks_clearKvCache.bind fun _ => .throw _
    · exact keeps_speaks_clearKvCache.bind fun _ => .throw _
  · refine Keeps.bind (fun _ hs => hs) fun _ => ?_
    rcases result with e' | outcome
    · exact keeps_speaks_clearKvCache.bind fun _ => .throw _
    · exact .pure _

theorem Served.speaks (h : Served s t) : t.1.tokenizer = s.1.tokenizer := by
  induction h with
  | start => rfl
  | @generated u v request result before returned ih =>
    have hkept : Speaks s.1.tokenizer ((attempt (generateWithCallback request) : Method R S _) u).2 :=
      Keeps.attempt (keeps_speaks_generateWithCallback request) u ih
    rw [returned] at hkept
    exact hkept

/-! ### Two engines -/

theorem Ready.of_generateWithCallback_ok (htiled : Tiled source.files) (hplanned : Planned model)
    (h : Ready source model base s) (hrun : generateWithCallback request s = (.ok outcome, t)) :
    ∃ neededLen v w r, Returned source model request s.1.tokenizer neededLen v w r outcome t := by
  unfold generateWithCallback at hrun
  obtain ⟨_, s₁, hclear, hrun⟩ := of_bind_ok hrun
  obtain ⟨h₁, -, hnone, -⟩ :=
    (h.toKept.ends_clearKvCache (E := fun _ _ => True) (P := fun _ _ => True)).of_ok hclear
  obtain ⟨_, s₂, hempty, hrun⟩ := of_bind_ok hrun
  obtain ⟨h₂, -, hkv, -⟩ := (h₁.ends_clear (E := fun _ _ => True) (P := fun _ _ => True)).of_ok hempty
  have htokenizer : s₂.1.tokenizer = s.1.tokenizer := by
    have hs₁ : Speaks s.1.tokenizer (clearKvCache s : Outcome String Unit × _).2 :=
      keeps_speaks_clearKvCache s rfl
    rw [hclear] at hs₁
    obtain ⟨-, hs₂⟩ := Prod.mk.inj hempty
    rw [← hs₂]
    exact hs₁
  obtain ⟨result, s₃, hresult, hrun⟩ := of_bind_ok hrun
  obtain ⟨cleared, s₄, hcleared, hrun⟩ := of_bind_ok hrun
  rcases cleared with error | ⟨⟩
  · rcases result with error' | found
    · obtain ⟨_, _, -, hrun⟩ := of_bind_ok hrun
      cases hrun
    · obtain ⟨_, _, -, hrun⟩ := of_bind_ok hrun
      cases hrun
  obtain ⟨_, s₅, hstats, hrun⟩ := of_bind_ok hrun
  rcases result with error | found
  · obtain ⟨_, _, -, hrun⟩ := of_bind_ok hrun
    cases hrun
  cases hrun
  cases hstats
  obtain ⟨neededLen, v, w, r, hreturned⟩ :=
    of_generateImpl_ok h₂ (hkv.trans hnone) (of_attempt_value hresult)
  have h₃ := ((h₂.ends_generateImpl htiled hplanned (hkv.trans hnone) request).of_ok
    (of_attempt_value hresult)).1
  have hleft := of_attempt_value hcleared
  obtain ⟨-, -, hkv₄, -⟩ := (h₃.ends_clear (E := fun _ _ => True) (P := fun _ _ => True)).of_ok hleft
  rw [htokenizer] at hreturned
  refine ⟨neededLen, v, w, r, hreturned.needed, hreturned.context, hreturned.fresh, hreturned.silent,
    hreturned.underway, hreturned.ran, hkv₄.trans hreturned.kvCache, ?_, hreturned.outcome_eq⟩
  obtain ⟨-, hs₄⟩ := Prod.mk.inj hleft
  rw [← hreturned.heard, ← hs₄]

/-- The engine is built without a layer cache, and serves the same request. -/
theorem sampleRun_plain : ∃ built left outcome t,
    sampleBuild (some plainConfig) narrowHost = (.ok built, left) ∧
      sampleGenerate (built.engine, built.budget) = (.ok outcome, t) :=
  exists_narrowRun 0 false (by decide +kernel) (by decide +kernel)

end InferenceEngine
end returned
end Ramforge
