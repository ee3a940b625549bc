/-
A generation is a function of the file and the request.

Two engines over the same files may have different budgets, caches and read plans, have been
answered differently by the operating system, and have served other requests before.  Where both
return an outcome, it is the same.
-/
import Ramforge.Runtime.EngineLifecycle
import Ramforge.Runtime.StreamedProduct

namespace Ramforge

open Rust Rust.Exec GgufDataSource MemoryBudget ForwardPass Generation

/-! ## The sampler -/

section sampler

variable {R : Type} [Zero R] [One R] [Add R] [Sub R] [Div R] [LinearOrder R] [F32Exp R]
  {sampler : Sampler R} {memory : SamplerMemory}

theorem SamplerMemory.reserve_ok {answer : Option String} {what : String} {u : Unit}
    (h : SamplerMemory.reserve answer what = .ok u) : SamplerMemory.reserve none what = .ok u := by
  cases answer with
  | none => exact h
  | some e => cases h

namespace Sampler

omit [Zero R] [One R] [Add R] [Sub R] [Div R] [F32Exp R] in
theorem applyTopK_ok {scaled kept : List (WithBot R)} (h : sampler.applyTopK memory scaled = .ok kept) :
    sampler.applyTopK .enough scaled = .ok kept := by
  unfold applyTopK at h ⊢
  cases htop : sampler.topK with
  | none =>
    rw [htop] at h
    exact h
  | some k =>
    by_cases hk : 0 < k ∧ k < scaled.length
    · simp only [htop, if_pos hk] at h ⊢
      obtain ⟨_, hreserve, hkept⟩ := of_except_bind_ok h
      rw [SamplerMemory.enough, SamplerMemory.reserve_ok hreserve]
      exact hkept
    · simp only [htop, if_neg hk] at h ⊢
      exact h

omit [Sub R] [F32Exp R] in
theorem applyTopP_ok {probs kept : List R} (h : sampler.applyTopP memory probs = .ok kept) :
    sampler.applyTopP .enough probs = .ok kept := by
  unfold applyTopP at h ⊢
  cases htop : sampler.topP with
  | none =>
    rw [htop] at h
    exact h
  | some p =>
    by_cases hp : p < 1 ∧ 0 < p
    · simp only [htop, if_pos hp] at h ⊢
      obtain ⟨_, hreserve, hkept⟩ := of_except_bind_ok h
      rw [SamplerMemory.enough, SamplerMemory.reserve_ok hreserve]
      exact hkept
    · simp only [htop, if_neg hp] at h ⊢
      exact h

/-- The allocator decides whether a token is sampled, and not which one. -/
theorem sampleChecked_ok {logits : List R} {draw : R} {i : Nat}
    (h : sampler.sampleChecked memory logits draw = .ok i) :
    sampler.sampleChecked .enough logits draw = .ok i := by
  cases logits with
  | nil => exact h
  | cons first rest =>
    unfold sampleChecked at h ⊢
    by_cases hgreedy : sampler.temperature ≤ 0
    · simp only [if_pos hgreedy] at h ⊢
      exact h
    · simp only [if_neg hgreedy] at h ⊢
      obtain ⟨_, hreserve, h⟩ := of_except_bind_ok h
      obtain ⟨scaled, hscaled, h⟩ := of_except_bind_ok h
      obtain ⟨probs, hprobs, h⟩ := of_except_bind_ok h
      rw [applyTopK_ok hscaled, show SamplerMemory.enough.scaled = none from rfl,
        SamplerMemory.reserve_ok hreserve]
      show (do
        let probs ← sampler.applyTopP .enough (softmax scaled)
        tokenOfIndex ((reachedAt draw probs 0 0).getD (probs.length - 1))) = .ok i
      rw [applyTopP_ok hprobs]
      exact h

end Sampler
end sampler

/-! ## Logits -/

section logits

variable {R : Type} [F32 R] [Zero R] [Add R] [Sub R] [Mul R] {source : GgufDataSource}

theorem coincides_rowBytesFor {σ : Type} {V : σ → σ → Prop} (desc : TensorDescriptor) (inDim : Nat) :
    Coincides V (rowBytesFor desc inDim) (rowBytesFor desc inDim) := by
  unfold rowBytesFor
  split
  · exact .okOr _ _ _
  · exact .okOr _ _ _
  · exact .okOr _ _ _
  · exact (Coincides.okOr _ _ _).bind fun _ => (Coincides.failIf _ _ _ _).bind fun _ => .okOr _ _ _

/-- A product with a persistent weight is a function of the file and the vectors. -/
theorem PersistentWeight.coincides_matvecInto (htiled : Tiled source.files)
    (weight : PersistentWeight R) (x y : List R) :
    Coincides (Both fun s : Host × MemoryBudget => OnHost (Serves source) s.1) (weight.matvecInto x y)
      (weight.matvecInto x y) := by
  cases weight with
  | resident tensor => exact (Coincides.onLocal _).bind fun _ => .pure _
  | streamed desc =>
    intro s s' ⟨hs, hs'⟩ v t v' t' hrun hrun'
    obtain ⟨ht, hvalue⟩ := (ends_streamedMatvecInto htiled hs desc x y).of_ok hrun
    obtain ⟨ht', hvalue'⟩ := (ends_streamedMatvecInto htiled hs' desc x y).of_ok hrun'
    exact ⟨hvalue.unique hvalue', ht, ht'⟩

namespace StreamingLlamaModel

variable {model : StreamingLlamaModel R} {machine : Machine}

omit [F32 R] [Add R] [Sub R] [Mul R] [Zero R] in
theorem coincides_logitsWorkspaceMinBytes {σ : Type} {V : σ → σ → Prop}
    (model : StreamingLlamaModel R) :
    Coincides V model.logitsWorkspaceMinBytes model.logitsWorkspaceMinBytes := by
  unfold logitsWorkspaceMinBytes
  split
  · exact .pure _
  · refine (coincides_rowBytesFor _ _).bind fun _ => ?_
    split
    · exact .pure _
    · exact (Coincides.okOr _ _ _).bind fun _ => .okOr _ _ _

omit [F32 R] [Add R] [Sub R] [Mul R] [Zero R] in
/-- Evictions do not touch the file. -/
theorem keeps_host_headroom {J : List Answer × GgufDataSource → Prop} (requiredBytes : Nat) :
    Keeps (fun s : ForwardState R × MemoryBudget => OnHost J s.1.host)
      (ensureLayerCacheHeadroom requiredBytes) :=
  Keeps.bind (fun _ hs => hs) fun _ => Keeps.bind (fun _ hs => hs) fun _ _ hs => hs

theorem coincides_computeLogits (htiled : Tiled source.files) (hidden output : List R) :
    Coincides (Both fun s : ForwardState R × MemoryBudget => OnHost (Serves source) s.1.host)
      (model.computeLogits machine hidden output) (model.computeLogits machine hidden output) := by
  refine (Coincides.failIf _ _ _ _).bind fun _ => (coincides_logitsWorkspaceMinBytes model).bind
    fun required => (Coincides.ofUnit (keeps_host_headroom required) (keeps_host_headroom required)).bind
      fun _ => ?_
  split
  · exact (Coincides.onLocal _).bind fun _ => .pure _
  · exact Coincides.onPart (PersistentWeight.coincides_matvecInto htiled _ hidden output)
      (fun _ _ hs => hs) fun _ _ _ _ _ hc => hc

end StreamingLlamaModel
end logits

/-- A streamed product that returns does not depend on the budget, nor on the size of its chunks. -/
theorem streamedMatvecInto_transparent {R : Type} [F32 R] [Zero R] [Add R] [Sub R] [Mul R]
    {source : GgufDataSource} {desc : TensorDescriptor} {x y z z' : List R}
    {s s' t t' : Host × MemoryBudget} (htiled : Tiled source.files) (hs : OnHost (Serves source) s.1)
    (hs' : OnHost (Serves source) s'.1) (hrun : streamedMatvecInto desc x y s = (.ok z, t))
    (hrun' : streamedMatvecInto desc x y s' = (.ok z', t')) : z = z' :=
  ((ends_streamedMatvecInto htiled hs desc x y).of_ok hrun).2.unique
    ((ends_streamedMatvecInto htiled hs' desc x y).of_ok hrun').2

/-- The small file under a budget of `total` bytes. -/
def streaming (total : Nat) : Host × MemoryBudget :=
  (Planner.sampleHost Planner.sampleGguf,
    { total := total
      allocations := ∅
      used := 0
      peakUsed := 0 })

/-- Sixteen rows in one chunk, and in sixteen. -/
theorem streamedMatvecInto_transparent_small : ∃ z t t',
    streamedMatvecInto (Planner.sampleDescriptor "token_embd.weight" [8, 16] 0)
      (List.replicate 8 (1 : ℚ)) (List.replicate 16 1) (streaming 10000) = (.ok z, t) ∧
    streamedMatvecInto (Planner.sampleDescriptor "token_embd.weight" [8, 16] 0)
      (List.replicate 8 (1 : ℚ)) (List.replicate 16 1) (streaming 64) = (.ok z, t') := by
  have hrun : ∀ total ∈ [10000, 64], (streamedMatvecInto
      (Planner.sampleDescriptor "token_embd.weight" [8, 16] 0) (List.replicate 8 (1 : ℚ))
      (List.replicate 16 1) (streaming total)).1.map (fun _ => true) = .ok true := by
    decide +kernel
  obtain ⟨z, hz, -⟩ := Outcome.of_map_ok (hrun 10000 (by simp))
  obtain ⟨z', hz', -⟩ := Outcome.of_map_ok (hrun 64 (by simp))
  obtain ⟨t, hz⟩ := exists_of_fst_ok hz
  obtain ⟨t', hz'⟩ := exists_of_fst_ok hz'
  have hsame := streamedMatvecInto_transparent StreamingLlamaModel.tiled_sampleHost
    StreamingLlamaModel.serves_sampleHost StreamingLlamaModel.serves_sampleHost hz hz'
  exact ⟨z, t, t', hz, hsame ▸ hz'⟩

/-! ## Models that compute the same -/

/-- The models have the same weights; how they read and cache layers may differ. -/
structure StreamingLlamaModel.Alike {R : Type} (model model' : StreamingLlamaModel R) : Prop where
  config : model'.config = model.config
  tokenEmbd : model'.tokenEmbd = model.tokenEmbd
  outputNorm : model'.outputNorm = model.outputNorm
  output : model'.output = model.output
  layerDescriptors : model'.layerDescriptors = model.layerDescriptors
  attnBiasPresent : model'.attnBiasPresent = model.attnBiasPresent

namespace StreamingLlamaModel.Alike

variable {R : Type} [F32 R] {source : GgufDataSource} {model model' : StreamingLlamaModel R}

omit [F32 R] in
theorem symm (h : Alike model model') : Alike model' model :=
  ⟨h.config.symm, h.tokenEmbd.symm, h.outputNorm.symm, h.output.symm, h.layerDescriptors.symm,
    h.attnBiasPresent.symm⟩

theorem layerOf (h : Alike model model') (files : List (GgufShardLayout × List UInt8)) :
    LayerOf files model' = LayerOf files model := by
  unfold LayerOf
  rw [h.layerDescriptors, h.config]

theorem sound (h : Alike model model') {s : ForwardState R × MemoryBudget} (hs : Sound source model' s) :
    Sound source model s :=
  ⟨hs.coherent, hs.idle, hs.serves, h.layerOf source.files ▸ hs.cached⟩

theorem underway [Zero R] (h : Alike model model') {base : MemoryBudget}
    {s : ForwardState R × MemoryBudget} (hs : Underway source model' base s) :
    Underway source model base s :=
  ⟨h.sound hs.sound, hs.kv, hs.charges⟩

/-- What one of them retains, the other one retains. -/
theorem retains [Zero R] (h : Alike model model') {base : MemoryBudget} {κ α : Type}
    (view : κ → ForwardState R) {n : Exec (κ × MemoryBudget) String α}
    (hn : Retains (fun s => Underway source model' base (view s.1, s.2)) n) :
    Retains (fun s => Underway source model base (view s.1, s.2)) n :=
  fun s hs => (hn s (h.symm.underway hs)).mono (fun _ _ ht => h.underway ht)
    (fun _ _ ht => h.underway ht) fun _ _ hp => hp

variable [Zero R] [One R] [Add R] [Sub R] [Neg R] [Mul R] [Div R] [F32Math R] [F32Rotation R]
  {machine : Machine}

omit [One R] [Neg R] [Div R] [F32Math R] [F32Rotation R] in
theorem computeLogits (h : Alike model model') (hidden output : List R) :
    model'.computeLogits machine hidden output = model.computeLogits machine hidden output := by
  unfold StreamingLlamaModel.computeLogits logitsWorkspaceMinBytes outputWeight
  rw [h.config, h.output, h.tokenEmbd]

omit [One R] [Neg R] [Div R] [F32Math R] [F32Rotation R] in
theorem known (h : Alike model model') (kv : KvCache R) (b : MemoryBudget) :
    known source machine model' kv b = known source machine model kv b := by
  unfold ForwardPass.known
  rw [h.layerOf, h.config, h.tokenEmbd, h.outputNorm]
  simp only [h.computeLogits]

theorem completed (h : Alike model model') {f : Standing R} {tokenId pos : Nat} {kv kv' : KvCache R}
    {out row : List R} (hc : Completed f machine model' tokenId pos kv out row kv') :
    Completed f machine model tokenId pos kv out row kv' := by
  obtain ⟨config, tokenEmbd, outputNorm, output, descriptors, bias⟩ := h
  cases model
  cases model'
  simp only at config tokenEmbd outputNorm output descriptors bias
  subst config tokenEmbd outputNorm output descriptors bias
  obtain ⟨hidden, norm, ⟨hpos, hshape, sizes, l, hsizes, ⟨first, hfirst, hrounds⟩, hhidden, hcommit⟩,
    hnorm, hrow⟩ := hc
  exact ⟨hidden, norm, ⟨hpos, hshape, sizes, l, hsizes, ⟨first, hfirst, hrounds.mono fun _ _ _ _ hr => hr⟩,
    hhidden, hcommit⟩, hnorm, hrow⟩

end StreamingLlamaModel.Alike

namespace StreamingLlamaModel

open Planner LayerLoad

/-- Two loads of a layer that return have made the same weights, however each of them has read the
file. -/
theorem loadLayer_transparent {R : Type} [F32 R] [Zero R] [Sub R] [Mul R] {source : GgufDataSource}
    {model model' : StreamingLlamaModel R} {layerIdx : Nat}
    {s s' t t' : ResidencyStats × Host × MemoryBudget} {weights weights' : StreamingLayerWeights R}
    (htiled : Tiled source.files) (hplanned : Planned model) (hplanned' : Planned model')
    (halike : model.Alike model') (hs : OnHost (Serves source) s.2.1) (hacc : s.2.2.Accounted)
    (hs' : OnHost (Serves source) s'.2.1) (hacc' : s'.2.2.Accounted)
    (hrun : model.loadLayer layerIdx s = (.ok weights, t))
    (hrun' : model'.loadLayer layerIdx s' = (.ok weights', t')) : weights = weights' := by
  have hlayer : LayerOf source.files model layerIdx weights :=
    complete_of_loadLayer htiled hplanned hs hacc hrun
  have hlayer' : LayerOf source.files model' layerIdx weights' :=
    complete_of_loadLayer htiled hplanned' hs' hacc' hrun'
  rw [halike.layerOf] at hlayer'
  exact hlayer.unique hlayer'

theorem loadLayer_transparent_small : ∃ model s weights t t',
    loadSample (opened 10000) = (.ok model, s) ∧
      model.loadLayer 0 (opened 10000) = (.ok weights, t) ∧
      (individually model).loadLayer 0 (opened 5000) = (.ok weights, t') := by
  obtain ⟨model, s, weights, t, hmodel, hload⟩ := exists_coalescedLoad
  obtain ⟨model', s', weights', t', hmodel', hload'⟩ := exists_individualLoad
  obtain rfl := loadSample_unique hmodel hmodel'
  have hplanned := (sound_sample started.1 4096 hmodel rfl rfl).1
  have hplanned' : Planned (individually model) := hplanned
  have halike : Alike model (individually model) := ⟨rfl, rfl, rfl, rfl, rfl, rfl⟩
  have hsame := loadLayer_transparent tiled_sampleHost hplanned hplanned' halike
    serves_sampleHost (accounted_new (by decide : 10000 < u64Bound) rfl).1 serves_sampleHost
    (accounted_new (by decide : 5000 < u64Bound) rfl).1 hload hload'
  exact ⟨model, s, weights, _, _, hmodel, hload, hsame ▸ hload'⟩

end StreamingLlamaModel

/-! ## Two generations in step -/

/-- The generations have the same prompt, weights and numbers; what the allocator answers may
differ. -/
structure Generation.Alike {R S : Type} (g g' : Generation R S) : Prop where
  machine : g'.machine = g.machine
  model : g.model.Alike g'.model
  tokenizer : g'.tokenizer = g.tokenizer
  sampler : g'.sampler = g.sampler
  draw : g'.draws.draw = g.draws.draw
  onText : g'.onText = g.onText
  promptTokens : g'.promptTokens = g.promptTokens
  maxTokens : g'.maxTokens = g.maxTokens
  neededLen : g'.neededLen = g.neededLen

/-- Each state is one of a generation, and the K/V caches are the same. -/
structure Paired {R : Type} [F32 R] [Zero R] (source : GgufDataSource) (model : StreamingLlamaModel R)
    (s s' : ForwardState R × MemoryBudget) : Prop where
  left : ∃ base, Underway source model base s
  right : ∃ base, Underway source model base s'
  kv : s.1.kv = s'.1.kv

namespace Paired

open Running StreamingLlamaModel LayerLoad

variable {R : Type} [F32 R] [Zero R] {source : GgufDataSource} {model : StreamingLlamaModel R}
  {α : Type} {m m' : Running R α}

theorem of_retains (hm : ∀ base, Retains (Underway source model base) m)
    (hm' : ∀ base, Retains (Underway source model base) m')
    (hvalue : ∀ s s' a t a' t', Paired source model s s' → m s = (.ok a, t) → m' s' = (.ok a', t') →
      a = a' ∧ t.1.kv = t'.1.kv) :
    Coincides (Paired source model) m m' := by
  intro s s' hs a t a' t' hrun hrun'
  obtain ⟨base, hleft⟩ := hs.left
  obtain ⟨base', hright⟩ := hs.right
  obtain ⟨ha, hkv⟩ := hvalue s s' a t a' t' hs hrun hrun'
  exact ⟨ha, ⟨base, (hm base s hleft).of_ok hrun⟩, ⟨base', (hm' base' s' hright).of_ok hrun'⟩, hkv⟩

/-- Calls that leave the K/V cache alone. -/
theorem of_keeps (hm : ∀ f : Standing R, f.file = Serves source → Keeps (f.At [] none) m)
    (hm' : ∀ f : Standing R, f.file = Serves source → Keeps (f.At [] none) m')
    (hvalue : Coincides (Both fun s : ForwardState R × MemoryBudget => OnHost (Serves source) s.1.host)
      m m') : Coincides (Paired source model) m m' := by
  have hkv : ∀ {n : Running R α} {s t : ForwardState R × MemoryBudget} {a : α},
      (∀ f : Standing R, f.file = Serves source → Keeps (f.At [] none) n) →
      (∃ base, Underway source model base s) → n s = (.ok a, t) → t.1.kv = s.1.kv := by
    intro n s t a hn ⟨base, hs⟩ hrun
    have hkept := (hs.of_keeps hn).2
    rw [hrun] at hkept
    exact hkept
  refine of_retains (fun _ => retains_of_keeps hm) (fun _ => retains_of_keeps hm') ?_
  intro s s' a t a' t' hs hrun hrun'
  obtain ⟨base, hleft⟩ := hs.left
  obtain ⟨base', hright⟩ := hs.right
  refine ⟨(hvalue s s' ⟨hleft.sound.serves, hright.sound.serves⟩ a t a' t' hrun hrun').1, ?_⟩
  rw [hkv hm hs.left hrun, hkv hm' hs.right hrun', hs.kv]

theorem coincides_zeroedBuffer (len : Nat) (label : String) :
    Coincides (Paired source model) (zeroedBuffer (R := R) len label) (zeroedBuffer len label) := by
  refine of_keeps (fun _ _ => Standing.keeps_zeroedBuffer len label)
    (fun _ _ => Standing.keeps_zeroedBuffer len label) ?_
  have hreserve : Keeps (fun s : ForwardState R × MemoryBudget => OnHost (Serves source) s.1.host)
      (onHost (reserveBuffer label)) := fun s hs => ReadsKeep.reserveBuffer label s.1.host hs
  exact (Coincides.ofUnit hreserve hreserve).bind fun _ => .pure _

theorem coincides_headroom (requiredBytes requiredBytes' : Nat) :
    Coincides (Paired source model) (ensureLayerCacheHeadroom (R := R) requiredBytes)
      (ensureLayerCacheHeadroom requiredBytes') := by
  refine of_keeps (fun _ _ => Standing.keeps_ensureLayerCacheHeadroom requiredBytes)
    (fun _ _ => Standing.keeps_ensureLayerCacheHeadroom requiredBytes') ?_
  exact Coincides.ofUnit (keeps_host_headroom _) (keeps_host_headroom _)

theorem coincides_computeLogits [Add R] [Sub R] [Mul R] {model' : StreamingLlamaModel R}
    {machine : Machine} (htiled : Tiled source.files) (halike : Alike model model')
    (hidden output : List R) :
    Coincides (Paired source model) (model.computeLogits machine hidden output)
      (model'.computeLogits machine hidden output) := by
  rw [halike.computeLogits]
  exact of_keeps
    (fun _ hfile => keeps_computeLogits (hfile ▸ readsKeep_serves htiled) model machine hidden output)
    (fun _ hfile => keeps_computeLogits (hfile ▸ readsKeep_serves htiled) model machine hidden output)
    (StreamingLlamaModel.coincides_computeLogits htiled hidden output)

/-! ### Growth -/

/-- The K/V cache after a growth to `target` that has returned. -/
def grownTo (target : Nat) (kv : KvCache R) : KvCache R :=
  if kv.maxSeqLen < target then
    KvCache.grown target (target * (kv.nKvHeads * kv.headDim) * 4 * 2) kv
  else kv

omit [F32 R] in
theorem growToWithBudget_ok {reserve : Ramforge.Reserve} {target : Nat} {c : KvCache R}
    {b : MemoryBudget} {t : KvCache R × MemoryBudget} (h : KvCache.Charged kvCharge (c, b))
    (hrun : KvCache.growToWithBudget reserve target kvCharge (c, b) = (.ok (), t)) :
    t.1 = grownTo target c := by
  obtain ⟨hkept, hcharged⟩ := KvCache.growToWithBudget_kept h reserve target
  obtain ⟨history, hstores⟩ := h.stores
  have hcases := KvCache.growToWithBudget_run (b := b) hstores.k hstores.v reserve target kvCharge
  rw [hrun] at hkept hcharged hcases
  simp only at hkept hcharged hcases
  unfold grownTo
  by_cases hlt : c.maxSeqLen < target
  · rw [if_pos hlt]
    have hsize := (hkept.overlap rfl hlt).1
    rcases hcases with hsame | ⟨bytes, hgrown, -, -⟩
    · rw [hsame] at hsize
      exact absurd hsize (Nat.ne_of_lt hlt)
    · have hbytes := hcharged.bytes
      rw [show t.1 = KvCache.grown target bytes c from hgrown] at hbytes ⊢
      rw [show bytes = _ from hbytes]
      rfl
  · rw [if_neg hlt, hkept.enough rfl (Nat.not_lt.mp hlt)]

theorem grow_ok {base : MemoryBudget} {s t : ForwardState R × MemoryBudget} {target nLayers : Nat}
    {message : String → String} (hs : Underway source model base s)
    (hrun : (do
      let reserve ← onHost (nextKvReserve nLayers)
      mapErr message (onPart (fun s => (s.1.kv, s.2)) (fun t s => ({ s.1 with kv := t.1 }, t.2))
        (KvCache.growToWithBudget reserve target kvCharge)) : Running R Unit) s = (.ok (), t)) :
    t.1.kv = grownTo target s.1.kv := by
  obtain ⟨reserve, u, hreserve, hgrow⟩ := of_bind_ok hrun
  have hu := (retains_reserve nLayers s hs).of_ok hreserve
  have hkv : u.1.kv = s.1.kv := by
    cases hreserve
    rfl
  have hgrow := of_mapErr_ok hgrow
  rw [onPart_run] at hgrow
  obtain ⟨hok, hleft⟩ := Prod.mk.inj hgrow
  rw [← hleft, ← hkv]
  exact growToWithBudget_ok hu.kv (Prod.ext hok rfl)

variable {S : Type} {g g' : Generation R S}

/-- Whether and how far a K/V cache grows does not depend on the budget. -/
theorem coincides_growKv (halike : g.Alike g') (nextPos : Nat) :
    Coincides (Paired source model) (g.growKv nextPos) (g'.growKv nextPos) := by
  refine Coincides.self fun s s' hs => ?_
  simp only [← hs.kv, halike.neededLen]
  split
  · refine (Coincides.ofResult _).bind fun aligned => (Coincides.ofResult _).bind fun newBytes =>
      (coincides_headroom newBytes newBytes).bind fun _ => ?_
    refine of_retains (fun _ => (retains_reserve _).bind fun reserve => (retains_growth reserve _).mapErr _)
      (fun _ => (retains_reserve _).bind fun reserve => (retains_growth reserve _).mapErr _) ?_
    intro u u' _ t _ t' hu hrun hrun'
    obtain ⟨base, hleft⟩ := hu.left
    obtain ⟨base', hright⟩ := hu.right
    rw [grow_ok hleft hrun, grow_ok hright hrun', hu.kv]
    exact ⟨rfl, rfl⟩
  · exact .pure ()

/-! ### The other calls -/

variable [One R] [Add R] [Sub R] [Neg R] [Mul R] [Div R] [F32Math R] [F32Rotation R]

theorem coincides_forward {model' : StreamingLlamaModel R} {machine : Machine}
    (htiled : Tiled source.files) (hplanned : Planned model) (hplanned' : Planned model')
    (halike : StreamingLlamaModel.Alike model model') (tokenId : UInt32) (pos : Nat) (out : List R) :
    Coincides (Paired source model) (model.forwardSingleStreaming machine tokenId pos out)
      (model'.forwardSingleStreaming machine tokenId pos out) := by
  refine of_retains (fun _ => retains_forward htiled hplanned tokenId pos out)
    (fun _ => halike.retains id (retains_forward htiled hplanned' tokenId pos out)) ?_
  intro s s' row t row' t' hs hrun hrun'
  obtain ⟨base, hleft⟩ := hs.left
  obtain ⟨base', hright⟩ := hs.right
  obtain ⟨hist, hst⟩ := hleft.kv.stores
  obtain ⟨hist', hst'⟩ := hright.kv.stores
  have hends := ((ends_forward_known htiled hplanned hleft.sound hst).of_ok hrun).2
  have hends' :=
    ((ends_forward_known htiled hplanned' (halike.symm.sound hright.sound) hst').of_ok hrun').2
  rw [halike.known, ← hs.kv] at hends'
  exact Completed.unique htiled hends (halike.completed hends').rebase

theorem coincides_promptPass (htiled : Tiled source.files) (hplanned : Planned g.model)
    (hplanned' : Planned g'.model) (halike : g.Alike g') (hidden : List R) :
    Coincides (Paired source g.model) (g.promptPass hidden) (g'.promptPass hidden) := by
  unfold promptPass
  rw [halike.promptTokens, halike.machine]
  refine Coincides.foldlM (fun hidden token => ?_) _ _
  exact coincides_forward htiled hplanned hplanned' halike.model token.1 token.2 hidden

/-! ### Temporary charges -/

section scope

omit [Add R] [Sub R] [Mul R] [One R] [Neg R] [Div R] [F32Math R] [F32Rotation R]
variable {κ : Type} (view : κ → ForwardState R) {W : κ → κ → Prop} {name : String}
  {bytes bytes' : Nat} {n n' : Exec (κ × MemoryBudget) String α}

/-- Scopes may have charges of different sizes. -/
theorem coincides_withTemp (hplain : Plain name) (hne : name ≠ kvCharge)
    (hn : ∀ base, Retains (fun s => Underway source model base (view s.1, s.2)) n)
    (hn' : ∀ base, Retains (fun s => Underway source model base (view s.1, s.2)) n')
    (h : Coincides (fun s s' => Paired source model (view s.1, s.2) (view s'.1, s'.2) ∧ W s.1 s'.1) n n') :
    Coincides (fun s s' => Paired source model (view s.1, s.2) (view s'.1, s'.2) ∧ W s.1 s'.1)
      (MemoryBudget.withTemp MemoryError.display name bytes n)
      (MemoryBudget.withTemp MemoryError.display name bytes' n') := by
  intro s s' ⟨hs, hW⟩ a t a' t' hrun hrun'
  obtain ⟨base, hleft⟩ := hs.left
  obtain ⟨base', hright⟩ := hs.right
  obtain ⟨b, c, hbody, hb⟩ := of_withTemp_underway view hplain hne hn hleft hrun
  obtain ⟨b', c', hbody', hb'⟩ := of_withTemp_underway view hplain hne hn' hright hrun'
  obtain ⟨ha, ht, hW'⟩ := h (s.1, b) (s'.1, b') ⟨⟨hb, hb', hs.kv⟩, hW⟩ a _ a' _ hbody hbody'
  refine ⟨ha, ⟨⟨base, ?_⟩, ⟨base', ?_⟩, ht.kv⟩, hW'⟩
  · exact (retains_withTemp view hplain hne hn s hleft).of_ok hrun
  · exact (retains_withTemp view hplain hne hn' s' hright).of_ok hrun'

end scope

/-! ### The sampler -/

variable [LinearOrder R] [F32Exp R]

omit [Neg R] [Mul R] [F32Math R] [F32Rotation R] in
theorem coincides_sampleToken (halike : g.Alike g') (index : Nat) (logits : List R) :
    Coincides (Paired source g.model) (g.sampleToken index logits) (g'.sampleToken index logits) := by
  refine (coincides_headroom _ _).bind fun _ => Coincides.bind ?_ fun token => .pure _
  have hdraws : Coincides (fun s s' : ForwardState R × MemoryBudget =>
      Paired source g.model (s.1, s.2) (s'.1, s'.2) ∧ True)
      (ofResult (g.sampler.sampleChecked (g.draws.memory index) logits (g.draws.draw index)))
      (ofResult (g'.sampler.sampleChecked (g'.draws.memory index) logits (g'.draws.draw index))) := by
    rw [halike.sampler, halike.draw]
    refine Coincides.ofResults fun i i' hi hi' => ?_
    have henough := Sampler.sampleChecked_ok hi
    rw [Sampler.sampleChecked_ok hi'] at henough
    cases henough
    rfl
  intro s s' hs a t a' t' hrun hrun'
  obtain ⟨ha, ht, -⟩ := coincides_withTemp (W := fun _ _ => True) id ⟨by decide, by decide⟩ (by decide)
    (fun _ => (Keeps.ofResult _).retains) (fun _ => (Keeps.ofResult _).retains) hdraws s s' ⟨hs, trivial⟩
    a t a' t' hrun hrun'
  exact ⟨ha, ht⟩

end Paired

/-! ### Rounds -/

namespace Generation

open Running StreamingLlamaModel LayerLoad

variable {R S : Type} [F32 R] [Zero R] {source : GgufDataSource} {g g' : Generation R S}

/-- Generations in step, which have given the same texts to `on_text`. -/
abbrev Twin (source : GgufDataSource) (model : StreamingLlamaModel R)
    (s s' : GenerationState R × MemoryBudget) : Prop :=
  Paired source model (s.1.forward, s.2) (s'.1.forward, s'.2) ∧ s.1.heard = s'.1.heard

theorem coincides_onForward {model : StreamingLlamaModel R} {α : Type} {m m' : Running R α}
    (h : Coincides (Paired source model) m m') :
    Coincides (Twin source model) (onForward m : Generating R α) (onForward m') :=
  h.onPart (fun _ _ hs => hs.1) fun _ _ _ _ hs hc => ⟨hc, hs.2⟩

theorem coincides_emit (halike : g.Alike g') (text generatedText : List Char) :
    Coincides (Twin source g.model) (g.emit text generatedText) (g'.emit text generatedText) := by
  unfold emit
  rw [halike.onText]
  split
  · exact .pure _
  · refine Coincides.self fun s s' hs => Coincides.bind (.modify fun u u' hu => ⟨hu.1, ?_⟩) fun _ => ?_
    · show u.1.heard ++ [text] = u'.1.heard ++ [text]
      rw [hu.2]
    · rw [hs.2]
      split
      · exact .throw _ _
      · exact .pure _

variable [One R] [Add R] [Sub R] [Neg R] [Mul R] [Div R] [F32Math R] [F32Rotation R]
  [LinearOrder R] [F32Exp R]

theorem coincides_round (htiled : Tiled source.files) (hplanned : Planned g.model)
    (hplanned' : Planned g'.model) (halike : g.Alike g') (index : Nat) (l : GenerationLocals R) :
    Coincides (Twin source g.model) (g.round index l) (g'.round index l) := by
  unfold round
  rw [halike.machine, halike.tokenizer, halike.maxTokens, halike.model.config]
  refine (coincides_onForward (Paired.coincides_computeLogits htiled halike.model _ _)).bind fun logits =>
    (coincides_onForward (Paired.coincides_sampleToken halike index logits)).bind fun nextToken => ?_
  split
  · exact .pure _
  refine (Coincides.resume _).bind fun decoded => (coincides_emit halike _ _).bind fun text =>
    (Coincides.okOr _ _ _).bind fun nextPos => ?_
  split
  · exact .pure _
  split
  · exact .pure _
  refine (coincides_onForward (Paired.coincides_growKv halike nextPos)).bind fun _ =>
    (coincides_onForward (Paired.coincides_forward htiled hplanned hplanned' halike.model _ _ _)).bind
      fun hidden => ?_
  simp only
  split
  · exact .pure _
  · exact .pure _

theorem coincides_underLogits (htiled : Tiled source.files) (hplanned : Planned g.model)
    (hplanned' : Planned g'.model) (halike : g.Alike g') (hidden : List R) :
    Coincides (Twin source g.model) (g.underLogits hidden) (g'.underLogits hidden) := by
  unfold underLogits
  rw [halike.model.config, halike.maxTokens, halike.promptTokens]
  refine (coincides_onForward (Paired.coincides_zeroedBuffer _ _)).bind fun logits =>
    (coincides_onForward (Paired.coincides_promptPass htiled hplanned hplanned' halike hidden)).bind
      fun hidden => ?_
  exact .forBreak (fun index l => coincides_round htiled hplanned hplanned' halike index l) _ _ _

theorem coincides_underHidden (htiled : Tiled source.files) (hplanned : Planned g.model)
    (hplanned' : Planned g'.model) (halike : g.Alike g') (logitsBytes logitsBytes' : Nat) :
    Coincides (Twin source g.model) (g.underHidden logitsBytes) (g'.underHidden logitsBytes') := by
  unfold underHidden
  rw [halike.model.config]
  refine (coincides_onForward (Paired.coincides_zeroedBuffer _ _)).bind fun hidden => ?_
  exact Paired.coincides_withTemp (W := fun s s' => s.heard = s'.heard) GenerationState.forward
    ⟨by decide, by decide⟩ (by decide) (fun _ => retains_underLogits htiled hplanned hidden)
    (fun _ => halike.model.retains _ (retains_underLogits htiled hplanned' hidden))
    (coincides_underLogits htiled hplanned hplanned' halike hidden)

/-- Two runs of a generation that return have drawn the same tokens and said the same. -/
theorem coincides_run (htiled : Tiled source.files) (hplanned : Planned g.model)
    (hplanned' : Planned g'.model) (halike : g.Alike g')
    (hiddenBytes logitsBytes hiddenBytes' logitsBytes' : Nat) :
    Coincides (Twin source g.model) (g.run hiddenBytes logitsBytes)
      (g'.run hiddenBytes' logitsBytes') := by
  rw [run_eq, run_eq]
  exact Paired.coincides_withTemp (W := fun s s' => s.heard = s'.heard) GenerationState.forward
    ⟨by decide, by decide⟩ (by decide) (fun _ => retains_underHidden htiled hplanned logitsBytes)
    (fun _ => halike.model.retains _ (retains_underHidden htiled hplanned' logitsBytes'))
    (coincides_underHidden htiled hplanned hplanned' halike logitsBytes logitsBytes')

end Generation
end Ramforge
