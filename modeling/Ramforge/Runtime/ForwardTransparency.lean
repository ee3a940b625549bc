/-
The result of a forward pass is a function of the file, the token and the K/V cache.

Budgets, the layer cache, the read path, and what the operating system and the allocator
answered decide whether a pass returns.  They do not decide what it returns.
-/
import Ramforge.Runtime.ForwardEffects
import Ramforge.Runtime.LayerContents

namespace Ramforge

open Rust Rust.Exec GgufDataSource MemoryBudget ForwardPass LayerLoad

/-! ## What the file determines -/

namespace StreamingLlamaModel

variable {R : Type} [F32 R] [Zero R] [Sub R] [Mul R] {source : GgufDataSource}
  {model : StreamingLlamaModel R}

/-- The weights of a layer, as the files hold them. -/
def LayerOf (files : List (GgufShardLayout × List UInt8)) (model : StreamingLlamaModel R)
    (layerIdx : Nat) (weights : StreamingLayerWeights R) : Prop :=
  ∃ layer l, model.layerDescriptors[layerIdx]? = some layer ∧ Complete files layer l ∧
    (extractWeights model.config layerIdx (tensorMap l.loaded)).1 = .ok weights

omit [Zero R] [Sub R] [Mul R] in
theorem LayerOf.unique {files : List (GgufShardLayout × List UInt8)} {layerIdx : Nat}
    {weights weights' : StreamingLayerWeights R} (h : LayerOf files model layerIdx weights)
    (h' : LayerOf files model layerIdx weights') : weights = weights' := by
  obtain ⟨layer, l, hlayer, hcomplete, hextract⟩ := h
  obtain ⟨layer', l', hlayer', hcomplete', hextract'⟩ := h'
  obtain rfl := Option.some.inj (hlayer.symm.trans hlayer')
  rw [hcomplete.tensorMap_eq hcomplete', hextract'] at hextract
  exact (Outcome.ok.inj hextract).symm

end StreamingLlamaModel

theorem ComputeDispatch.coincides_tensorF32View {σ R : Type} [F32 R] [Zero R] [Sub R] [Mul R]
    {I : σ → Prop} (tensor : TensorData R) :
    Coincides (Both I) (tensorF32View tensor) (tensorF32View tensor) := by
  unfold tensorF32View
  split
  · exact .pure _
  · exact tensor.coincides_toF32Vec.mapErr _ _

namespace ForwardPass

open Running StreamingLlamaModel

variable {R : Type} [Zero R] [One R] [Add R] [Sub R] [Neg R] [Mul R] [Div R] [F32 R] [F32Math R]
  [F32Rotation R] {source : GgufDataSource} {machine : Machine} {model : StreamingLlamaModel R}
  {kv : KvCache R} {b : MemoryBudget}

/-- What the file determines of a model. -/
def known (source : GgufDataSource) (machine : Machine) (model : StreamingLlamaModel R)
    (kv : KvCache R) (b : MemoryBudget) : Standing R where
  file := Serves source
  weights := LayerOf source.files model
  embedding tokenId row := ∃ s t, OnHost (Serves source) s.1 ∧
    model.tokenEmbd.getEmbeddingInto tokenId model.config.embeddingLength
      (List.replicate model.config.embeddingLength 0) s = (.ok row, t)
  norm v := ∃ s t, OnHost (Serves source) s.1.host ∧
    Pass.persistentF32View model.outputNorm s = (.ok v, t)
  logits hidden output v := ∃ s t, OnHost (Serves source) s.1.host ∧
    model.computeLogits machine hidden output s = (.ok v, t)
  history := (· = kv)
  base := b

omit [One R] [Neg R] [Div R] [F32Math R] [F32Rotation R] in
theorem knows_known (htiled : Tiled source.files) (hplanned : Planned model) :
    Knows (known source machine model kv b) machine model where
  reads := readsKeep_serves htiled
  loads _ _ _ _ hhost hacc hrun := complete_of_loadLayer htiled hplanned hhost hacc hrun
  embeds _ s _ t hhost hrun := ⟨s, t, hhost, hrun⟩
  norms s _ t hhost hrun := ⟨s, t, hhost, hrun⟩
  multiplies _ _ s _ t hhost hrun := ⟨s, t, hhost, hrun⟩

omit [One R] [Neg R] [Div R] [F32Math R] [F32Rotation R] in
theorem known_embedding_unique (htiled : Tiled source.files) {tokenId : Nat} {row row' : List R}
    (h : (known source machine model kv b).embedding tokenId row)
    (h' : (known source machine model kv b).embedding tokenId row') : row = row' := by
  obtain ⟨s, t, hhost, hrun⟩ := h
  obtain ⟨s', t', hhost', hrun'⟩ := h'
  exact (PersistentWeight.coincides_getEmbeddingInto htiled model.tokenEmbd tokenId _ _ s s'
    ⟨hhost, hhost'⟩ row t row' t' hrun hrun').1

omit [One R] [Neg R] [Div R] [F32Math R] [F32Rotation R] in
theorem known_norm_unique (htiled : Tiled source.files) {v v' : List R}
    (h : (known source machine model kv b).norm v) (h' : (known source machine model kv b).norm v') :
    v = v' := by
  obtain ⟨s, t, hhost, hrun⟩ := h
  obtain ⟨s', t', hhost', hrun'⟩ := h'
  cases hnorm : model.outputNorm with
  | resident tensor =>
    rw [hnorm] at hrun hrun'
    exact (ComputeDispatch.coincides_tensorF32View (I := fun _ => True) tensor s s'
      ⟨trivial, trivial⟩ v t v' t' hrun hrun').1
  | streamed desc =>
    rw [hnorm] at hrun hrun'
    have hread : ∀ {v s t}, Pass.persistentF32View (R := R) (.streamed desc) s = (.ok v, t) →
        ∃ host, (PersistentWeight.streamed desc).toF32Vec s.1.host = (.ok v, host) := by
      intro v s t hrun
      obtain ⟨hrun, -⟩ := of_onFst_ok hrun
      rw [onPart_run] at hrun
      exact ⟨_, Prod.ext (Prod.mk.inj hrun).1 rfl⟩
    obtain ⟨host, hread₁⟩ := hread hrun
    obtain ⟨host', hread₂⟩ := hread hrun'
    exact (PersistentWeight.coincides_toF32Vec htiled (.streamed desc) _ _ ⟨hhost, hhost'⟩ v host v' host'
      hread₁ hread₂).1

/-- A round is determined by what it starts from. -/
theorem Ran.unique {f : Standing R} {p : Pass R} {l l₁ l₂ : Locals R} {i : Nat}
    (hhistory : ∀ kv kv', f.history kv → f.history kv' → kv = kv')
    (hweights : ∀ w w', f.weights i w → f.weights i w' → w = w')
    (h₁ : Ran f p l i l₁) (h₂ : Ran f p l i l₂) : l₁ = l₂ := by
  obtain ⟨kv, w, hkv, hw, hrun, hstaged⟩ := h₁
  obtain ⟨kv', w', hkv', hw', hrun', hstaged'⟩ := h₂
  obtain rfl := hhistory kv kv' hkv hkv'
  obtain rfl := hweights w w' hw hw'
  have hacts : l₁.acts = l₂.acts := (Prod.mk.inj (hrun.symm.trans hrun')).2
  obtain ⟨acts₁, staged₁⟩ := l₁
  obtain ⟨acts₂, staged₂⟩ := l₂
  obtain rfl : acts₁ = acts₂ := hacts
  exact congrArg (Locals.mk acts₁) (hstaged.trans hstaged'.symm)

/-- So is the whole stack, when the file determines what it draws on. -/
theorem RanAll.unique {f : Standing R} {p : Pass R} {tokenId : Nat} {l₁ l₂ : Locals R}
    (hhistory : ∀ kv kv', f.history kv → f.history kv' → kv = kv')
    (hweights : ∀ i w w', f.weights i w → f.weights i w' → w = w')
    (hembedding : ∀ row row', f.embedding tokenId row → f.embedding tokenId row' → row = row')
    (h₁ : RanAll f p tokenId l₁) (h₂ : RanAll f p tokenId l₂) : l₁ = l₂ := by
  obtain ⟨row, hrow, hrounds⟩ := h₁
  obtain ⟨row', hrow', hrounds'⟩ := h₂
  obtain rfl := hembedding row row' hrow hrow'
  exact Rounds.unique (R := Ran f p) (fun _ i _ _ _ => Ran.unique hhistory (hweights i)) hrounds hrounds'

/-- What the charges were does not show in a result. -/
theorem Completed.rebase {tokenId pos : Nat} {out row : List R} {kv' : KvCache R} {b' : MemoryBudget}
    (h : Completed (known source machine model kv b') machine model tokenId pos kv out row kv') :
    Completed (known source machine model kv b) machine model tokenId pos kv out row kv' := by
  obtain ⟨hidden, norm, ⟨hpos, hshape, sizes, l, hsizes, ⟨first, hfirst, hrounds⟩, hhidden, hcommit⟩,
    hnorm, hrow⟩ := h
  exact ⟨hidden, norm, ⟨hpos, hshape, sizes, l, hsizes,
    ⟨first, hfirst, hrounds.mono fun _ _ _ _ hran => hran⟩, hhidden, hcommit⟩, hnorm, hrow⟩

theorem Completed.unique (htiled : Tiled source.files) {tokenId pos : Nat}
    {out row row' : List R} {kv₁ kv₂ : KvCache R}
    (h₁ : Completed (known source machine model kv b) machine model tokenId pos kv out row kv₁)
    (h₂ : Completed (known source machine model kv b) machine model tokenId pos kv out row' kv₂) :
    row = row' ∧ kv₁ = kv₂ := by
  obtain ⟨hidden, norm, ⟨-, -, sizes, l, hsizes, hran, rfl, hcommit⟩, hnorm, hrow⟩ := h₁
  obtain ⟨hidden', norm', ⟨-, -, sizes', l', hsizes', hran', rfl, hcommit'⟩, hnorm', hrow'⟩ := h₂
  obtain rfl := known_norm_unique htiled hnorm hnorm'
  obtain rfl : sizes = sizes' := Outcome.ok.inj (Prod.mk.inj (hsizes.symm.trans hsizes')).1
  have hhistory : ∀ c c' : KvCache R, c = kv → c' = kv → c = c' := fun _ _ hc hc' => hc.trans hc'.symm
  obtain rfl := RanAll.unique hhistory (fun _ _ _ hw hw' => LayerOf.unique hw hw')
    (fun _ _ => known_embedding_unique htiled) hran hran'
  exact ⟨(Prod.mk.inj (hrow.symm.trans hrow')).2, (Prod.mk.inj (hcommit.symm.trans hcommit')).2⟩
end ForwardPass

namespace StreamingLlamaModel

variable {R : Type} [Zero R] [One R] [Add R] [Sub R] [Neg R] [Mul R] [Div R] [F32 R] [F32Math R]
  [F32Rotation R] {source : GgufDataSource} {machine : Machine} {model : StreamingLlamaModel R}
  {s s' t t' : ForwardState R × MemoryBudget} {hist : KvHistory R} {tokenId : UInt32} {pos : Nat}
  {out row row' : List R}

/-- The files are those of `source`, and the layers in the cache are those of the files. -/
structure Sound (source : GgufDataSource) (model : StreamingLlamaModel R)
    (s : ForwardState R × MemoryBudget) : Prop where
  coherent : LayerCache.Coherent (s.1.cache, s.2)
  idle : Idle s.2
  serves : OnHost (Serves source) s.1.host
  cached : ∀ (i : Nat) e, s.1.cache.entries[i]? = some e → LayerOf source.files model i e.value

section standing

omit [Zero R] [One R] [Add R] [Sub R] [Neg R] [Mul R] [Div R] [F32Math R] [F32Rotation R]
variable {f : Standing R} (hfile : f.file = Serves source)
  (hweights : f.weights = LayerOf source.files model)
include hfile hweights

theorem Sound.at (h : Sound source model s) (hbase : f.base = s.2) (hhistory : f.history s.1.kv) :
    f.At [] none s :=
  ⟨h.coherent, hfile ▸ h.serves, hweights ▸ h.cached, hhistory,
    fun name hsome hunder => absurd (idle_iff.mp h.idle name hunder) (Option.isSome_iff_ne_none.mp hsome),
    fun _ hname => absurd hname List.not_mem_nil, fun _ _ _ => hbase ▸ rfl⟩

theorem Sound.of_at {own : List String} (h : f.At own none s) : Sound source model s :=
  ⟨h.coherent, idle_of_at h, hfile ▸ h.file, hweights ▸ h.weights⟩

end standing

/-- What a call over known files ends with. -/
theorem ends_forward_known (htiled : Tiled source.files) (hplanned : Planned model)
    (h : Sound source model s) (hst : KvCache.Stores s.1.kv hist) :
    Ends (model.forwardSingleStreaming machine tokenId pos out) s
      (fun row t => (known source machine model s.1.kv s.2).anyHistory.At [] none t ∧
        Completed (known source machine model s.1.kv s.2) machine model tokenId.toNat pos s.1.kv out row
          t.1.kv)
      (fun e t => (known source machine model s.1.kv s.2).anyHistory.At [] none t ∧
        Stopped (known source machine model s.1.kv s.2) machine model tokenId.toNat pos s.1.kv e t.1.kv)
      fun _ _ => True :=
  ends_forward (knows_known htiled hplanned) (h.at rfl rfl rfl rfl) List.not_mem_nil rfl hst tokenId pos out

end StreamingLlamaModel
end Ramforge
