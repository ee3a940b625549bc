/-
The layers of a forward pass: what each round leaves, and what it has computed.

`Ran` is a round seen from outside: the layer ran over weights that are known, and its key and
value are staged.  Where the weights came from does not show.
-/
import Ramforge.Runtime.ForwardFrame
import Ramforge.Rust.Rounds

namespace Ramforge

open Rust Rust.Exec GgufDataSource MemoryBudget ForwardPass

/-! ## Staging -/

theorem plain_chargeName : Plain chargeName := ⟨by decide, by decide⟩

namespace ForwardPass

variable {machine : Machine} {R : Type}

theorem keeps_stagedKvCapacityBytes {σ : Type} {I : σ → Prop} (blockCount : Nat) (staged : Staged R) :
    Keeps I (stagedKvCapacityBytes machine blockCount staged) :=
  (Keeps.okOr _ _).bind fun _ => (Keeps.okOr _ _).bind fun _ =>
    (Keeps.foldlM (fun _ _ => Keeps.okOr _ _) _ _).bind fun _ => (Keeps.okOr _ _).bind fun _ => .okOr _ _

/-- Settling changes the size of the charge only. -/
theorem settle_apart (blockCount nonStagedBytes minimumStagedBytes : Nat) (staged : Staged R)
    (b : MemoryBudget) (h : b.Accounted) (hsome : (b.get chargeName).isSome) :
    let r := settleStagedKvCharge machine blockCount nonStagedBytes minimumStagedBytes staged b
    Apart (· = chargeName) b r.2 ∧ (r.2.get chargeName).isSome := by
  have hresize : ∀ bytes, Keeps (fun b' => Apart (· = chargeName) b b' ∧ (b'.get chargeName).isSome)
      (resize chargeName bytes) := by
    intro bytes b' ⟨hb', hsome'⟩
    obtain ⟨hacc, hleft⟩ := keeps_isSome_resize chargeName chargeName bytes b' ⟨hb'.accounted, hsome'⟩
    refine ⟨⟨hacc, fun other hother => ?_⟩, hleft⟩
    rw [resize_get hb'.accounted hother]
    exact hb'.get_eq other hother
  have hkeeps : Keeps (fun b' => Apart (· = chargeName) b b' ∧ (b'.get chargeName).isSome)
      (settleStagedKvCharge machine blockCount nonStagedBytes minimumStagedBytes staged) := by
    refine (keeps_stagedKvCapacityBytes _ _).bind fun _ => (Keeps.okOr _ _).bind fun _ =>
      Keeps.self.bind fun _ => (Keeps.okOr _ _).bind fun _ => ?_
    split
    · exact ((hresize _).mapErr _).bind fun _ => .pure _
    · exact .pure _
  exact hkeeps b ⟨.refl h, hsome⟩

/-! ## A layer -/

section standing

open Running Standing

variable {f : Standing R} {own : List String} {live : Option Nat} {s : ForwardState R × MemoryBudget}

theorem ends_keeps {α : Type} {m : Running R α} (hm : Keeps (f.At own live) m) (h : f.At own live s) :
    Ends m s (fun _ t => f.At own live t) (fun _ t => f.At own live t) fun _ _ => True :=
  (hm.ends h).mono (fun _ _ ht => ht) (fun _ _ ht => ht) fun _ _ _ => trivial

theorem ends_clonedBuffer (h : f.At own live s) (source : List R) (label : String) :
    Ends (clonedBuffer source label) s (fun r t => r = source ∧ f.At own live t)
      (fun _ t => f.At own live t) fun _ _ => True :=
  (ends_keeps (keeps_onHost (ReadsKeep.reserveBuffer label)) h).bind fun _ _ ht => ⟨rfl, ht⟩

theorem ends_zeroedBuffer [Zero R] (h : f.At own live s) (len : Nat) (label : String) :
    Ends (zeroedBuffer len label) s (fun r t => r = List.replicate len 0 ∧ f.At own live t)
      (fun _ t => f.At own live t) fun _ _ => True :=
  (ends_keeps (keeps_onHost (ReadsKeep.reserveBuffer label)) h).bind fun _ _ ht => ⟨rfl, ht⟩

theorem keeps_settle (p : Pass R) (hown : chargeName ∈ own) (staged : Staged R) :
    Keeps (f.At own live) (p.settle staged) :=
  keeps_onOwn hown (settle_apart _ _ _ staged)

/-- The staged keys and values with those that a layer has left. -/
def Staged.with (staged : Staged R) (acts : Activations R) : Staged R where
  k := staged.k ++ [acts.kTmp]
  v := staged.v ++ [acts.vTmp]

theorem ends_stage (p : Pass R) (h : f.At own live s) (hown : chargeName ∈ own) (acts : Activations R)
    (staged : Staged R) :
    Ends (p.stage acts staged) s (fun r t => r = Staged.with staged acts ∧ f.At own live t)
      (fun _ t => f.At own live t) fun _ _ => True := by
  refine (ends_clonedBuffer h acts.kTmp _).bind fun k t ⟨hk, ht⟩ =>
    (ends_keeps (keeps_settle p hown _) ht).bind fun _ t ht => ?_
  refine (ends_clonedBuffer ht acts.vTmp _).bind fun v t ⟨hv, ht⟩ =>
    (ends_keeps (keeps_settle p hown _) ht).bind fun _ t ht => ?_
  refine ⟨?_, ht⟩
  rw [hk, hv]
  rfl

theorem ends_retainLayer {i : Nat} (h : f.At own (some i) s) {w : StreamingLayerWeights R}
    (hw : f.weights i w) (bytes : Nat) :
    Ends (Pass.retainLayer i w bytes) s (fun _ t => f.At own none t) (fun _ t => f.At own none t)
      fun _ _ => True := by
  unfold Pass.retainLayer
  rw [ends_bind, ends_attempt]
  refine (ends_insertLoaded h hw bytes).mono (fun r t ht => ?_) (fun _ _ hf => hf.elim)
    fun _ _ hf => hf.elim
  cases r with
  | cached evictions =>
    refine (ends_count ht _).bind fun _ t ht =>
      (ends_recordCacheState ht).bind fun _ t ht => ?_
    exact ht.congr rfl rfl rfl rfl
  | skipped value evictions =>
    exact (ends_count ht _).bind fun _ t ht =>
      (ends_recordCacheState ht).bind fun _ t ht => ends_releaseLayer ht

/-- Give the layer back and report the error. -/
theorem ends_giveBack {α : Type} {i : Nat} (h : f.At own (some i) s) (error : String)
    {Q : α → ForwardState R × MemoryBudget → Prop} :
    Ends (do onLayer (StreamingLlamaModel.releaseLayer i); throw error : Running R α) s Q
      (fun _ t => f.At own none t) fun _ _ => True :=
  (ends_releaseLayer h).bind fun _ _ ht => ht

/-- What a layer that has run is followed by. -/
theorem ends_finishLoaded (p : Pass R) {i : Nat} (h : f.At own (some i) s) (hown : chargeName ∈ own)
    {w : StreamingLayerWeights R} (hw : f.weights i w) (acts : Activations R) (staged : Staged R) :
    Ends (p.finishLoaded i w acts staged) s
      (fun l t => l = { acts, staged := Staged.with staged acts } ∧ f.At own none t)
      (fun _ t => f.At own none t) fun _ _ => True := by
  unfold Pass.finishLoaded
  rw [ends_bind, ends_attempt]
  refine (ends_stage p h hown acts staged).mono (fun r t ⟨hr, ht⟩ => ?_)
    (fun e t ht => ends_giveBack ht e) fun _ _ _ => trivial
  rw [ends_bind, ends_attempt, ends_resume]
  refine ⟨fun bytes _ => ?_, fun e _ => ends_giveBack ht e, fun _ _ => trivial⟩
  refine (ends_retainLayer ht hw bytes).bind fun _ t ht => ?_
  rw [hr]
  exact ⟨rfl, ht⟩

end standing

section layers

open Running Standing

variable [Zero R] [One R] [Add R] [Sub R] [Neg R] [Mul R] [Div R] [F32 R] [F32Math R] [F32Rotation R]
  {f : Standing R} {own : List String} {s : ForwardState R × MemoryBudget}

/-- What the calls on a model rely on: their results are what is known of the file. -/
structure Knows (f : Standing R) (machine : Machine) (model : StreamingLlamaModel R) : Prop where
  reads : ReadsKeep f.file
  loads : ∀ i s w t, OnHost f.file s.2.1 → s.2.2.Accounted → model.loadLayer i s = (.ok w, t) →
    f.weights i w
  embeds : ∀ tokenId s row t, OnHost f.file s.1 →
    model.tokenEmbd.getEmbeddingInto tokenId model.config.embeddingLength
      (List.replicate model.config.embeddingLength 0) s = (.ok row, t) → f.embedding tokenId row
  norms : ∀ s v t, OnHost f.file s.1.host → Pass.persistentF32View model.outputNorm s = (.ok v, t) →
    f.norm v
  multiplies : ∀ hidden output s v t, OnHost f.file s.1.host →
    model.computeLogits machine hidden output s = (.ok v, t) → f.logits hidden output v

/-- A layer has run over weights that are known, and its key and value are staged. -/
def Ran (f : Standing R) (p : Pass R) (l : Locals R) (layerIdx : Nat) (l' : Locals R) : Prop :=
  ∃ kv w, f.history kv ∧ f.weights layerIdx w ∧
    p.execute layerIdx kv l.acts w = (.ok (), l'.acts) ∧ l'.staged = Staged.with l.staged l'.acts

theorem ends_missedLayer {p : Pass R} (hknows : Knows f p.machine p.model) (h : f.At own none s)
    (hown : chargeName ∈ own) (l : Locals R) (i : Nat) :
    Ends (p.missedLayer i l) s (fun l' t => f.At own none t ∧ Ran f p l i l')
      (fun _ t => f.At own none t) fun _ _ => True := by
  refine (ends_count h _).bind fun _ t ht => ?_
  rw [ends_bind, ends_expect]
  refine ⟨fun _ => trivial, fun estimate _ => ?_⟩
  refine (ends_keeps (keeps_ensureLayerCacheHeadroom _) ht).bind fun _ t ht => ?_
  refine (ends_loadLayer ht hknows.reads (hknows.loads i)).bind fun w t ⟨hw, ht⟩ => ?_
  rw [ends_bind, ends_self]
  rcases hrun : p.execute i t.1.kv l.acts w with ⟨u | error | message, acts⟩
  · refine (ends_finishLoaded p ht hown hw acts l.staged).mono (fun l' t' ⟨hl, ht'⟩ => ⟨ht', ?_⟩)
      (fun _ _ he => he) fun _ _ hp => hp
    rw [hl]
    exact ⟨t.1.kv, w, ht.history, hw, hrun, rfl⟩
  · exact ends_giveBack ht error
  · trivial

theorem ends_hitLayer {p : Pass R} (h : f.At own none s) (hown : chargeName ∈ own) (l : Locals R)
    {i : Nat} {kv : KvCache R} {w : StreamingLayerWeights R} (hkv : f.history kv) (hw : f.weights i w) :
    Ends (p.hitLayer l (p.execute i kv l.acts w)) s (fun l' t => f.At own none t ∧ Ran f p l i l')
      (fun _ t => f.At own none t) fun _ _ => True := by
  rcases hrun : p.execute i kv l.acts w with ⟨u | error | message, acts⟩
  · refine (ends_recordCacheState h).bind fun _ t ht =>
      (ends_count ht _).bind fun _ t ht => ?_
    rw [ends_bind, ends_resume]
    refine ⟨fun _ _ => ?_, fun _ he => (by cases he), fun _ hp => (by cases hp)⟩
    refine (ends_stage p ht hown acts l.staged).bind fun staged t ⟨hstaged, ht⟩ => ⟨ht, ?_⟩
    exact ⟨kv, w, hkv, hw, hrun, hstaged⟩
  · refine (ends_recordCacheState h).bind fun _ t ht =>
      (ends_count ht _).bind fun _ t ht => ?_
    rw [ends_bind, ends_resume]
    exact ⟨fun _ he => (by cases he), fun _ _ => ht, fun _ hp => (by cases hp)⟩
  · trivial

/-- A round of the loop over the layers, whether the layer was cached or not. -/
theorem ends_runLayer {p : Pass R} (hknows : Knows f p.machine p.model) (h : f.At own none s)
    (hown : chargeName ∈ own) (l : Locals R) (i : Nat) :
    Ends (p.runLayer l i) s (fun l' t => f.At own none t ∧ Ran f p l i l')
      (fun _ t => f.At own none t) fun _ _ => True := by
  unfold Pass.runLayer
  rw [ends_bind, ends_self]
  refine (ends_withEntry h i (p.execute i s.1.kv l.acts)).bind fun r t ⟨ht, hr⟩ => ?_
  cases r with
  | none => exact ends_missedLayer hknows ht hown l i
  | some result =>
    obtain ⟨w, hw, hresult⟩ := hr result rfl
    rw [hresult]
    exact ends_hitLayer ht hown l h.history hw

/-! ## The whole stack -/

/-- The buffers of a pass whose token has the embedding `row`. -/
def Pass.scratch (p : Pass R) (row : List R) : Activations R where
  hidden := row
  tmp := List.replicate p.model.config.embeddingLength 0
  qTmp := List.replicate p.sizes.qDim 0
  kTmp := List.replicate p.sizes.kvDim 0
  vTmp := List.replicate p.sizes.kvDim 0
  attnProj := List.replicate p.model.config.embeddingLength 0
  gate := List.replicate p.model.config.feedForwardLength 0
  up := List.replicate p.model.config.feedForwardLength 0
  gateSilu := List.replicate p.model.config.feedForwardLength 0
  gateUp := List.replicate p.model.config.feedForwardLength 0
  ffnOut := List.replicate p.model.config.embeddingLength 0

/-- All layers have run, from the embedding of the token. -/
def RanAll (f : Standing R) (p : Pass R) (tokenId : Nat) (l : Locals R) : Prop :=
  ∃ row, f.embedding tokenId row ∧ Rounds (Ran f p) (List.range p.model.config.blockCount)
    { acts := p.scratch row, staged := { k := [], v := [] } } l

omit [One R] [Neg R] [Div R] [F32Math R] [F32Rotation R] in
theorem ends_activations {p : Pass R} (hknows : Knows f p.machine p.model) (h : f.At own none s)
    (tokenId : Nat) :
    Ends (p.activations tokenId) s
      (fun acts t => f.At own none t ∧ ∃ row, f.embedding tokenId row ∧ acts = p.scratch row)
      (fun _ t => f.At own none t) fun _ _ => True := by
  let output : List R := List.replicate p.model.config.embeddingLength 0
  have hembed : ∀ t, f.At own none t → Ends (onManaged (p.model.tokenEmbd.getEmbeddingInto
      tokenId p.model.config.embeddingLength output)) t
      (fun row t => f.embedding tokenId row ∧ f.At own none t) (fun _ t => f.At own none t)
      fun _ _ => True := by
    intro t ht
    have hends := ends_keeps (keeps_onManaged fun b => hknows.reads.getEmbeddingInto (b := b)
      p.model.tokenEmbd tokenId p.model.config.embeddingLength output) ht
    rw [onManaged, ends_onPart] at hends ⊢
    unfold Ends at hends ⊢
    rcases hrun : p.model.tokenEmbd.getEmbeddingInto tokenId p.model.config.embeddingLength output
      (t.1.host, t.2) with ⟨row | e | m, t'⟩ <;> rw [hrun] at hends
    · exact ⟨hknows.embeds tokenId _ row t' ht.file hrun, hends⟩
    · exact hends
    · trivial
  unfold Pass.activations
  refine (ends_zeroedBuffer h _ _).bind fun _ t ⟨hidden, ht⟩ => ?_
  rw [hidden]
  refine (hembed t ht).bind fun row t ⟨hrow, ht⟩ => ?_
  refine (ends_zeroedBuffer ht _ _).bind fun _ t ⟨h₁, ht⟩ => ?_
  refine (ends_zeroedBuffer ht _ _).bind fun _ t ⟨h₂, ht⟩ => ?_
  refine (ends_zeroedBuffer ht _ _).bind fun _ t ⟨h₃, ht⟩ => ?_
  refine (ends_zeroedBuffer ht _ _).bind fun _ t ⟨h₄, ht⟩ => ?_
  refine (ends_zeroedBuffer ht _ _).bind fun _ t ⟨h₅, ht⟩ => ?_
  refine (ends_zeroedBuffer ht _ _).bind fun _ t ⟨h₆, ht⟩ => ?_
  refine (ends_zeroedBuffer ht _ _).bind fun _ t ⟨h₇, ht⟩ => ?_
  refine (ends_zeroedBuffer ht _ _).bind fun _ t ⟨h₈, ht⟩ => ?_
  refine (ends_zeroedBuffer ht _ _).bind fun _ t ⟨h₉, ht⟩ => ?_
  refine (ends_zeroedBuffer ht _ _).bind fun _ t ⟨h₁₀, ht⟩ => ?_
  refine ⟨ht, row, hrow, ?_⟩
  rw [h₁, h₂, h₃, h₄, h₅, h₆, h₇, h₈, h₉, h₁₀]
  rfl

theorem ends_runLayers {p : Pass R} (hknows : Knows f p.machine p.model) (h : f.At own none s)
    (hown : chargeName ∈ own) (tokenId : Nat) :
    Ends (p.runLayers tokenId) s (fun l t => f.At own none t ∧ RanAll f p tokenId l)
      (fun _ t => f.At own none t) fun _ _ => True := by
  have hworkspace : Keeps (f.At own none)
      (embeddingWorkspaceBytes p.model p.model.config.embeddingLength) := by
    refine (Keeps.okOr _ _).bind fun _ => ?_
    split
    · exact .pure _
    · split
      · exact .pure _
      · exact ReadsKeep.keeps_rowBytesFor _ _
  unfold Pass.runLayers
  refine (ends_keeps hworkspace h).bind fun _ t ht => ?_
  refine (ends_keeps (keeps_ensureLayerCacheHeadroom _) ht).bind fun _ t ht => ?_
  refine (ends_activations hknows ht tokenId).bind fun acts t ⟨ht, row, hrow, hacts⟩ => ?_
  refine (ends_keeps (keeps_onHost (ReadsKeep.reserveBuffer _)) ht).bind fun _ t ht => ?_
  refine (ends_keeps (keeps_onHost (ReadsKeep.reserveBuffer _)) ht).bind fun _ t ht => ?_
  refine (ends_keeps (keeps_settle p hown _) ht).bind fun _ t ht => ?_
  refine (Exec.Ends.foldlM_rounds (I := f.At own none) (R := Ran f p) ht fun l i _ s hs =>
    ends_runLayer hknows hs hown l i).bind fun l t ⟨ht, hrounds⟩ => ?_
  refine (ends_keeps (keeps_onOwn hown (settle_apart _ _ _ l.staged)) ht).bind fun _ t ht => ?_
  rw [hacts] at hrounds
  exact ⟨ht, row, hrow, hrounds⟩

end layers

end ForwardPass
end Ramforge

/-!
The commit of a token: the keys and values of all layers, or of none.
-/

namespace Ramforge

open Rust Rust.Exec

theorem ComputeDispatch.keeps_tensorF32View {σ R : Type} [F32 R] [Zero R] [Sub R] [Mul R]
    {I : σ → Prop} (tensor : TensorData R) : Keeps I (tensorF32View tensor) := by
  unfold tensorF32View
  split
  · exact .pure _
  · exact tensor.keeps_toF32Vec.mapErr _

/-! ## What a layer leaves in the buffers of its key and its value -/

namespace ModelExecutor

open Activations

variable {R : Type} [Zero R] [One R] [Add R] [Sub R] [Neg R] [Mul R] [Div R] [F32 R] [F32Math R]
  [F32Rotation R]

/-- The dimension of a key and of a value. -/
def kvDim (cfg : LlamaConfig R) : Nat := cfg.headCountKv * cfg.headDim

/-- The buffers of the key and the value have their dimension. -/
def KvSized (cfg : LlamaConfig R) (a : Activations R) : Prop :=
  a.kTmp.length = kvDim cfg ∧ a.vTmp.length = kvDim cfg

variable {machine : Machine} {cfg : LlamaConfig R} {layer : StreamingLayerWeights R}
  {layerIdx pos : Nat} {kv : KvCache R} {a a' : Activations R}

omit [One R] [Neg R] [F32Rotation R] in
/-- The attention looks at its key and its value only if they have their dimension. -/
theorem ends_attentionChecked {build : Build} {σ : Type} {q kHist vHist kNew vNew : List R}
    {histLen nHeads nKvHeads headDim : Nat} (s : σ) :
    Ends (attentionChecked build q kHist vHist kNew vNew histLen nHeads nKvHeads headDim) s
      (fun _ t => t = s ∧ kNew.length = nKvHeads * headDim ∧ vNew.length = nKvHeads * headDim)
      (fun _ _ => True) fun _ _ => True := by
  unfold attentionChecked Compute.attentionReference
  simp only [ends_mapErr, ends_bind, ends_failIf, ends_okOr, ends_onLocal]
  refine ⟨fun _ => trivial, fun _ => ⟨fun _ => trivial, fun _ => ⟨fun _ => trivial,
    fun kvWidth hwidth => ⟨fun _ => trivial, fun _ _ => ⟨fun _ => trivial, fun _ _ =>
      ⟨fun _ => trivial, fun hshape => ⟨fun _ => trivial, fun _ _ => ?_⟩⟩⟩⟩⟩⟩⟩
  obtain ⟨-, rfl⟩ := checkedMul_eq_some.mp hwidth
  unfold Ends
  split
  · exact ⟨rfl, by omega, by omega⟩
  · trivial
  · trivial

omit [One R] [Neg R] [F32Rotation R] in
theorem ends_attendHistory (a : Activations R) :
    Ends (attendHistory machine cfg layerIdx kv) a (fun _ a' => KvSized cfg a') (fun _ _ => True)
      fun _ _ => True := by
  unfold attendHistory
  simp only [ends_bind, ends_resume, ends_self]
  refine ⟨fun kHistory _ => ⟨fun vHistory _ => ?_, fun _ _ => trivial, fun _ _ => trivial⟩,
    fun _ _ => trivial, fun _ _ => trivial⟩
  refine (ends_attentionChecked a).mono (fun out t ht => ?_) (fun _ _ h => h) fun _ _ h => h
  rw [ht.1]
  exact ht.2

section keeps

variable {ε α : Type}

omit [Zero R] [One R] [Add R] [Sub R] [Neg R] [Mul R] [Div R] [F32 R] [F32Math R] [F32Rotation R] in
/-- A call on other buffers. -/
theorem keeps_onPart {β : Type} {get : Activations R → β} {put : β → Activations R → Activations R}
    (m : Exec β ε α) (hk : ∀ x a, (put x a).kTmp = a.kTmp) (hv : ∀ x a, (put x a).vTmp = a.vTmp) :
    Keeps (KvSized cfg) (onPart get put m) := by
  intro a ha
  rw [onPart_run]
  refine ⟨?_, ?_⟩
  · rw [hk]
    exact ha.1
  · rw [hv]
    exact ha.2

end keeps

omit [One R] [Sub R] [Neg R] [Mul R] [Div R] [F32 R] [F32Math R] [F32Rotation R] [Zero R] in
theorem keeps_addResidual (part : Activations R → List R) :
    Keeps (KvSized cfg) (addResidual part) :=
  Keeps.self.bind fun _ => (keeps_onPart _ (by intros; rfl) (by intros; rfl)).bind fun _ =>
    Keeps.self.bind fun _ => (Keeps.expect _ _).bind fun _ => fun _ ha => ha

omit [One R] [Neg R] in
theorem keeps_normalize (name : String) (norm : TensorData R) :
    Keeps (KvSized cfg) (normalize cfg layerIdx name norm) :=
  Keeps.bind ((ComputeDispatch.keeps_tensorF32View norm).mapErr _) fun _ => Keeps.self.bind
    fun _ => keeps_onPart _ (by intros; rfl) (by intros; rfl)

theorem keeps_feedForward : Keeps (KvSized cfg) (feedForward machine cfg layer layerIdx) :=
  (keeps_normalize _ _).bind fun _ => Keeps.self.bind fun _ =>
    (keeps_onPart _ (by intros; rfl) (by intros; rfl)).bind fun _ =>
      (keeps_onPart _ (by intros; rfl) (by intros; rfl)).bind fun _ => Keeps.self.bind fun _ =>
        (keeps_onPart _ (by intros; rfl) (by intros; rfl)).bind fun _ => Keeps.self.bind fun _ =>
          (keeps_onPart _ (by intros; rfl) (by intros; rfl)).bind fun _ => Keeps.self.bind fun _ =>
            keeps_onPart _ (by intros; rfl) (by intros; rfl)

/-- A layer that has run leaves a key and a value of their dimension. -/
theorem executeLayer_sized (h : executeLayer machine cfg layer layerIdx pos kv a = (.ok (), a')) :
    KvSized cfg a' := by
  obtain ⟨_, a₁, -, h⟩ := of_bind_ok h
  obtain ⟨_, a₂, -, h⟩ := of_bind_ok h
  obtain ⟨_, a₃, -, h⟩ := of_bind_ok h
  obtain ⟨attnOut, a₄, hattend, h⟩ := of_bind_ok h
  have hsized := (ends_attendHistory a₃).of_ok hattend
  have hrest : Keeps (KvSized cfg) ((do
      onAttnProj (ComputeDispatch.matvecBackend machine.backend layer.attnOutput attnOut)
      addResidual Activations.attnProj
      feedForward machine cfg layer layerIdx
      addResidual Activations.ffnOut) : Exec (Activations R) String Unit) :=
    (keeps_onPart _ (by intros; rfl) (by intros; rfl)).bind fun _ => (keeps_addResidual _).bind fun _ =>
      keeps_feedForward.bind fun _ => keeps_addResidual _
  have hleft := hrest a₄ hsized
  rw [h] at hleft
  exact hleft

end ModelExecutor

/-! ## One token in all layers -/

namespace KvCache

variable {α : Type}

/-- `rows` with the vectors of the first `n` layers at position `p`. -/
def recordFirst (rows : Nat → Nat → Option (List α)) (p n : Nat) (vectors : List (List α)) :
    Nat → Nat → Option (List α) :=
  fun layer q => if q = p ∧ layer < n then vectors[layer]? else rows layer q

theorem record_recordFirst (rows : Nat → Nat → Option (List α)) (p : Nat) {n : Nat}
    (vectors : List (List α)) {v : List α} (hn : vectors[n]? = some v) :
    record (recordFirst rows p n vectors) n p v = recordFirst rows p (n + 1) vectors := by
  funext layer q
  unfold record recordFirst
  by_cases hq : q = p
  · rcases Nat.lt_trichotomy layer n with hl | rfl | hl
    · simp [hq, hl, Nat.ne_of_lt hl, Nat.lt_succ_of_lt hl]
    · simp [hq, hn]
    · simp [hq, Nat.ne_of_gt hl, Nat.not_lt.mpr (Nat.le_of_lt hl), Nat.not_lt.mpr (Nat.succ_le_of_lt hl)]
  · simp [hq]

theorem recordFirst_zero (rows : Nat → Nat → Option (List α)) (p : Nat) (vectors : List (List α)) :
    recordFirst rows p 0 vectors = rows := by
  funext layer q
  exact if_neg fun h => Nat.not_lt_zero _ h.2

end KvCache

/-- The history with the rows of the first `n` layers at its position. -/
def KvHistory.recorded {α : Type} (h : KvHistory α) (n : Nat) (rows : List (List α × List α)) :
    KvHistory α where
  position := h.position
  kRows := KvCache.recordFirst h.kRows h.position n (rows.map Prod.fst)
  vRows := KvCache.recordFirst h.vRows h.position n (rows.map Prod.snd)

/-- The history with one more position, which has the rows of the layers in order. -/
def KvHistory.token {α : Type} (h : KvHistory α) (rows : List (List α × List α)) : KvHistory α :=
  { h.recorded rows.length rows with position := h.position + 1 }

theorem KvHistory.after_recorded {α : Type} (h : KvHistory α) {n : Nat} {rows : List (List α × List α)}
    {row : List α × List α} (hn : rows[n]? = some row) :
    (h.recorded n rows).after (.append n row.1 row.2) = h.recorded (n + 1) rows := by
  have hk := KvCache.record_recordFirst h.kRows h.position (n := n)
    (rows.map Prod.fst) (v := row.1) (by rw [List.getElem?_map, hn]; rfl)
  have hv := KvCache.record_recordFirst h.vRows h.position (n := n)
    (rows.map Prod.snd) (v := row.2) (by rw [List.getElem?_map, hn]; rfl)
  show KvHistory.mk _ _ _ = KvHistory.mk _ _ _
  rw [← hk, ← hv]
  rfl

namespace KvCache

variable {α : Type} [Zero α] {c : KvCache α} {h : KvHistory α}

/-- With room for a position the rows of all layers fit. -/
theorem appendAll_run (rows done rest : List (List α × List α)) (hdone : rows = done ++ rest)
    (hst : Stores c (h.recorded done.length rows)) (hroom : c.seqLen < c.maxSeqLen)
    (hlayers : rows.length ≤ c.nLayers)
    (hrows : ∀ row ∈ rest, row.1.length = c.nKvHeads * c.headDim ∧
      row.2.length = c.nKvHeads * c.headDim) :
    ∃ kCaches vCaches, ((rest.zipIdx done.length).forM fun row => append row.2 row.1.1 row.1.2) c =
        (.ok (), { c with kCaches, vCaches }) ∧
      Stores { c with kCaches, vCaches } (h.recorded rows.length rows) := by
  induction rest generalizing c done with
  | nil =>
    rw [List.append_nil] at hdone
    rw [← hdone] at hst
    exact ⟨c.kCaches, c.vCaches, rfl, hst⟩
  | cons row rest ih =>
    obtain ⟨hrow, hrest⟩ := List.forall_mem_cons.mp hrows
    have hget : rows[done.length]? = some row := by
      rw [hdone, List.getElem?_append_right (Nat.le_refl _), Nat.sub_self]
      rfl
    have hlt : done.length < c.nLayers := by
      obtain ⟨hlt, -⟩ := List.getElem?_eq_some_iff.mp hget
      omega
    have hrun := append_run hst done.length row.1 row.2
    rw [if_pos ⟨hlt, hroom, hrow⟩, h.after_recorded hget] at hrun
    obtain ⟨kCaches, vCaches, happend, hst'⟩ := hrun
    have hlength : done.length + 1 = (done ++ [row]).length := by simp
    rw [hlength] at hst'
    obtain ⟨kCaches', vCaches', hall, hst''⟩ := ih (done ++ [row])
      (by rw [hdone, List.append_assoc]; rfl) hst' hroom hlayers hrest
    refine ⟨kCaches', vCaches', ?_, hst''⟩
    rw [List.zipIdx_cons, hlength]
    exact (bind_of_ok happend).trans hall

theorem incrementSeqLen_run (debugAssertions : Bool) (hst : Stores c h) (hroom : c.seqLen < c.maxSeqLen) :
    (incrementSeqLen debugAssertions : Exec _ String _) c = (.ok (), { c with seqLen := c.seqLen + 1 }) ∧
      Stores { c with seqLen := c.seqLen + 1 } { h with position := h.position + 1 } := by
  have hfits := hst.sized.elems_lt
  have hcapacity := Nat.le_mul_of_pos_right c.maxSeqLen (Nat.mul_pos hst.sized.heads hst.sized.dim)
  have hsum : checkedAdd c.seqLen 1 = some (c.seqLen + 1) := checkedAdd_of_lt (by omega)
  have hassert : (if debugAssertions ∧ ¬c.seqLen < c.maxSeqLen then none else some ()) = some () :=
    if_neg fun hno => hno.2 hroom
  refine ⟨?_, hst.sized, congrArg (· + 1) hst.seqLen_eq, hst.k, hst.v, hst.k_lt, hst.v_lt⟩
  rw [incrementSeqLen, self_bind_run]
  simp only [hassert, hsum, expect_some, pure_bind_run, modify_run]

end KvCache

namespace ForwardPass

variable {R : Type} [Zero R]

/-- The rows of the layers. -/
def Staged.rows (staged : Staged R) : List (List R × List R) := staged.k.zip staged.v

/-- A commit gives every layer its row, or leaves the cache as it was. -/
theorem commit_run {c : KvCache R} {h : KvHistory R} (hst : KvCache.Stores c h) (p : Pass R)
    {staged : Staged R} (hlayers : (Staged.rows staged).length = c.nLayers)
    (hrows : ∀ row ∈ Staged.rows staged, row.1.length = c.nKvHeads * c.headDim ∧
      row.2.length = c.nKvHeads * c.headDim) :
    (c.seqLen < c.maxSeqLen ∧ ∃ c', p.commit staged c = (.ok (), c') ∧
      KvCache.Stores c' (h.token (Staged.rows staged)) ∧ KvCache.SameShape c c' ∧
      c'.maxSeqLen = c.maxSeqLen) ∨
    (c.maxSeqLen ≤ c.seqLen ∧ ∃ e, p.commit staged c = (.err e, c)) := by
  unfold Pass.commit
  by_cases hroom : c.seqLen < c.maxSeqLen
  · have hstart : h.recorded 0 (Staged.rows staged) = h := by
      unfold KvHistory.recorded
      rw [KvCache.recordFirst_zero, KvCache.recordFirst_zero]
    obtain ⟨kCaches, vCaches, hall, hst'⟩ := KvCache.appendAll_run (h := h)
      (Staged.rows staged) [] (Staged.rows staged) rfl (by rw [List.length_nil, hstart]; exact hst) hroom
      (Nat.le_of_eq hlayers) hrows
    obtain ⟨hrun, hst''⟩ := KvCache.incrementSeqLen_run p.machine.debugAssertions hst' hroom
    exact .inl ⟨hroom, _, (bind_of_ok hall).trans hrun, hst'', ⟨rfl, rfl, rfl⟩, rfl⟩
  · have hpos := hst.sized.layers
    obtain ⟨row, rest, hcons⟩ := List.exists_cons_of_length_pos (hlayers.symm ▸ hpos)
    have hrun := KvCache.append_run hst 0 row.1 row.2
    rw [if_neg fun hall => hroom hall.2.1] at hrun
    obtain ⟨e, hrun⟩ := hrun
    refine .inr ⟨Nat.not_lt.mp hroom, e, bind_of_err ?_⟩
    change ((Staged.rows staged).zipIdx.forM fun row => KvCache.append row.2 row.1.1 row.1.2) c = _
    rw [hcons, List.zipIdx_cons]
    exact bind_of_err hrun

/-! ## The whole pass -/

variable [One R] [Add R] [Sub R] [Neg R] [Mul R] [Div R] [F32 R] [F32Math R] [F32Rotation R]
  {f : Standing R} {p : Pass R} {tokenId : Nat} {l : Locals R}

/-- Every layer has staged a key and a value of their dimension. -/
theorem RanAll.rows (h : RanAll f p tokenId l) :
    (Staged.rows l.staged).length = p.model.config.blockCount ∧
      ∀ row ∈ Staged.rows l.staged, row.1.length = ModelExecutor.kvDim p.model.config ∧
        row.2.length = ModelExecutor.kvDim p.model.config := by
  obtain ⟨row, -, hrounds⟩ := h
  let Filled (n : Nat) (l : Locals R) : Prop :=
    (l.staged.k.length = n ∧ l.staged.v.length = n) ∧
      (∀ k ∈ l.staged.k, k.length = ModelExecutor.kvDim p.model.config) ∧
      ∀ v ∈ l.staged.v, v.length = ModelExecutor.kvDim p.model.config
  have hstep : ∀ n b a b', Ran f p b a b' → Filled n b → Filled (n + 1) b' := by
    intro n b a b' hran ⟨⟨hk, hv⟩, hks, hvs⟩
    obtain ⟨kv, w, -, -, hrun, hstaged⟩ := hran
    have hsized := ModelExecutor.executeLayer_sized hrun
    show (b'.staged.k.length = _ ∧ _) ∧ _
    rw [hstaged]
    refine ⟨⟨by simp [Staged.with, hk], by simp [Staged.with, hv]⟩, fun k hmem => ?_, fun v hmem => ?_⟩
    · rcases List.mem_append.mp hmem with hold | hnew
      · exact hks k hold
      · rw [List.mem_singleton.mp hnew]
        exact hsized.1
    · rcases List.mem_append.mp hmem with hold | hnew
      · exact hvs v hold
      · rw [List.mem_singleton.mp hnew]
        exact hsized.2
  obtain ⟨⟨hk, hv⟩, hks, hvs⟩ := hrounds.keeps (I := Filled) hstep (n := 0)
    ⟨⟨rfl, rfl⟩, by simp, by simp⟩
  rw [List.length_range, Nat.zero_add] at hk hv
  refine ⟨by rw [Staged.rows, List.length_zip, hk, hv, Nat.min_self], fun row hmem => ?_⟩
  have hmem' := List.of_mem_zip hmem
  exact ⟨hks row.1 hmem'.1, hvs row.2 hmem'.2⟩

/-- A call that has run all layers and appended what they staged. -/
structure Advanced (f : Standing R) (machine : Machine) (model : StreamingLlamaModel R)
    (tokenId pos : Nat) (kv : KvCache R) (hidden : List R) (kv' : KvCache R) : Prop where
  position : pos = kv.seqLen
  shape : kv.nLayers = model.config.blockCount ∧ kv.nKvHeads = model.config.headCountKv ∧
    kv.headDim = model.config.headDim
  ran : ∃ sizes l, (forwardSizes model.config model.attnBiasPresent pos : Exec Unit String _) () =
      (.ok sizes, ()) ∧
    RanAll f { machine, model, pos, sizes } tokenId l ∧ l.acts.hidden = hidden ∧
    Pass.commit { machine, model, pos, sizes } l.staged kv = (.ok (), kv')

variable {machine : Machine} {model : StreamingLlamaModel R} {pos : Nat} {kv kv' : KvCache R}
  {hidden : List R} {hist : KvHistory R}

/-- The K/V cache has one more position, with a key and a value for each layer. -/
theorem Advanced.stores (h : Advanced f machine model tokenId pos kv hidden kv')
    (hst : KvCache.Stores kv hist) :
    ∃ rows, rows.length = kv.nLayers ∧
      (∀ row ∈ rows, row.1.length = kv.nKvHeads * kv.headDim ∧
        row.2.length = kv.nKvHeads * kv.headDim) ∧
      KvCache.Stores kv' (hist.token rows) ∧ KvCache.SameShape kv kv' ∧
      kv'.maxSeqLen = kv.maxSeqLen := by
  obtain ⟨hlayers, hheads, hdim⟩ := h.shape
  obtain ⟨sizes, l, -, hran, -, hcommit⟩ := h.ran
  obtain ⟨hlength, hrows⟩ := hran.rows
  have hrows' : ∀ row ∈ Staged.rows l.staged, row.1.length = kv.nKvHeads * kv.headDim ∧
      row.2.length = kv.nKvHeads * kv.headDim := by
    rw [hheads, hdim]
    exact hrows
  rcases commit_run hst { machine, model, pos, sizes } (hlength.trans hlayers.symm) hrows' with
    ⟨-, c', hrun, hst', hshape, hcapacity⟩ | ⟨-, e, hrun⟩
  · rw [hcommit] at hrun
    cases hrun
    exact ⟨_, hlength.trans hlayers.symm, hrows', hst', hshape, hcapacity⟩
  · rw [hcommit] at hrun
    cases hrun

end ForwardPass
end Ramforge
