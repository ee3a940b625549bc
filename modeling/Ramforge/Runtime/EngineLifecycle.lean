/-
The life of an inference engine: construction, any number of generations, and its drop.

Between two calls no layer is cached, the K/V cache and its charge come together, and all other
charges are those of the loaded weights.
-/
import Ramforge.Runtime.EngineStart
import Ramforge.Runtime.GenerationFrame
import Ramforge.Runtime.LoadedModel

namespace Ramforge

open Rust Rust.Exec GgufDataSource MemoryBudget ForwardPass Generation

theorem KvCache.keeps_accounted_newWithBudget {R : Type} [Zero R] (reserve : Ramforge.Reserve)
    (nLayers nKvHeads headDim maxSeqLen : Nat) (name : String) :
    Keeps Accounted (KvCache.newWithBudget (α := R) reserve nLayers nKvHeads headDim maxSeqLen name) := by
  refine (Keeps.ofResult _).bind fun l =>
    (Keeps.mapErr (fun b hb => (allocate_step hb _ _).accounted hb) _).bind fun _ => ?_
  split
  · exact .pure _
  · refine (Keeps.attempt fun b hb => (release_step hb _).accounted hb).bind fun r => ?_
    split
    · exact .throw _
    · exact .throw _

namespace InferenceEngine

open StreamingLlamaModel LayerLoad

variable {R S : Type} [F32 R] [Zero R] {source : GgufDataSource} {model : StreamingLlamaModel R}
  {base : MemoryBudget} {s t : InferenceEngine R S × MemoryBudget}

/-- The caches own their charges, and the other charges are those of `base`. -/
structure Kept (source : GgufDataSource) (model : StreamingLlamaModel R) (base : MemoryBudget)
    (s : InferenceEngine R S × MemoryBudget) : Prop where
  model_eq : s.1.model = model
  serves : OnHost (Serves source) s.1.host
  coherent : LayerCache.Coherent (s.1.cache, s.2)
  cached : ∀ (i : Nat) e, s.1.cache.entries[i]? = some e → LayerOf source.files model i e.value
  idle : Idle s.2
  kv : ∀ kv, s.1.kvCache = some kv → KvCache.Charged kvCharge (kv, s.2)
  charges : ∀ name, Plain name → name ≠ kvCharge → s.2.get name = base.get name

/-- The engine between two calls. -/
structure Ready (source : GgufDataSource) (model : StreamingLlamaModel R) (base : MemoryBudget)
    (s : InferenceEngine R S × MemoryBudget) : Prop extends Kept source model base s where
  empty : s.1.cache.entries = ∅
  paired : s.1.kvCache = none → s.2.get kvCharge = none

namespace Kept

/-- A step that changes the charge of the K/V cache only. -/
theorem of_apart (h : Kept source model base s) (hmodel : t.1.model = s.1.model)
    (hhost : t.1.host = s.1.host) (hcache : t.1.cache = s.1.cache)
    (hb : Apart (· = kvCharge) s.2 t.2)
    (hkv : ∀ kv, t.1.kvCache = some kv → KvCache.Charged kvCharge (kv, t.2)) :
    Kept source model base t := by
  have hother : ∀ name, ¬Plain name → t.2.get name = s.2.get name := fun name hname =>
    hb.get_eq name fun he => hname (he ▸ plain_kvCharge)
  refine ⟨hmodel.trans h.model_eq, hhost ▸ h.serves,
    h.coherent.of_frame hcache hb.accounted fun name hall => hother name fun hp => ?_,
    hcache ▸ h.cached, idle_iff.mpr fun name hunder => ?_, hkv, fun name hplain hne => ?_⟩
  · rw [hp.cache] at hall
    cases hall
  · rw [hother name fun hp => ?_]
    · exact idle_iff.mp h.idle name hunder
    · rw [hp.layer] at hunder
      cases hunder
  · rw [hb.get_eq name hne]
    exact h.charges name hplain hne

/-- The layer cache is emptied, and gives its charges back. -/
theorem ends_clear {E : String → InferenceEngine R S × MemoryBudget → Prop}
    {P : String → InferenceEngine R S × MemoryBudget → Prop} (h : Kept source model base s) :
    Ends (onLayerCache clearLayerCache) s
      (fun _ t => Kept source model base t ∧ t.1.cache.entries = ∅ ∧ t.1.kvCache = s.1.kvCache ∧
        t.2.get kvCharge = s.2.get kvCharge) E P := by
  have hrun : clearLayerCache (s.1.cache, s.2) =
      (.ok (), LayerCache.evictOldest s.1.cache.lru.length (s.1.cache, s.2)) := by
    unfold clearLayerCache
    rw [bind_of_ok (LayerCache.clear_run h.coherent)]
    rfl
  have hget : ∀ name, Text.startsWith name LayerCache.allPrefix = false →
      (LayerCache.evictOldest s.1.cache.lru.length (s.1.cache, s.2)).2.get name = s.2.get name :=
    fun name hname => LayerCache.dropLayers_get h.coherent _ hname
  have hcoherent := LayerCache.evictOldest_coherent h.coherent s.1.cache.lru.length
  obtain ⟨-, -, hempty⟩ := LayerCache.evictOldest_all h.coherent (Nat.le_refl s.1.cache.lru.length)
  rw [onLayerCache, ends_onPart, ends_of_ok hrun]
  refine ⟨⟨h.model_eq, h.serves, hcoherent, fun i e he => ?_, idle_iff.mpr fun name hunder => ?_,
    fun kv hkv => (h.kv kv hkv).of_same hcoherent.accounted (hget _ plain_kvCharge.cache),
    fun name hplain hne => (hget name hplain.cache).trans (h.charges name hplain hne)⟩, hempty, rfl,
    hget _ plain_kvCharge.cache⟩
  · have he' : (LayerCache.evictOldest s.1.cache.lru.length (s.1.cache, s.2)).1.entries[i]? = some e := he
    rw [hempty] at he'
    simp at he'
  · exact (hget name (not_cache_of_layer hunder)).trans (idle_iff.mp h.idle name hunder)

/-- The K/V cache is dropped and its charge is given back, whichever of the two are there. -/
theorem ends_clearKvCache {ε : Type} {E : ε → InferenceEngine R S × MemoryBudget → Prop}
    {P : String → InferenceEngine R S × MemoryBudget → Prop} (h : Kept source model base s) :
    Ends clearKvCache s
      (fun _ t => Kept source model base t ∧ t.1.cache = s.1.cache ∧ t.1.kvCache = none ∧
        t.2.get kvCharge = none) E P := by
  unfold clearKvCache
  simp only [ends_bind, ends_self, ends_modify]
  cases hcharge : s.2.get kvCharge with
  | none =>
    have hnone : s.1.kvCache = none := by
      cases hkv : s.1.kvCache with
      | none => rfl
      | some kv =>
        have hsome := (h.kv kv hkv).charge
        rw [hcharge] at hsome
        cases hsome
    have hcond : ¬(s.1.kvCache.isSome = true ∧ ¬(none : Option Nat).isSome = true) := by
      simp [hnone]
    rw [if_neg hcond, ends_expect]
    refine ⟨by rintro ⟨⟩, fun _ _ => ?_⟩
    exact ⟨h.of_apart rfl rfl rfl ⟨h.coherent.accounted, fun _ _ => rfl⟩ (by rintro kv ⟨⟩), rfl, rfl,
      hcharge⟩
  | some bytes =>
    have hcond : ¬(s.1.kvCache.isSome = true ∧ ¬(some bytes).isSome = true) := by simp
    rw [if_neg hcond, ends_expect]
    refine ⟨by rintro ⟨⟩, fun _ _ => ?_⟩
    have hrelease : MemoryBudget.release kvCharge s.2 = (.ok bytes, s.2.discharge kvCharge bytes) := by
      rw [release_run h.coherent.accounted, hcharge]
    have hacc := accounted_discharge h.coherent.accounted hcharge
    simp only [Option.isSome_some, if_true]
    rw [ends_bind, ends_orPanic, ends_onSnd, ends_of_ok hrelease, ends_pure]
    refine ⟨h.of_apart rfl rfl rfl ⟨hacc, fun name hne => ?_⟩ (by rintro kv ⟨⟩), rfl, rfl, ?_⟩
    · rw [get_discharge, if_neg hne]
    · rw [get_discharge, if_pos rfl]

/-- A new K/V cache has its charge; a refused one has none. -/
theorem ends_newKvCache {P : String → InferenceEngine R S × MemoryBudget → Prop}
    (h : Kept source model base s) (hnone : s.1.kvCache = none) (cfg : LlamaConfig R)
    (promptLen : Nat) :
    Ends (newKvCache cfg promptLen) s
      (fun kv t => (Kept source model base t ∧ t.1.kvCache = none) ∧ KvCache.Charged kvCharge (kv, t.2))
      (fun _ t => Kept source model base t) P := by
  obtain ⟨reserve, hreserve⟩ : ∃ reserve, (nextKvReserve cfg.blockCount : Exec Host String _) s.1.host =
      (.ok reserve, (s.1.host.1.drop (2 + 2 * cfg.blockCount), s.1.host.2)) := ⟨_, rfl⟩
  obtain ⟨hkept, hcharged⟩ := KvCache.newWithBudget_kept (α := R) reserve cfg.blockCount
    cfg.headCountKv cfg.headDim promptLen kvCharge h.coherent.accounted
  unfold newKvCache
  simp only [ends_bind, ends_onFst, ends_onPart, ends_mapErr, ends_onSnd]
  rw [ends_of_ok hreserve]
  have hplace : ∀ b : MemoryBudget, b.Accounted → (∀ name, name ≠ kvCharge → b.get name = s.2.get name) →
      Kept source model base ({ s.1 with
        host := (s.1.host.1.drop (2 + 2 * cfg.blockCount), s.1.host.2) }, b) := by
    intro b hacc hget
    have hleft := h.of_apart (t := (s.1, b)) rfl rfl rfl ⟨hacc, hget⟩ (by simp [hnone])
    exact ⟨hleft.model_eq, hleft.serves, hleft.coherent, hleft.cached, hleft.idle, hleft.kv, hleft.charges⟩
  unfold Ends
  rcases hrun : (KvCache.newWithBudget reserve cfg.blockCount cfg.headCountKv cfg.headDim promptLen kvCharge
    s.2 : Outcome String (KvCache R) × MemoryBudget) with ⟨kv | e | p, b⟩ <;> rw [hrun] at hkept
  · have hkv := hcharged kv b hrun
    obtain ⟨bytes, -, halloc⟩ := hkept.charge kv rfl
    refine ⟨⟨hplace b hkv.accounted fun name hne => ?_, hnone⟩, hkv⟩
    show b.allocations[name]? = _
    rw [show b.allocations = s.2.allocations.insert kvCharge bytes from halloc,
      MapSum.getElem?_insert', if_neg hne]
    rfl
  · have hacc := KvCache.keeps_accounted_newWithBudget (R := R) reserve cfg.blockCount cfg.headCountKv
      cfg.headDim promptLen kvCharge s.2 h.coherent.accounted
    rw [hrun] at hacc
    refine hplace b hacc fun name _ => ?_
    show b.allocations[name]? = _
    rw [show b.allocations = s.2.allocations from (hkept.atomic e rfl).1]
    rfl
  · exact absurd rfl (hkept.no_panic p)

end Kept

variable {α : Type}

omit [F32 R] [Zero R] in
@[simp] theorem ends_generating {kv : KvCache R} {stats : ResidencyStats} {m : Generating R α}
    {Q : α × ForwardState R → InferenceEngine R S × MemoryBudget → Prop}
    {E : String → InferenceEngine R S × MemoryBudget → Prop}
    {P : String → InferenceEngine R S × MemoryBudget → Prop} :
    Ends (generating kv stats m) s Q E P ↔
      let left (t : GenerationState R × MemoryBudget) : InferenceEngine R S × MemoryBudget :=
        ({ s.1 with host := t.1.forward.host, cache := t.1.forward.cache, heard := t.1.heard }, t.2)
      Ends m ({ forward := { stats, cacheStats := .new, host := s.1.host, cache := s.1.cache, kv }
                heard := [] }, s.2)
        (fun a t => Q (a, t.1.forward) (left t)) (fun e t => E e (left t)) fun p t => P p (left t) := by
  unfold Ends generating
  rcases m ({ forward := { stats, cacheStats := .new, host := s.1.host, cache := s.1.cache, kv }
              heard := [] }, s.2) with ⟨_ | _ | _, _⟩ <;> rfl

/-! ## One generation -/

omit [F32 R] in
theorem keeps_samplerScratchBytes [One R] [LinearOrder R] {σ : Type} {I : σ → Prop}
    (sampler : Sampler R) (vocab : Nat) : Keeps I (samplerScratchBytes sampler vocab) := by
  unfold samplerScratchBytes
  split
  · refine (Keeps.okOr _ _).bind fun _ => ?_
    simp only
    split
    · exact (Keeps.okOr _ _).bind fun _ => .okOr _ _
    · exact Keeps.bind (.pure _) fun _ => .okOr _ _
  · exact .pure _

omit [F32 R] [Zero R] in
theorem keeps_checkIntegrity {I : InferenceEngine R S × MemoryBudget → Prop} (request : Request R)
    (tokenizer : Tokenizer S) (text : List Char) (tokens : List UInt32) :
    Keeps I (checkIntegrity request tokenizer text tokens) := by
  unfold checkIntegrity
  split
  · exact Keeps.self.bind fun _ => (Keeps.expect _ _).bind fun _ => (Keeps.resume _).bind fun _ =>
      .expect _ _
  · exact .pure _

section generate

variable [One R] [Add R] [Sub R] [Neg R] [Mul R] [Div R] [F32Math R] [F32Rotation R]
  [LinearOrder R] [F32Exp R] [Score S]

/-- A generation that fails may leave the charge of its K/V cache. -/
theorem Kept.ends_generateImpl (htiled : Tiled source.files) (hplanned : Planned model)
    (h : Kept source model base s) (hnone : s.1.kvCache = none) (request : Request R) :
    Ends (generateImpl request) s (fun _ t => Kept source model base t ∧ t.1.kvCache.isSome)
      (fun _ t => Kept source model base t) fun _ _ => True := by
  unfold generateImpl
  simp only [ends_bind, ends_self, ends_failIf, ends_okOr]
  refine ⟨fun _ => h, fun _ => ⟨fun _ => h, fun neededLen _ => ⟨fun _ => h, fun _ => ?_⟩⟩⟩
  refine (h.ends_newKvCache (P := fun _ _ => True) hnone _ _).mono (fun kv t ht => ?_)
    (fun _ _ ht => ht) fun _ _ _ => trivial
  obtain ⟨ht, hkv⟩ := ht
  refine ⟨fun _ => ht.1, fun logitsBytes _ => ⟨fun _ => ht.1, fun hiddenBytes _ => ?_⟩⟩
  have hscratch : Keeps (fun u : InferenceEngine R S × MemoryBudget =>
      (Kept source model base u ∧ u.1.kvCache = none) ∧ KvCache.Charged kvCharge (kv, u.2))
      (samplerScratchBytes request.sampler s.1.model.config.vocabSize) := keeps_samplerScratchBytes _ _
  refine (hscratch.ends ⟨ht, hkv⟩).mono (fun samplerScratch u hu => ?_)
    (fun _ _ hu => hu.1.1) fun _ _ _ => trivial
  obtain ⟨⟨hu, hnone⟩, hkv⟩ := hu
  rw [h.model_eq]
  let g : Generation R S :=
    { machine := request.machine
      model
      tokenizer := s.1.tokenizer
      sampler := request.sampler
      draws := request.draws
      onText := request.onText
      promptTokens := s.1.tokenizer.encode request.prompt true
      maxTokens := request.maxTokens
      neededLen
      samplerScratch }
  have hgenerate : Retains (fun v : GenerationState R × MemoryBudget =>
      Underway source model base (v.1.forward, v.2)) (do
        let l ← g.run hiddenBytes logitsBytes
        let finished ← decoding (TokenDecoder.finish g.tokenizer l.decoder)
        let text ← g.emit finished.1 l.generatedText
        return (l, text)) := by
    refine (retains_run (g := g) htiled hplanned hiddenBytes logitsBytes).bind fun l =>
      (Retains.resume _).bind fun r => ?_
    exact (retains_emit r.1 l.generatedText).bind fun _ => .pure _
  rw [ends_generating]
  refine (hgenerate _ ⟨⟨hu.coherent, hu.idle, hu.serves, hu.cached⟩, hkv, hu.charges⟩).mono ?_ ?_
    fun _ _ _ => trivial
  · intro r v hv
    have hsound := hv.sound
    have hchecked : Keeps (fun w : InferenceEngine R S × MemoryBudget =>
        Kept source model base w ∧ w.1.kvCache.isSome)
        (checkIntegrity request s.1.tokenizer r.2 r.1.generatedTokens) := keeps_checkIntegrity _ _ _ _
    refine (hchecked.ends ?_).mono (fun _ w hw => hw) (fun _ w hw => hw.1) fun _ _ _ => trivial
    refine ⟨⟨hu.model_eq, hsound.serves, hsound.coherent, hsound.cached, hsound.idle, fun kv' hkv' => ?_,
      hv.charges⟩, rfl⟩
    cases hkv'
    exact hv.kv
  · intro e v hv
    have hsound := hv.sound
    refine ⟨hu.model_eq, hsound.serves, hsound.coherent, hsound.cached, hsound.idle, fun kv' hkv' => ?_,
      hv.charges⟩
    cases hnone.symm.trans hkv'

/-- Between two calls the engine is ready, however the last one has returned.  One that has failed
leaves no K/V cache. -/
theorem Ready.ends_generateWithCallback (htiled : Tiled source.files) (hplanned : Planned model)
    (h : Ready source model base s) (request : Request R) :
    Ends (generateWithCallback request) s (fun _ t => Ready source model base t)
      (fun _ t => Ready source model base t ∧ t.1.kvCache = none) fun _ _ => True := by
  unfold generateWithCallback
  refine h.toKept.ends_clearKvCache.bind fun _ s₁ hcleared => ?_
  obtain ⟨h₁, -, hnone, -⟩ := hcleared
  refine h₁.ends_clear.bind fun _ s₂ hcleared => ?_
  obtain ⟨h₂, -, hkv, -⟩ := hcleared
  rw [ends_bind, ends_attempt]
  refine (h₂.ends_generateImpl htiled hplanned (hkv.trans hnone) request).mono (fun outcome u hu => ?_)
    (fun error u hu => ?_) fun _ _ _ => trivial
  · rw [ends_bind, ends_attempt]
    refine (hu.1.ends_clear (E := fun _ _ => False) (P := fun _ _ => False)).mono
      (fun _ v hcleared => ?_) (fun _ _ hf => hf.elim) fun _ _ hf => hf.elim
    obtain ⟨hv, hempty, hsame, -⟩ := hcleared
    simp only [Except.isOk, Except.toBool, if_true, ends_bind, ends_modify, ends_pure]
    refine ⟨⟨hv.model_eq, hv.serves, hv.coherent, hv.cached, hv.idle, hv.kv, hv.charges⟩, hempty,
      fun hgone => ?_⟩
    have hheld := hu.2
    rw [← hsame, show v.1.kvCache = none from hgone] at hheld
    cases hheld
  · rw [ends_bind, ends_attempt]
    refine (hu.ends_clear (E := fun _ _ => False) (P := fun _ _ => False)).mono
      (fun _ v hcleared => ?_) (fun _ _ hf => hf.elim) fun _ _ hf => hf.elim
    obtain ⟨hv, hempty, -, -⟩ := hcleared
    simp only [Except.isOk, Except.toBool, if_true, ends_bind, ends_modify]
    have hnoted : Kept source model base ({ v.1 with stats := v.1.stats.updateManaged v.2.used }, v.2) :=
      ⟨hv.model_eq, hv.serves, hv.coherent, hv.cached, hv.idle, hv.kv, hv.charges⟩
    refine (hnoted.ends_clearKvCache (E := fun _ _ => False) (P := fun _ _ => False)).mono
      (fun _ w hgone => ?_) (fun _ _ hf => hf.elim) fun _ _ hf => hf.elim
    obtain ⟨hw, hcache, hdropped, hcharge⟩ := hgone
    exact ⟨⟨hw, by rw [hcache]; exact hempty, fun _ => hcharge⟩, hdropped⟩

end generate

end InferenceEngine

/-! ## The end of a model -/

namespace StreamingLlamaModel

open LayerCache

variable {R : Type} {model : StreamingLlamaModel R} {cache : LayerCache (StreamingLayerWeights R)}
  {b : MemoryBudget}

theorem ends_checkPersistentCharges {κ : Type} {s : κ × MemoryBudget} {names : List String}
    {E : String → κ × MemoryBudget → Prop} {P : String → κ × MemoryBudget → Prop}
    (h : ∀ name ∈ names, (s.2.get name).isSome) :
    Ends (checkPersistentCharges names) s (fun _ t => t = s) E P := by
  induction names with
  | nil => rfl
  | cons name rest ih =>
    obtain ⟨hname, hrest⟩ := List.forall_mem_cons.mp h
    unfold checkPersistentCharges
    simp only [ends_bind, ends_self, ends_failIf]
    refine ⟨fun hgone => ?_, fun _ => ih hrest⟩
    rw [Option.isNone_iff_eq_none.mp hgone] at hname
    cases hname

/-- A release gives back the charges of the cached layers and of the weights, and no others. -/
theorem ends_releasePersistent {E : String → _ → Prop} {P : String → _ → Prop}
    (hcoherent : Coherent (cache, b)) (hidle : Idle b)
    (hnodup : model.persistentChargeNames.Nodup)
    (hheld : ∀ name ∈ model.persistentChargeNames, Plain name ∧ (b.get name).isSome) :
    Ends releasePersistent ((model, cache), b)
      (fun _ t => t.2.Accounted ∧ ∀ name, t.2.get name =
        if name ∈ model.persistentChargeNames ∨ Text.startsWith name allPrefix = true then none
        else b.get name) E P := by
  have hrun : clearLayerCache (cache, b) = (.ok (), evictOldest cache.lru.length (cache, b)) := by
    unfold clearLayerCache
    rw [bind_of_ok (clear_run hcoherent)]
    rfl
  have hclear := evictOldest_coherent hcoherent cache.lru.length
  obtain ⟨-, -, hempty⟩ := evictOldest_all hcoherent (Nat.le_refl cache.lru.length)
  rcases hleft : evictOldest cache.lru.length (cache, b) with ⟨cache', b'⟩
  rw [hleft] at hclear hempty hrun
  have hget : ∀ name, Text.startsWith name allPrefix = false → b'.get name = b.get name := by
    intro name hname
    have := dropLayers_get hcoherent ((lruOrder cache).take cache.lru.length) hname
    rw [show dropLayers _ (cache, b) = (cache', b') from hleft] at this
    exact this
  have hgone : ∀ name, Text.startsWith name allPrefix = true → b'.get name = none := by
    intro name hname
    by_contra hsome
    obtain ⟨i, e, he, -⟩ := hclear.covered name hname (Option.isSome_iff_ne_none.mpr hsome)
    rw [show cache'.entries = ∅ from hempty] at he
    simp at he
  have hnames : ∀ name ∈ model.persistentChargeNames, (b'.get name).isSome := fun name hmem => by
    rw [hget name (hheld name hmem).1.cache]
    exact (hheld name hmem).2
  have hidle' : b'.namesUnder "layer:" = [] := by
    refine idle_iff.mpr fun name hunder => ?_
    rw [hget name (not_cache_of_layer hunder)]
    exact idle_iff.mp hidle name hunder
  unfold releasePersistent
  rw [ends_bind, ends_onPart, ends_of_ok hrun]
  simp only [ends_bind, ends_self, ends_failIf]
  refine ⟨fun hlayers => absurd hidle' hlayers, fun _ => ?_⟩
  have hleft' : ∀ name, (dischargeAll model.persistentChargeNames b').get name =
      if name ∈ model.persistentChargeNames ∨ Text.startsWith name allPrefix = true then none
      else b.get name := by
    intro name
    rw [get_dischargeAll]
    by_cases hmem : name ∈ model.persistentChargeNames
    · simp [hmem]
    · by_cases hunder : Text.startsWith name allPrefix = true
      · simp [hmem, hunder, hgone name hunder]
      · simp [hmem, hunder, hget name (Bool.not_eq_true _ ▸ hunder)]
  have hacc := dischargeAll_accounted hclear.accounted hnodup hnames
  refine (ends_checkPersistentCharges hnames).mono (fun _ t ht => ?_) (fun _ _ he => he)
    fun _ _ hp => hp
  rw [ht]
  split
  next hnil =>
    rw [hnil] at hleft' hacc ⊢
    exact ⟨hacc, hleft'⟩
  next =>
    rw [ends_bind, ends_modify, ends_of_ok (releaseNames_run _ hclear.accounted hnodup hnames)]
    exact ⟨hacc, hleft'⟩

end StreamingLlamaModel
namespace InferenceEngine

open StreamingLlamaModel LayerLoad

variable {R S : Type} [F32 R] [Zero R] {source : GgufDataSource} {model : StreamingLlamaModel R}
  {b base : MemoryBudget} {s : InferenceEngine R S × MemoryBudget}

/-- `base` is `b` with the charges of the weights, and nothing is charged for a layer or a K/V
cache. -/
structure Weighed (model : StreamingLlamaModel R) (b base : MemoryBudget) : Prop where
  holds : Holds model.persistentChargeNames b base
  plain : ∀ name ∈ model.persistentChargeNames, Plain name ∧ name ≠ kvCharge
  noLayers : NoLayers b
  unused : b.get kvCharge = none

namespace Weighed

omit [F32 R] [Zero R] in
theorem of_loaded {cache : LayerCache (StreamingLayerWeights R)} {t : Host × MemoryBudget}
    [F32 R] (h : Loaded source b model cache t) (hnone : NoLayers b) (hunused : b.get kvCharge = none) :
    Weighed model b t.2 := by
  refine ⟨h.loads.holds, fun name hmem => ?_, hnone, hunused⟩
  obtain ⟨tensor, rfl⟩ := h.loads.named name hmem
  refine ⟨plain_weightCharge tensor, fun he => ?_⟩
  have hweight : Text.startsWith (weightCharge tensor) "weight:" = true := Text.startsWith_append _ _
  rw [he] at hweight
  exact absurd hweight (by decide)

omit [F32 R] [Zero R] in
/-- Without its weights, and with no layer cached, a budget is what it was before the load. -/
theorem restored (h : Weighed model b base) {b' b'' : MemoryBudget} (hidle : Idle b')
    (hcharges : ∀ name, Plain name → name ≠ kvCharge → b'.get name = base.get name)
    (hkv : b'.get kvCharge = none)
    (hleft : ∀ name, b''.get name = if name ∈ model.persistentChargeNames ∨
      Text.startsWith name LayerCache.allPrefix = true then none else b'.get name) :
    b''.allocations = b.allocations := by
  refine Std.ExtTreeMap.ext_getElem? fun name => ?_
  show b''.get name = b.get name
  rw [hleft]
  by_cases hmem : name ∈ model.persistentChargeNames
  · simp [hmem, h.holds.fresh name hmem]
  by_cases hcache : Text.startsWith name LayerCache.allPrefix = true
  · simp [hcache, h.noLayers.cached name hcache]
  by_cases hlayer : Text.startsWith name loadedPrefix = true
  · simp [hmem, hcache, idle_iff.mp hidle name hlayer, h.noLayers.loaded name hlayer]
  by_cases he : name = kvCharge
  · rw [he] at hmem hcache ⊢
    simp [hmem, hcache, hkv, h.unused]
  · have hplain : Plain name := ⟨Bool.not_eq_true _ ▸ hcache, Bool.not_eq_true _ ▸ hlayer⟩
    simp [hmem, hcache, hcharges name hplain he, h.holds.get_eq name hmem]

end Weighed

/-- A drop gives back everything, and does not panic. -/
theorem Kept.ends_dropEngine (h : Kept source model base s) (hweighed : Weighed model b base) :
    Ends dropEngine s (fun _ t => t.2.Accounted ∧ t.2.allocations = b.allocations) (fun _ _ => False)
      fun _ _ => False := by
  unfold dropEngine
  refine h.ends_clearKvCache.bind fun _ t ⟨ht, _, _, hkv⟩ => ?_
  rw [ends_orPanic, ends_onPart, ht.model_eq]
  refine (ends_releasePersistent ht.coherent ht.idle hweighed.holds.nodup fun name hmem => ?_).mono
    (fun _ u hu => ⟨hu.1, hweighed.restored ht.idle ht.charges hkv hu.2⟩) (fun _ _ he => he)
    fun _ _ hp => hp
  obtain ⟨hplain, hne⟩ := hweighed.plain name hmem
  refine ⟨hplain, ?_⟩
  show (t.2.get name).isSome
  rw [ht.charges name hplain hne]
  exact hweighed.holds.held name hmem

/-! ## Construction -/

section start

omit [Zero R]
variable [F32Narrow R] [FloatText] {cache : LayerCache (StreamingLayerWeights R)}
  {t : Host × MemoryBudget} {α : Type}

omit [F32 R] [F32Narrow R] [FloatText] in
theorem ends_rollBackModel {Q : α → Host × MemoryBudget → Prop} {P : String → Host × MemoryBudget → Prop}
    (h : Loaded source b model cache t) (hweighed : Weighed model b t.2) (what error : String) :
    Ends (rollBackModel what model cache error) t Q (fun _ u => Restored source b u) P := by
  obtain ⟨capacity, rfl⟩ := h.empty
  have hnone := h.loads.noLayers hweighed.noLayers
  have hacc := h.loads.holds.accounted
  have hkv : t.2.get kvCharge = none := by
    rw [h.loads.holds.get_eq kvCharge fun hmem => (hweighed.plain kvCharge hmem).2 rfl]
    exact hweighed.unused
  unfold rollBackModel
  rw [ends_bind, ends_onSnd, ends_withLocal, ends_orPanic]
  refine (ends_releasePersistent (E := fun _ _ => False) (P := fun _ _ => False)
    (hnone.coherent hacc capacity) hnone.idle h.loads.holds.nodup fun name hmem =>
      ⟨(hweighed.plain name hmem).1, h.loads.holds.held name hmem⟩).mono
    (fun _ u hu => ?_) (fun _ _ hf => hf.elim) fun _ _ hf => hf.elim
  exact ⟨h.loads.serves, hu.1, hweighed.restored hnone.idle (fun _ _ _ => rfl) hkv hu.2⟩

/-- The model is loaded, or its charges are rolled back. -/
theorem ends_startModel (htiled : Tiled source.files) (hserves : OnHost (Serves source) t.1)
    (hacc : t.2.Accounted) (hnone : NoLayers t.2) (hunused : t.2.get kvCharge = none)
    (env : Surroundings S) (ramBudgetBytes : Nat) (requestedConfig : Option RuntimeConfig) :
    Ends (startModel R env ramBudgetBytes requestedConfig) t
      (fun r u => Loaded source t.2 r.1.1 r.1.2 u) (fun _ u => Restored source t.2 u)
      fun p u => u = t ∧ LlamaConfig.fromGguf R t.1.2.2.model = .panic p := by
  unfold startModel
  rw [ends_bind, ends_mapErr]
  cases requestedConfig with
  | some config =>
    refine (ends_loadWithRuntimeConfig htiled hserves hacc config).mono (fun loaded u hu => ?_)
      (fun _ _ hu => hu) fun _ _ hp => hp
    simp only
    cases CpuBackend.tryWithThreads env config.cpuThreadCount with
    | error error => exact ends_rollBackModel hu (.of_loaded hu hnone hunused) _ error
    | ok backend => exact hu
  | none =>
    refine (ends_load htiled hserves hacc).mono (fun loaded u hu => ?_) (fun _ _ hu => hu) fun _ _ hp => hp
    have htotal : Outcome.Total (RuntimeConfig.currentDefaultsWithThreadCount (CpuBackend.new env).threadCount
        ramBudgetBytes loaded.2.capacityBytes) := by
      refine Outcome.Total.bind ?_ fun _ => Outcome.total_ok _
      exact (Outcome.total_failIf _ _).bind fun _ => (Outcome.total_failIf _ _).bind fun _ =>
        (Outcome.total_failIf _ _).bind fun _ => (Outcome.total_failIf _ _).bind fun _ =>
          Outcome.total_failIf _ _
    simp only
    cases hconfig : RuntimeConfig.currentDefaultsWithThreadCount (CpuBackend.new env).threadCount
        ramBudgetBytes loaded.2.capacityBytes with
    | ok config => exact hu
    | err error => exact ends_rollBackModel hu (.of_loaded hu hnone hunused) _ _
    | panic p => exact absurd hconfig (htotal p)

/-- What a construction leaves: a budget with the charges of the weights and no others. -/
structure Opened (source : GgufDataSource) (b : MemoryBudget) (e : InferenceEngine R S × MemoryBudget) :
    Prop where
  loaded : Loaded source b e.1.model e.1.cache (e.1.host, e.2)
  weighed : Weighed e.1.model b e.2
  fresh : e.1.kvCache = none

omit [F32 R] [F32Narrow R] [FloatText] in
@[simp] theorem ends_withBudget {host : Host} {budget : MemoryBudget} {m : Managed α}
    {Q : α × MemoryBudget → Host → Prop} {E : String → Host → Prop} {P : String → Host → Prop} :
    Ends (withBudget budget m) host Q E P ↔
      Ends m (host, budget) (fun a t => Q (a, t.2) t.1) (fun e t => E e t.1) fun p t => P p t.1 := by
  unfold Ends withBudget
  rcases m (host, budget) with ⟨_ | _ | _, _⟩ <;> rfl

/-- The construction panics on the configuration of the file only. -/
theorem ends_fromDataSourceInternal (htiled : Tiled source.files) {host : Host}
    (hserves : OnHost (Serves source) host) (env : Surroundings S) {ramBudgetBytes : Nat}
    (hram : ramBudgetBytes < u64Bound) (requestedConfig : Option RuntimeConfig) :
    Ends (fromDataSourceInternal R env ramBudgetBytes requestedConfig) host
      (fun built _ => ∃ b, MemoryBudget.new ramBudgetBytes = .ok b ∧
        Opened source b (built.engine, built.budget))
      (fun _ u => OnHost (Serves source) u)
      fun p u => u = host ∧ LlamaConfig.fromGguf R host.2.2.model = .panic p := by
  unfold fromDataSourceInternal
  simp only [ends_bind, ends_self, ends_resume, ends_ofResult]
  refine ⟨fun config hconfig => ⟨fun _ _ => hserves, fun tokenizer _ => ⟨fun _ _ => hserves,
    fun b hb => ?_⟩⟩, fun _ _ => hserves, fun p hp => ⟨trivial, hp⟩⟩
  have hnew : MemoryBudget.new ramBudgetBytes = .ok b := by
    cases hb' : MemoryBudget.new ramBudgetBytes with
    | ok b' =>
      rw [hb'] at hb
      cases hb
      rfl
    | error e =>
      rw [hb'] at hb
      cases hb
  obtain ⟨hacc, -, -, -, halloc⟩ := accounted_new hram hnew
  have hnone := noLayers_new hnew
  have hunused : b.get kvCharge = none := by
    rw [MemoryBudget.get, halloc]
    exact Std.ExtTreeMap.getElem?_empty
  rw [ends_withBudget]
  refine (ends_startModel htiled (t := (host, b)) hserves hacc hnone hunused env ramBudgetBytes
    requestedConfig).mono (fun r u hu => ?_) (fun _ u hu => hu.serves) fun p u hp => ?_
  · exact ⟨b, hnew, hu, .of_loaded hu hnone hunused, rfl⟩
  · rw [show LlamaConfig.fromGguf R host.2.2.model = .ok config from hconfig] at hp
    cases hp.2

end start

/-- A new engine is ready. -/
theorem Opened.ready (h : Opened source b s) : Ready source s.1.model s.2 s := by
  obtain ⟨capacity, hcache⟩ := h.loaded.empty
  have hnone := h.loaded.loads.noLayers h.weighed.noLayers
  refine ⟨⟨rfl, h.loaded.loads.serves, ?_, fun i e he => ?_, hnone.idle, fun kv hsome => ?_,
    fun _ _ _ => rfl⟩, ?_, fun _ => ?_⟩
  · rw [hcache]
    exact hnone.coherent h.loaded.loads.holds.accounted capacity
  · rw [hcache] at he
    simp [LayerCache.new] at he
  · rw [h.fresh] at hsome
    cases hsome
  · rw [hcache]
    rfl
  · rw [h.weighed.holds.get_eq kvCharge fun hmem => (h.weighed.plain kvCharge hmem).2 rfl]
    exact h.weighed.unused

/-! ## Any number of generations -/

/-- The states of an engine after generations that have returned, with an outcome or an error. -/
inductive Served [One R] [Add R] [Sub R] [Neg R] [Mul R] [Div R] [F32Math R] [F32Rotation R]
    [LinearOrder R] [F32Exp R] [Score S] (e : InferenceEngine R S × MemoryBudget) :
    InferenceEngine R S × MemoryBudget → Prop where
  | start : Served e e
  | generated {t u : InferenceEngine R S × MemoryBudget} {request : Request R}
      {result : Except String GenerationOutcome} (before : Served e t)
      (returned : (attempt (generateWithCallback request) : Method R S _) t = (.ok result, u)) : Served e u

/-- What a caller may rely on between two calls. -/
structure Settled (base : MemoryBudget) (s : InferenceEngine R S × MemoryBudget) : Prop where
  empty : s.1.cache.entries = ∅
  paired : (∃ kv bytes, s.1.kvCache = some kv ∧ kv.totalBytes = some bytes ∧
    s.2.get kvCharge = some bytes) ∨ s.1.kvCache = none ∧ s.2.get kvCharge = none
  charges : ∀ name, name ≠ kvCharge → s.2.get name = base.get name

theorem Ready.settled (h : Ready source model base s) (hnone : NoLayers base) : Settled base s := by
  refine ⟨h.empty, ?_, fun name hne => ?_⟩
  · cases hkv : s.1.kvCache with
    | none => exact .inr ⟨rfl, h.paired hkv⟩
    | some kv =>
      have hcharged := h.kv kv hkv
      exact .inl ⟨kv, _, rfl, hcharged.totalBytes, hcharged.charge⟩
  · by_cases hcache : Text.startsWith name LayerCache.allPrefix = true
    · rw [hnone.cached name hcache]
      by_contra hsome
      obtain ⟨i, e, he, -⟩ := h.coherent.covered name hcache (Option.isSome_iff_ne_none.mpr hsome)
      rw [show s.1.cache.entries = ∅ from h.empty] at he
      simp at he
    · by_cases hlayer : Text.startsWith name loadedPrefix = true
      · rw [hnone.loaded name hlayer]
        exact idle_iff.mp h.idle name hlayer
      · exact h.charges name ⟨Bool.not_eq_true _ ▸ hcache, Bool.not_eq_true _ ▸ hlayer⟩ hne

variable [One R] [Add R] [Sub R] [Neg R] [Mul R] [Div R] [F32Math R] [F32Rotation R]
  [LinearOrder R] [F32Exp R] [Score S]

theorem Served.ready {t : InferenceEngine R S × MemoryBudget} (htiled : Tiled source.files)
    (hplanned : Planned model) (h : Ready source model base s) (hserved : Served s t) :
    Ready source model base t := by
  induction hserved with
  | start => exact h
  | @generated t u request result before returned ih =>
    have hends := ih.ends_generateWithCallback htiled hplanned request
    rcases of_attempt_ok returned with ⟨a, -, hrun⟩ | ⟨e, -, hrun⟩
    · exact hends.of_ok hrun
    · exact (hends.of_err hrun).1

/-! ## The small file -/

def narrowMetadata : List (String × MetadataValue) :=
  [("general.architecture", .string "llama"), ("llama.vocab_size", .uInt32 2),
    ("llama.context_length", .uInt32 8), ("llama.embedding_length", .uInt32 2),
    ("llama.block_count", .uInt32 1), ("llama.feed_forward_length", .uInt32 2),
    ("llama.attention.head_count", .uInt32 1)]

/-- A layer as narrow as it can be: two tokens, one head, and every weight zero. -/
def narrowGguf : GgufModel where
  path := "/models/narrow.gguf"
  fileSize := 3168
  version := 3
  metadata := narrowMetadata.foldl (fun metadata (key, value) => metadata.insert key value) ∅
  tensors :=
    [Planner.sampleDescriptor "token_embd.weight" [2, 2] 0,
      Planner.sampleDescriptor "output_norm.weight" [2] 16,
      Planner.sampleDescriptor "blk.0.attn_norm.weight" [2] 24,
      Planner.sampleDescriptor "blk.0.attn_q.weight" [2, 2] 32,
      Planner.sampleDescriptor "blk.0.attn_k.weight" [2, 2] 48,
      Planner.sampleDescriptor "blk.0.attn_v.weight" [2, 2] 64,
      Planner.sampleDescriptor "blk.0.attn_output.weight" [2, 2] 80,
      Planner.sampleDescriptor "blk.0.ffn_norm.weight" [2] 96,
      Planner.sampleDescriptor "blk.0.ffn_gate.weight" [2, 2] 104,
      Planner.sampleDescriptor "blk.0.ffn_up.weight" [2, 2] 120,
      Planner.sampleDescriptor "blk.0.ffn_down.weight" [2, 2] 136]
  alignment := 32
  dataStartOffset := 0

def narrowHost : Host := Planner.sampleHost narrowGguf

/-- The first token stands at the start of every prompt. -/
def sampleTokenizer : Tokenizer (Option ℚ) where
  model := "llama"
  pre := none
  tokens := ["<s>".toList, "a".toList]
  scores := [some 0, some 0]
  tokenTypes := [.control, .normal]
  merges := none
  bosId := some 0
  eosId := none
  unkId := none
  padId := none
  addBos := true
  addEos := false
  tokenToId := []
  mergesRank := []
  byteTokens := []
  specialTokens := []

def sampleSurroundings : Surroundings (Option ℚ) where
  availableThreads := 1
  availableThreads_pos := Nat.one_pos
  avx2 := false
  globalPool := .inOrder
  buildPool _ := .ok .inOrder
  tokenizerFrom _ := .ok sampleTokenizer

/-- The greatest logit, and nothing refused. -/
def sampleRequest : Request ℚ where
  machine := sampleMachine
  prompt := []
  maxTokens := 2
  sampler := { temperature := 0, topK := none, topP := none }
  draws := { draw _ := 0, memory _ := .enough }
  onText _ _ := none

/-- No layer cache, and every tensor read on its own. -/
def plainConfig : RuntimeConfig where
  cpuThreadCount := 1
  ramBudgetBytes := 10000
  layerCacheEnabled := false
  layerCacheCapacityBytes := 0
  readCoalescingEnabled := false
  groupedReadBufferReuseEnabled := false
  executionDevice := .cpu

@[reducible] def levelExp : F32Exp ℚ := ⟨fun _ => 1⟩

def sampleBuild (config : Option RuntimeConfig) : Exec Host String (Built ℚ (Option ℚ)) :=
  @fromDataSourceInternal ℚ _ _ _ Planner.sampleText sampleSurroundings 10000 config

def sampleGenerate : Method ℚ (Option ℚ) GenerationOutcome :=
  @generateWithCallback ℚ (Option ℚ) _ _ _ _ _ _ _ _ levelMath levelRotation _ levelExp _ sampleRequest

deriving instance DecidableEq for LlamaConfig
deriving instance DecidableEq for QuantizedTensor
deriving instance DecidableEq for TensorData
deriving instance DecidableEq for PersistentWeight
deriving instance DecidableEq for StreamingLlamaModel
deriving instance DecidableEq for MemoryBudget
deriving instance DecidableEq for FileBytes
deriving instance DecidableEq for OpenFile
deriving instance DecidableEq for FileState
deriving instance DecidableEq for ShardSource

/-- The narrow model as a load leaves it. -/
def narrowModel (together : Bool) : StreamingLlamaModel ℚ where
  config :=
    { vocabSize := 2
      contextLength := 8
      embeddingLength := 2
      blockCount := 1
      feedForwardLength := 2
      headCount := 1
      headCountKv := 1
      headDim := 2
      rmsEps := F32.fromBits LlamaConfig.defaultRmsEpsBits
      ropeFreqBase := F32.fromBits LlamaConfig.defaultRopeFreqBaseBits }
  tokenEmbd := .resident (.f32 (List.replicate 4 0) [2, 2])
  outputNorm := .resident (.f32 (List.replicate 2 0) [2])
  output := none
  layerDescriptors := [⟨0, narrowGguf.tensors.drop 2⟩]
  persistentDescriptors :=
    { tokenEmbd := narrowGguf.tensors[0]?
      outputNorm := narrowGguf.tensors[1]?
      output := none }
  totalWeightBytes := 152
  quantizedWeightBytes := 0
  attnBiasPresent := false
  layerMemoryEstimates := [⟨128, 128⟩]
  groupedLayerMemoryEstimates := [⟨128, 256⟩]
  layerReadPlans := [⟨9, 128, 128, 0, [⟨24, 128, 128, 0,
    [⟨0, 0⟩, ⟨1, 8⟩, ⟨2, 24⟩, ⟨3, 40⟩, ⟨4, 56⟩, ⟨5, 72⟩, ⟨6, 80⟩, ⟨7, 96⟩, ⟨8, 112⟩]⟩]⟩]
  readCoalescingEnabled := together
  groupedReadBufferReuseEnabled := together
  persistentChargeNames := ["weight:token_embd.weight", "weight:output_norm.weight"]

def narrowBudget : MemoryBudget where
  total := 10000
  allocations := ((∅ : Std.ExtTreeMap String Nat).insert "weight:token_embd.weight" 16).insert
    "weight:output_norm.weight" 8
  used := 24
  peakUsed := 24

/-- The open file behind the output norm, the last tensor that a load reads. -/
def narrowShards : List ShardSource :=
  narrowHost.2.2.shards.map fun shard =>
    { shard with state := { file := { shard.state.file with cursor := 24 }, position := some 24 } }

/-- The engine over the narrow model; of the metadata a generation reads the start of the data. -/
def narrowEngine (gguf : GgufModel) (capacity : Nat) (together : Bool) :
    InferenceEngine ℚ (Option ℚ) where
  host := ([], [], { model := { gguf with dataStartOffset := 0 }, shards := narrowShards, fileSize := 3168 })
  tokenizer := sampleTokenizer
  model := narrowModel together
  cache := LayerCache.new capacity
  kvCache := none
  stats := .new
  cacheStats := .new
  heard := []

/-- The build has left what `narrowEngine` says. -/
def Narrow (capacity : Nat) (together : Bool) (built : Built ℚ (Option ℚ)) : Prop :=
  built.engine.model = narrowModel together ∧ built.budget = narrowBudget ∧
    built.engine.cache.capacityBytes = capacity ∧ built.engine.host.1.isEmpty = true ∧
      built.engine.host.2.1 = [] ∧ built.engine.host.2.2.shards = narrowShards ∧
        built.engine.host.2.2.fileSize = 3168 ∧ built.engine.host.2.2.model.dataStartOffset = 0

instance (capacity : Nat) (together : Bool) (built : Built ℚ (Option ℚ)) :
    Decidable (Narrow capacity together built) :=
  inferInstanceAs (Decidable (_ ∧ _))

/-- An engine that has been built has generated nothing. -/
theorem ends_sampleBuild (config : Option RuntimeConfig) (host : Host) :
    Ends (sampleBuild config) host (fun built left => built.engine = {
        host := left
        tokenizer := sampleTokenizer
        model := built.engine.model
        cache := built.engine.cache
        kvCache := none
        stats := .new
        cacheStats := .new
        heard := [] }) (fun _ _ => True) fun _ _ => True := by
  unfold sampleBuild fromDataSourceInternal
  simp only [ends_bind, ends_self, ends_resume, ends_ofResult]
  refine ⟨fun _ _ => ⟨fun _ _ => trivial, fun tokenizer htokenizer => ⟨fun _ _ => trivial,
    fun b _ => ?_⟩⟩, fun _ _ => trivial, fun _ _ => trivial⟩
  cases htokenizer
  exact (ends_any _ host).mono (fun _ _ _ => rfl) (fun _ _ _ => trivial) fun _ _ _ => trivial

theorem built_eq {config : Option RuntimeConfig} {left : Host} {built : Built ℚ (Option ℚ)}
    {capacity : Nat} {together : Bool} (hbuilt : sampleBuild config narrowHost = (.ok built, left))
    (h : Narrow capacity together built) :
    (built.engine, built.budget) =
      (narrowEngine (sampleBuild config narrowHost).2.2.2.model capacity together, narrowBudget) := by
  let _ := Planner.sampleText
  obtain ⟨hmodel, hbudget, hcapacity, hreserves, hanswers, hshards, hsize, hoffset⟩ := h
  obtain ⟨b, -, hopened⟩ := (ends_fromDataSourceInternal tiled_sampleHost serves_sampleHost
    sampleSurroundings (by decide : 10000 < u64Bound) config).of_ok hbuilt
  obtain ⟨capacity', hcache⟩ := hopened.loaded.empty
  rw [hcache] at hcapacity
  have hengine := (ends_sampleBuild config narrowHost).of_ok hbuilt
  rw [hmodel, hcache, show capacity' = capacity from hcapacity] at hengine
  have hhost : built.engine.host = left := by rw [hengine]
  rw [hhost] at hreserves hanswers hshards hsize hoffset
  rw [hengine, hbudget, hbuilt]
  obtain ⟨reserves, answers, ⟨gguf, shards, fileSize⟩⟩ := left
  obtain rfl := List.isEmpty_iff.mp hreserves
  obtain rfl : answers = [] := hanswers
  obtain rfl : shards = narrowShards := hshards
  obtain rfl : fileSize = 3168 := hsize
  obtain ⟨path, size, version, metadata, tensors, alignment, dataStartOffset⟩ := gguf
  obtain rfl : dataStartOffset = 0 := hoffset
  rfl

/-- The build and the generation are decided apart, each on a state that is written out. -/
theorem exists_narrowRun {config : Option RuntimeConfig} (capacity : Nat) (together : Bool)
    (hbuild : (sampleBuild config narrowHost).1.map (fun built => decide (Narrow capacity together built)) =
      .ok true)
    (hgenerate : (sampleGenerate (narrowEngine (sampleBuild config narrowHost).2.2.2.model capacity together,
      narrowBudget)).1.map (fun _ => true) = .ok true) :
    ∃ built left outcome t, sampleBuild config narrowHost = (.ok built, left) ∧
      sampleGenerate (built.engine, built.budget) = (.ok outcome, t) := by
  obtain ⟨built, hbuilt, hnarrow⟩ := Outcome.of_map_ok hbuild
  obtain ⟨left, hbuilt⟩ := exists_of_fst_ok hbuilt
  obtain ⟨outcome, houtcome, -⟩ := Outcome.of_map_ok hgenerate
  obtain ⟨t, houtcome⟩ := exists_of_fst_ok houtcome
  refine ⟨built, left, outcome, t, hbuilt, ?_⟩
  rw [built_eq hbuilt (of_decide_eq_true hnarrow)]
  exact houtcome

/-- The engine is built with the defaults, and serves a request. -/
theorem sampleRun_default : ∃ built left outcome t,
    sampleBuild none narrowHost = (.ok built, left) ∧
      sampleGenerate (built.engine, built.budget) = (.ok outcome, t) :=
  exists_narrowRun 9848 true (by decide +kernel) (by decide +kernel)

/-! ## Every life -/

/-- After any number of generations, failed ones among them, a call finds no layer cached, the K/V
cache with its charge or neither, and no other charge than before.  The drop of the engine then
succeeds and leaves nothing charged. -/
theorem lifecycle [F32Narrow R] [FloatText] {host host' : Host} {env : Surroundings S}
    {ramBudgetBytes : Nat} {requestedConfig : Option RuntimeConfig} {built : Built R S}
    {t : InferenceEngine R S × MemoryBudget} (htiled : Tiled source.files)
    (hserves : OnHost (Serves source) host) (hram : ramBudgetBytes < u64Bound)
    (hbuilt : fromDataSourceInternal R env ramBudgetBytes requestedConfig host = (.ok built, host'))
    (hserved : Served (built.engine, built.budget) t) :
    Settled built.budget t ∧
      ∃ u, dropEngine t = (.ok (), u) ∧ u.2.allocations = ∅ ∧ u.2.used = 0 := by
  obtain ⟨b, hnew, hopened⟩ :=
    (ends_fromDataSourceInternal htiled hserves env hram requestedConfig).of_ok hbuilt
  obtain ⟨-, -, -, -, halloc⟩ := accounted_new hram hnew
  have hready := hserved.ready htiled hopened.loaded.planned hopened.ready
  have hdrop := hready.toKept.ends_dropEngine hopened.weighed
  refine ⟨hready.settled (hopened.loaded.loads.noLayers hopened.weighed.noLayers), ?_⟩
  unfold Ends at hdrop
  rcases hrun : dropEngine t with ⟨_ | _ | _, u⟩ <;> rw [hrun] at hdrop
  · obtain ⟨hacc, hcharges⟩ := hdrop
    rw [halloc] at hcharges
    refine ⟨u, rfl, hcharges, ?_⟩
    rw [hacc.used_eq, hcharges]
    exact MapSum.sumOver_empty _
  · exact hdrop.elim
  · exact hdrop.elim

theorem lifecycle_small : ∃ built left outcome t,
    sampleBuild none narrowHost = (.ok built, left) ∧
      sampleGenerate (built.engine, built.budget) = (.ok outcome, t) ∧ Settled built.budget t ∧
      ∃ u, dropEngine t = (.ok (), u) ∧ u.2.allocations = ∅ ∧ u.2.used = 0 := by
  let _ := levelMath
  let _ := levelRotation
  let _ := levelExp
  let _ := Planner.sampleText
  obtain ⟨built, left, outcome, t, hbuilt, hrun⟩ := sampleRun_default
  have hreturned : (attempt (generateWithCallback sampleRequest) : Method ℚ (Option ℚ) _)
      (built.engine, built.budget) = (.ok (.ok outcome), t) := by
    unfold attempt
    rw [show generateWithCallback sampleRequest (built.engine, built.budget) = _ from hrun]
  exact ⟨built, left, outcome, t, hbuilt, hrun, lifecycle tiled_sampleHost serves_sampleHost (by decide)
    hbuilt (.generated .start hreturned)⟩

/-- A request that fails leaves no K/V cache, no cached layer, and the charges of the construction. -/
theorem failed_generation [F32Narrow R] [FloatText] {host host' : Host} {env : Surroundings S}
    {ramBudgetBytes : Nat} {requestedConfig : Option RuntimeConfig} {built : Built R S}
    {s t : InferenceEngine R S × MemoryBudget} {request : Request R} {error : String}
    (htiled : Tiled source.files) (hserves : OnHost (Serves source) host)
    (hram : ramBudgetBytes < u64Bound)
    (hbuilt : fromDataSourceInternal R env ramBudgetBytes requestedConfig host = (.ok built, host'))
    (hserved : Served (built.engine, built.budget) s)
    (hrun : generateWithCallback request s = (.err error, t)) :
    t.1.kvCache = none ∧ t.1.cache.entries = ∅ ∧ ∀ name, t.2.get name = built.budget.get name := by
  obtain ⟨b, -, hopened⟩ :=
    (ends_fromDataSourceInternal htiled hserves env hram requestedConfig).of_ok hbuilt
  have hready := hserved.ready htiled hopened.loaded.planned hopened.ready
  obtain ⟨hleft, hdropped⟩ :=
    (hready.ends_generateWithCallback htiled hopened.loaded.planned request).of_err hrun
  have hsettled := hleft.settled (hopened.loaded.loads.noLayers hopened.weighed.noLayers)
  refine ⟨hdropped, hsettled.empty, fun name => ?_⟩
  by_cases hkv : name = kvCharge
  · have hnone : built.budget.get kvCharge = none := by
      rw [hopened.weighed.holds.get_eq kvCharge fun hmem => (hopened.weighed.plain _ hmem).2 rfl]
      exact hopened.weighed.unused
    rw [hkv, hnone]
    exact hleft.paired hdropped
  · exact hsettled.charges name hkv

/-- More tokens than the context has room for. -/
def sampleRefused : Method ℚ (Option ℚ) GenerationOutcome :=
  @generateWithCallback ℚ (Option ℚ) _ _ _ _ _ _ _ _ levelMath levelRotation _ levelExp _
    { sampleRequest with maxTokens := 1000 }

theorem exists_sampleRefused : ∃ built left error t,
    sampleBuild none narrowHost = (.ok built, left) ∧
      sampleRefused (built.engine, built.budget) = (.err error, t) := by
  have hrun : ((sampleBuild none narrowHost).1.map fun built =>
      ((attempt sampleRefused : Method ℚ (Option ℚ) _) (built.engine, built.budget)).1.map
        Except.isOk) = .ok (.ok false) := by
    decide +kernel
  obtain ⟨built, hbuilt, hrefused⟩ := Outcome.of_map_ok hrun
  obtain ⟨result, hresult, hfailed⟩ := Outcome.of_map_ok hrefused
  obtain ⟨left, hbuilt⟩ := exists_of_fst_ok hbuilt
  obtain ⟨t, hresult⟩ := exists_of_fst_ok hresult
  rcases of_attempt_ok hresult with ⟨a, rfl, -⟩ | ⟨error, -, herror⟩
  · cases hfailed
  · exact ⟨built, left, error, t, hbuilt, herror⟩

theorem failed_generation_small : ∃ built left error t,
    sampleBuild none narrowHost = (.ok built, left) ∧
      sampleRefused (built.engine, built.budget) = (.err error, t) ∧ t.1.kvCache = none ∧
      t.1.cache.entries = ∅ ∧ ∀ name, t.2.get name = built.budget.get name := by
  let _ := levelMath
  let _ := levelRotation
  let _ := levelExp
  let _ := Planner.sampleText
  obtain ⟨built, left, error, t, hbuilt, hrun⟩ := exists_sampleRefused
  exact ⟨built, left, error, t, hbuilt, hrun,
    failed_generation tiled_sampleHost serves_sampleHost (by decide) hbuilt .start hrun⟩

end InferenceEngine
end Ramforge
