/-
What the outcome of a generation says.

Its tokens are at most as many as were asked for, and none of them ends the sequence.  Their text
is what the caller was given, and the K/V cache has a position for each token that the model was fed.
-/
import Ramforge.Runtime.EngineTransparency

namespace Rust.Exec

theorem Retains.ends_value {σ ε α : Type} {I : σ → Prop} {m : Exec σ ε α} (hm : Retains I m) {s : σ}
    (h : I s) {Q : α → σ → Prop} (hQ : ∀ a t, m s = (.ok a, t) → Q a t) :
    Ends m s (fun a t => I t ∧ Q a t) (fun _ => I) fun _ _ => True := by
  have ht := hm s h
  unfold Ends at ht ⊢
  rcases hrun : m s with ⟨a | e | p, t⟩ <;> rw [hrun] at ht
  · exact ⟨ht, hQ a t hrun⟩
  · exact ht
  · trivial

end Rust.Exec

namespace Ramforge

open Rust Rust.Exec GgufDataSource MemoryBudget ForwardPass StreamingLlamaModel LayerLoad Running

/-! ## Positions of the K/V cache -/

namespace Generation

variable {R : Type} [F32 R] [Zero R] {source : GgufDataSource} {model : StreamingLlamaModel R}
  {α β : Type} {n n' : Nat}

/-- Where the call returns, it has moved the K/V cache from `n` positions to `n'`. -/
def Moves (source : GgufDataSource) (model : StreamingLlamaModel R) (n n' : Nat) (m : Running R α) :
    Prop :=
  ∀ base s, Underway source model base s → s.1.kv.seqLen = n →
    Ends m s (fun _ t => Underway source model base t ∧ t.1.kv.seqLen = n') (fun _ _ => True)
      fun _ _ => True

namespace Moves

theorem pure (a : α) : Moves source model n n (Pure.pure a : Running R α) := fun _ _ hs hn => ⟨hs, hn⟩

theorem bind {m : Running R α} {k : α → Running R β} {n'' : Nat} (hm : Moves source model n n' m)
    (hk : ∀ a, Moves source model n' n'' (k a)) : Moves source model n n'' (m >>= k) :=
  fun base s hs hn => (hm base s hs hn).bind fun a t ht => hk a base t ht.1 ht.2

theorem of_keeps {m : Running R α}
    (hm : ∀ f : Standing R, f.file = Serves source → Keeps (f.At [] none) m) :
    Moves source model n n m := by
  intro base s hs hn
  have hkeeps : Keeps (fun t => Underway source model base t ∧ t.1.kv.seqLen = n) m := by
    intro t ht
    obtain ⟨hleft, hkv⟩ := ht.1.of_keeps hm
    exact ⟨hleft, (congrArg KvCache.seqLen hkv).trans ht.2⟩
  exact (hkeeps.ends ⟨hs, hn⟩).mono (fun _ _ ht => ht) (fun _ _ _ => trivial) fun _ _ _ => trivial

theorem ofResult (r : Except String α) : Moves source model n n (Exec.ofResult r : Running R α) := by
  intro base s hs hn
  rw [ends_ofResult]
  exact ⟨fun _ _ => trivial, fun _ _ => ⟨hs, hn⟩⟩

end Moves

variable {S : Type} {g : Generation R S}

theorem moves_growKv (nextPos : Nat) : Moves source model n n (g.growKv nextPos) := by
  intro base s hs hn
  unfold growKv
  rw [ends_bind, ends_self]
  simp only
  split
  · rw [ends_bind, ends_ofResult]
    refine ⟨fun _ _ => trivial, fun aligned _ => ?_⟩
    rw [ends_bind, ends_ofResult]
    refine ⟨fun _ _ => trivial, fun newBytes _ => ?_⟩
    have hroom : Moves source model n n (ensureLayerCacheHeadroom newBytes : Running R Unit) :=
      .of_keeps fun _ _ => Standing.keeps_ensureLayerCacheHeadroom _
    refine (hroom base s hs hn).bind fun _ t ht => ?_
    have hgrowth : ∀ reserve, Retains (Underway source model base) (onPart (fun s => (s.1.kv, s.2))
        (fun t s => ({ s.1 with kv := t.1 }, t.2))
        (KvCache.growToWithBudget reserve (min aligned g.neededLen) kvCharge) : Running R Unit) :=
      fun reserve => retains_growth reserve _
    refine (((retains_reserve _).bind fun reserve => (hgrowth reserve).mapErr _).ends_value ht.1
      fun _ v hrun => ?_).mono (fun _ _ hv => hv) (fun _ _ _ => trivial) fun _ _ _ => trivial
    rw [Paired.grow_ok ht.1 hrun]
    unfold Paired.grownTo
    split
    · exact ht.2
    · exact ht.2
  · exact ⟨hs, hn⟩

variable [Add R] [Sub R] [Mul R] [One R] [Neg R] [Div R] [F32Math R] [F32Rotation R]

/-- A call that returns has fed the position after the last one. -/
theorem moves_forward {machine : Machine} (htiled : Tiled source.files) (hplanned : Planned model)
    (tokenId : UInt32) (pos : Nat) (out : List R) :
    Moves source model n (pos + 1) (model.forwardSingleStreaming machine tokenId pos out) := by
  intro base s hs _
  obtain ⟨hist, hst⟩ := hs.kv.stores
  refine (ends_forward_known htiled hplanned hs.sound hst).mono (fun row t ht => ?_)
    (fun _ _ _ => trivial) fun _ _ _ => trivial
  obtain ⟨hat, hidden, norm, hadvanced, -⟩ := ht
  refine ⟨hs.of_at hat rfl rfl rfl (hadvanced.charged hs.kv), ?_⟩
  obtain ⟨rows, -, -, hst', -, -⟩ := hadvanced.stores hst
  rw [hst'.seqLen_eq, hadvanced.position, hst.seqLen_eq]
  rfl

theorem moves_promptPass (htiled : Tiled source.files) (hplanned : Planned g.model) (hidden : List R) :
    Moves source g.model 0 g.promptTokens.length (g.promptPass hidden) := by
  unfold promptPass
  generalize g.promptTokens = tokens
  suffices h : ∀ k hidden, Moves source g.model k (k + tokens.length)
      ((tokens.zipIdx k).foldlM (fun hidden token =>
        g.model.forwardSingleStreaming g.machine token.1 token.2 hidden) hidden) by
    have hall := h 0 hidden
    rw [Nat.zero_add] at hall
    exact hall
  induction tokens with
  | nil => exact fun k hidden => .pure _
  | cons token tokens ih =>
    intro k hidden
    rw [List.zipIdx_cons, List.foldlM_cons, List.length_cons, Nat.add_comm tokens.length,
      ← Nat.add_assoc]
    exact (moves_forward htiled hplanned token k hidden).bind fun hidden => ih (k + 1) hidden

variable [LinearOrder R] [F32Exp R]

omit [Mul R] [Neg R] [F32Math R] [F32Rotation R] in
theorem moves_sampleToken (index : Nat) (logits : List R) :
    Moves source g.model n n (g.sampleToken index logits) := by
  have hroom : Moves source g.model n n (ensureLayerCacheHeadroom g.samplerScratch : Running R Unit) :=
    .of_keeps fun _ _ => Standing.keeps_ensureLayerCacheHeadroom _
  refine hroom.bind fun _ => Moves.bind ?_ fun _ => .pure _
  intro base s hs hn
  refine (ends_scope id ⟨by decide, by decide⟩ (by decide) (Q := fun _ t => t.kv.seqLen = n)
    (E := fun _ _ => True) hs (fun _ => trivial) fun b base hb => ?_).mono (fun _ _ ht => ht)
    (fun _ _ _ => trivial) fun _ _ _ => trivial
  rw [ends_ofResult]
  exact ⟨fun _ _ => ⟨hb, trivial⟩, fun _ _ => ⟨hb, hn⟩⟩

omit [Add R] [Sub R] [Mul R] [One R] [Neg R] [Div R] [F32Math R] [F32Rotation R] [LinearOrder R]
  [F32Exp R] in
/-- A call on the model within a generation. -/
theorem Moves.ends_onForward {base : MemoryBudget} {m : Running R α}
    {s : GenerationState R × MemoryBudget} (hm : Moves source model n n' m)
    (hs : Underway source model base (s.1.forward, s.2)) (hn : s.1.forward.kv.seqLen = n) :
    Ends (onForward m) s
      (fun _ t => Underway source model base (t.1.forward, t.2) ∧ t.1.forward.kv.seqLen = n' ∧
        t.1.heard = s.1.heard)
      (fun _ _ => True) fun _ _ => True := by
  rw [onForward, ends_onPart]
  exact (hm base _ hs hn).mono (fun _ t ht => ⟨ht.1, ht.2, rfl⟩) (fun _ _ _ => trivial)
    fun _ _ _ => trivial

/-! ## Texts -/

omit [F32 R] [Zero R] [Add R] [Sub R] [Mul R] [One R] [Neg R] [Div R] [F32Math R] [F32Rotation R]
  [LinearOrder R] [F32Exp R] in
/-- The texts that the caller was given make up the text of the generation. -/
theorem ends_emit {text generatedText : List Char} {s : GenerationState R × MemoryBudget}
    (htext : s.1.heard.flatten = generatedText) (hspoken : [] ∉ s.1.heard) :
    Ends (g.emit text generatedText) s
      (fun text' t => (t.1.forward = s.1.forward ∧ t.2 = s.2) ∧ text' = generatedText ++ text ∧
        t.1.heard.flatten = text' ∧ [] ∉ t.1.heard)
      (fun _ _ => True) fun _ _ => True := by
  unfold emit
  split
  next hempty =>
    rw [hempty, List.append_nil]
    exact ⟨⟨rfl, rfl⟩, rfl, htext, hspoken⟩
  next hsome =>
    simp only [ends_bind, ends_self, ends_modify]
    split
    · trivial
    · refine ⟨⟨rfl, rfl⟩, rfl, ?_, ?_⟩
      · simp [htext]
      · simp [hspoken, Ne.symm hsome]

end Generation

/-- One more push. -/
theorem TokenDecoder.pushAll_concat {S : Type} [Score S] (t : Tokenizer S) {d d' d'' : TokenDecoder}
    {ids : List UInt32} {id : UInt32} {text text' : List Char}
    (h : pushAll t d ids = .ok (text, d')) (hpush : push t d' id = .ok (text', d'')) :
    pushAll t d (ids ++ [id]) = .ok (text ++ text', d'') := by
  induction ids generalizing d text with
  | nil =>
    cases h
    simp [pushAll, hpush]
  | cons first ids ih =>
    obtain ⟨pushed, hpushed, h⟩ := Outcome.of_bind_ok h
    obtain ⟨rest, hrest, h⟩ := Outcome.of_bind_ok h
    cases h
    rw [List.cons_append, pushAll, hpushed, Outcome.ok_bind, ih hrest]
    simp [List.append_assoc]

/-! ## Rounds -/

namespace Generation

section rounds

variable {R S : Type} [F32 R] [Zero R] [Add R] [Sub R] [Mul R] [One R] [Neg R] [Div R] [F32Math R]
  [F32Rotation R] [LinearOrder R] [F32Exp R] [Score S] {source : GgufDataSource} {g : Generation R S}
  {base : MemoryBudget}

/-- What the tokens of a generation, its text and the texts that the caller was given have to do
with each other. -/
structure Told (g : Generation R S) (l : GenerationLocals R) (s : GenerationState R) : Prop where
  noEos : ∀ token ∈ l.generatedTokens, g.tokenizer.eosId ≠ some token
  decoded : TokenDecoder.pushAll g.tokenizer TokenDecoder.new l.generatedTokens =
    .ok (l.generatedText, l.decoder)
  text : s.heard.flatten = l.generatedText
  spoken : [] ∉ s.heard

/-- What holds before round `i`. -/
structure Going (g : Generation R S) (i : Nat) (l : GenerationLocals R) (s : GenerationState R) : Prop
    extends Told g l s where
  more : i = 0 ∨ i < g.maxTokens
  count : l.generatedTokens.length = i
  pos : l.currentPos = g.promptTokens.length + i
  seqLen : s.forward.kv.seqLen = l.currentPos
  stopReason : l.stopReason = .maxTokens
  eosEncountered : l.eosEncountered = false

/-- Why the loop was left, and how far. -/
inductive Halted (maxTokens promptTokens : Nat) (tokens seqLen : Nat) : StopReason → Bool → Prop
  /-- The last sampled token ends the sequence; all tokens before it were fed. -/
  | eos (hlt : tokens < maxTokens) (hlen : seqLen = promptTokens + tokens) :
    Halted maxTokens promptTokens tokens seqLen .eos true
  /-- The last token was not fed. -/
  | maxTokens (heq : tokens = maxTokens) (hlen : seqLen = promptTokens + (tokens - 1)) :
    Halted maxTokens promptTokens tokens seqLen .maxTokens false

/-- What holds where the loop was left. -/
structure Left (g : Generation R S) (l : GenerationLocals R) (s : GenerationState R) : Prop
    extends Told g l s where
  halted : Halted g.maxTokens g.promptTokens.length l.generatedTokens.length s.forward.kv.seqLen
    l.stopReason l.eosEncountered

/-- A round that goes on has added a token and fed it. -/
theorem ends_round (htiled : Tiled source.files) (hplanned : Planned g.model)
    (hfits : g.promptTokens.length + g.maxTokens < u64Bound)
    (hcontext : g.promptTokens.length + g.maxTokens ≤ g.model.config.contextLength) {i : Nat}
    (hi : i < g.maxTokens) {l : GenerationLocals R} {s : GenerationState R × MemoryBudget}
    (hs : Underway source g.model base (s.1.forward, s.2)) (h : Going g i l s.1) :
    Ends (g.round i l) s (fun r t => match r with
      | .again l' => Underway source g.model base (t.1.forward, t.2) ∧ Going g (i + 1) l' t.1
      | .leave l' => Left g l' t.1) (fun _ _ => True) fun _ _ => True := by
  unfold round
  have hlogits : Moves source g.model l.currentPos l.currentPos
      (g.model.computeLogits g.machine l.hidden l.logits) :=
    .of_keeps fun _ hfile => keeps_computeLogits (hfile ▸ readsKeep_serves htiled) g.model g.machine _ _
  refine (hlogits.ends_onForward hs h.seqLen).bind fun logits t ht => ?_
  obtain ⟨ht, hlen, hheard⟩ := ht
  refine ((moves_sampleToken i logits).ends_onForward ht hlen).bind fun nextToken u hu => ?_
  obtain ⟨hu, hlen, hheard'⟩ := hu
  rw [hheard] at hheard'
  split
  next heos =>
    refine ⟨⟨h.noEos, h.decoded, hheard' ▸ h.text, hheard' ▸ h.spoken⟩, .eos ?_ ?_⟩
    · exact h.count ▸ hi
    · exact hlen.trans (h.count ▸ h.pos)
  next hother =>
    rw [decoding, ends_bind, ends_resume]
    refine ⟨fun pushed hpushed => ?_, fun _ _ => trivial, fun _ _ => trivial⟩
    obtain ⟨decoded, decoder⟩ := pushed
    have hpush := Outcome.of_mapErr_ok hpushed
    refine (ends_emit (hheard' ▸ h.text) (hheard' ▸ h.spoken)).bind fun text v hv => ?_
    obtain ⟨⟨hforward, hbudget⟩, rfl, htext, hspoken⟩ := hv
    have hnoEos : ∀ token ∈ l.generatedTokens ++ [nextToken], g.tokenizer.eosId ≠ some token := by
      intro token hmem
      rcases List.mem_append.mp hmem with hmem | hmem
      · exact h.noEos token hmem
      · rw [List.mem_singleton.mp hmem]
        exact hother
    have hdecoded := TokenDecoder.pushAll_concat g.tokenizer h.decoded hpush
    have hcount : (l.generatedTokens ++ [nextToken]).length = i + 1 := by
      rw [List.length_append, h.count, List.length_singleton]
    have hv : Underway source g.model base (v.1.forward, v.2) := by
      rw [hforward, hbudget]
      exact hu
    have hlen : v.1.forward.kv.seqLen = l.currentPos := by
      rw [hforward]
      exact hlen
    rw [ends_bind, ends_okOr]
    refine ⟨fun _ => trivial, fun nextPos hnext => ?_⟩
    obtain ⟨-, rfl⟩ := checkedAdd_eq_some.mp hnext
    have hindex : checkedAdd i 1 = some (i + 1) := checkedAdd_of_lt (by omega)
    rw [hindex]
    simp only [Option.any_some, decide_eq_true_eq]
    split
    next hlast =>
      refine ⟨⟨hnoEos, hdecoded, htext, hspoken⟩, ?_⟩
      show Halted _ _ _ _ .maxTokens l.eosEncountered
      rw [h.eosEncountered]
      refine .maxTokens ?_ ?_
      · rw [hcount]
        omega
      · rw [hcount, Nat.add_sub_cancel]
        exact hlen.trans h.pos
    next hmore =>
      -- The context length has room for every token that was asked for.
      have hroom : l.currentPos + 1 < g.model.config.contextLength := by
        rw [h.pos]
        omega
      rw [if_neg (not_not.mpr hroom)]
      refine ((moves_growKv _).ends_onForward hv hlen).bind fun _ w hw => ?_
      obtain ⟨hw, hlen, hheardw⟩ := hw
      refine ((moves_forward htiled hplanned nextToken l.currentPos l.hidden).ends_onForward hw hlen).bind
        fun hidden x hx => ?_
      obtain ⟨hx, hlen, hheardx⟩ := hx
      rw [hheardw] at hheardx
      rw [if_neg (Nat.not_le.mpr hroom)]
      refine ⟨hx, ⟨hnoEos, hdecoded, hheardx ▸ htext, hheardx ▸ hspoken⟩, .inr (not_not.mp hmore),
        hcount, ?_, hlen, h.stopReason, h.eosEncountered⟩
      rw [h.pos, Nat.add_assoc]

/-- The whole generation, up to the trailing text. -/
theorem ends_underLogits (htiled : Tiled source.files) (hplanned : Planned g.model)
    (hfits : g.promptTokens.length + g.maxTokens < u64Bound)
    (hcontext : g.promptTokens.length + g.maxTokens ≤ g.model.config.contextLength)
    {s : GenerationState R × MemoryBudget} (hs : Underway source g.model base (s.1.forward, s.2))
    (hempty : s.1.forward.kv.seqLen = 0) (hsilent : s.1.heard = []) (hidden : List R) :
    Ends (g.underLogits hidden) s (fun l t => Left g l t.1) (fun _ _ => True) fun _ _ => True := by
  have hzeroed : Moves source g.model 0 0 (zeroedBuffer g.model.config.vocabSize "logits buffer") :=
    .of_keeps fun _ _ => Standing.keeps_zeroedBuffer _ _
  refine (hzeroed.ends_onForward hs hempty).bind fun logits t ht => ?_
  obtain ⟨ht, hlen, hheard⟩ := ht
  refine ((moves_promptPass htiled hplanned hidden).ends_onForward ht hlen).bind fun hidden u hu => ?_
  obtain ⟨hu, hlen, hheard'⟩ := hu
  rw [hheard, hsilent] at hheard'
  refine Ends.forBreak (I := fun i l t => Underway source g.model base (t.1.forward, t.2) ∧
    Going g i l t.1) (fun i _ hi l t ht => ?_) (fun l t ht => ?_) ?_
  · refine (ends_round htiled hplanned hfits hcontext (Nat.zero_add g.maxTokens ▸ hi) ht.1 ht.2).mono
      (fun r u hu => ?_) (fun _ _ _ => trivial) fun _ _ _ => trivial
    cases r with
    | again l' => exact hu
    | leave l' => exact hu
  · obtain ⟨-, ht⟩ := ht
    rw [Nat.zero_add] at ht
    refine ⟨ht.toTold, ?_⟩
    rw [ht.stopReason, ht.eosEncountered]
    -- A loop that no round has left is one without rounds.
    have hzero : g.maxTokens = 0 := ht.more.resolve_right (Nat.lt_irrefl _)
    refine .maxTokens ht.count ?_
    rw [ht.seqLen, ht.pos, ht.count, hzero]
  · refine ⟨hu, ⟨by simp, rfl, ?_, ?_⟩, .inl rfl, rfl, rfl, hlen, rfl, rfl⟩
    · rw [hheard']
      rfl
    · rw [hheard']
      exact List.not_mem_nil

theorem ends_underHidden (htiled : Tiled source.files) (hplanned : Planned g.model)
    (hfits : g.promptTokens.length + g.maxTokens < u64Bound)
    (hcontext : g.promptTokens.length + g.maxTokens ≤ g.model.config.contextLength)
    {s : GenerationState R × MemoryBudget} (hs : Underway source g.model base (s.1.forward, s.2))
    (hempty : s.1.forward.kv.seqLen = 0) (hsilent : s.1.heard = []) (logitsBytes : Nat) :
    Ends (g.underHidden logitsBytes) s (fun l t => Left g l t.1) (fun _ _ => True) fun _ _ => True := by
  have hzeroed : Moves source g.model 0 0
      (zeroedBuffer g.model.config.embeddingLength "hidden activation") :=
    .of_keeps fun _ _ => Standing.keeps_zeroedBuffer _ _
  refine (hzeroed.ends_onForward hs hempty).bind fun hidden t ht => ?_
  obtain ⟨ht, hlen, hheard⟩ := ht
  refine (ends_scope GenerationState.forward ⟨by decide, by decide⟩ (by decide) (Q := Left g)
    (E := fun _ _ => True) ht (fun _ => trivial) fun b base hb => ?_).mono (fun _ _ hu => hu.2)
    (fun _ _ _ => trivial) fun _ _ _ => trivial
  refine ((retains_underLogits htiled hplanned hidden).ends_value hb fun l u hrun => ?_).mono
    (fun _ _ hu => hu) (fun _ _ hu => ⟨hu, trivial⟩) fun _ _ hp => hp
  exact (ends_underLogits htiled hplanned hfits hcontext (s := (t.1, b)) hb hlen (hheard.trans hsilent)
    hidden).of_ok hrun

/-- What holds after the decode loop. -/
theorem ends_run (htiled : Tiled source.files) (hplanned : Planned g.model)
    (hfits : g.promptTokens.length + g.maxTokens < u64Bound)
    (hcontext : g.promptTokens.length + g.maxTokens ≤ g.model.config.contextLength)
    {s : GenerationState R × MemoryBudget} (hs : Underway source g.model base (s.1.forward, s.2))
    (hempty : s.1.forward.kv.seqLen = 0) (hsilent : s.1.heard = []) (hiddenBytes logitsBytes : Nat) :
    Ends (g.run hiddenBytes logitsBytes) s (fun l t => Left g l t.1) (fun _ _ => True)
      fun _ _ => True := by
  rw [run_eq]
  refine (ends_scope GenerationState.forward ⟨by decide, by decide⟩ (by decide) (Q := Left g)
    (E := fun _ _ => True) hs (fun _ => trivial) fun b base hb => ?_).mono (fun _ _ hu => hu.2)
    (fun _ _ _ => trivial) fun _ _ _ => trivial
  refine ((retains_underHidden htiled hplanned logitsBytes).ends_value hb fun l u hrun => ?_).mono
    (fun _ _ hu => hu) (fun _ _ hu => ⟨hu, trivial⟩) fun _ _ hp => hp
  exact (ends_underHidden htiled hplanned hfits hcontext (s := (s.1, b)) hb hempty hsilent
    logitsBytes).of_ok hrun

/-- The trailing text completes the text of the tokens. -/
theorem ends_whole (htiled : Tiled source.files) (hplanned : Planned g.model)
    (hfits : g.promptTokens.length + g.maxTokens < u64Bound)
    (hcontext : g.promptTokens.length + g.maxTokens ≤ g.model.config.contextLength)
    {s : GenerationState R × MemoryBudget} (hs : Underway source g.model base (s.1.forward, s.2))
    (hempty : s.1.forward.kv.seqLen = 0) (hsilent : s.1.heard = []) (hiddenBytes logitsBytes : Nat) :
    Ends (g.whole hiddenBytes logitsBytes) s
      (fun r t => (∀ token ∈ r.1.generatedTokens, g.tokenizer.eosId ≠ some token) ∧
        Halted g.maxTokens g.promptTokens.length r.1.generatedTokens.length t.1.forward.kv.seqLen
          r.1.stopReason r.1.eosEncountered ∧
        g.tokenizer.decode r.1.generatedTokens = .ok r.2 ∧ t.1.heard.flatten = r.2 ∧
        [] ∉ t.1.heard)
      (fun _ _ => True) fun _ _ => True := by
  refine (ends_run htiled hplanned hfits hcontext hs hempty hsilent hiddenBytes logitsBytes).bind
    fun l t ht => ?_
  rw [decoding, ends_bind, ends_resume]
  refine ⟨fun finished hfinished => ?_, fun _ _ => trivial, fun _ _ => trivial⟩
  have hfinish := Outcome.of_mapErr_ok hfinished
  refine (ends_emit ht.text ht.spoken).bind fun text u hu => ?_
  obtain ⟨⟨hforward, -⟩, rfl, htext, hspoken⟩ := hu
  refine ⟨ht.noEos, ?_, ?_, htext, hspoken⟩
  · rw [hforward]
    exact ht.halted
  · rw [Tokenizer.decode, ht.decoded, Outcome.ok_bind, hfinish]
    rfl

end rounds

end Generation

/-! ## The outcome -/

/-- What an outcome says of the request, and of the K/V cache and the texts that the generation
left. -/
structure GenerationOutcome.Holds {R S : Type} [Score S] (outcome : GenerationOutcome)
    (tokenizer : Tokenizer S) (maxTokens : Nat) (kv : KvCache R) (heard : List (List Char)) : Prop where
  noEos : ∀ token ∈ outcome.generatedTokenIds, tokenizer.eosId ≠ some token
  halted : Generation.Halted maxTokens outcome.promptTokens outcome.generatedTokenIds.length kv.seqLen
    outcome.stopReason outcome.eosEncountered
  decoded : tokenizer.decode outcome.generatedTokenIds = .ok outcome.generatedText
  text : heard.flatten = outcome.generatedText
  spoken : [] ∉ heard

section outcome

open Generation

variable {R S : Type} [Zero R] [One R] [Add R] [Sub R] [Neg R] [Mul R] [Div R] [F32 R] [F32Math R]
  [F32Rotation R] [LinearOrder R] [F32Exp R] [Score S] {source : GgufDataSource}

theorem Returned.holds {model : StreamingLlamaModel R} {request : Request R} {tokenizer : Tokenizer S}
    {neededLen : Nat} {v w : GenerationState R × MemoryBudget} {r : GenerationLocals R × List Char}
    {outcome : GenerationOutcome} {t : InferenceEngine R S × MemoryBudget} (htiled : Tiled source.files)
    (hplanned : Planned model)
    (h : Returned source model request tokenizer neededLen v w r outcome t) :
    ∃ kv, t.1.kvCache = some kv ∧ outcome.Holds tokenizer request.maxTokens kv t.1.heard := by
  obtain ⟨hfits, hneeded⟩ := checkedAdd_eq_some.mp h.needed
  obtain ⟨base, hunderway⟩ := h.underway
  obtain ⟨reserve, hfresh⟩ := h.fresh
  obtain ⟨scratch, hiddenBytes, logitsBytes, hrun⟩ := h.ran
  have hempty : v.1.forward.kv.seqLen = 0 := (KvCache.new_stores hfresh).1.seqLen_eq
  have hends := ends_whole (g := request.generation model tokenizer neededLen scratch) htiled hplanned
    hfits (hneeded ▸ h.context) hunderway hempty h.silent hiddenBytes logitsBytes
  obtain ⟨hnoEos, hhalted, hdecoded, htext, hspoken⟩ := hends.of_ok hrun
  refine ⟨_, h.kvCache, ?_⟩
  rw [h.outcome_eq, h.heard]
  exact ⟨hnoEos, hhalted, hdecoded, htext, hspoken⟩

namespace InferenceEngine

/-- A generation that returns has made at most the tokens that were asked for, and stopped early at
the end of the sequence only.  It never stops at the context length.  The texts that the caller was
given are the text of its tokens. -/
theorem generation_outcome [F32Narrow R] [FloatText] {host left : Host} {env : Surroundings S}
    {ramBudgetBytes : Nat} {requestedConfig : Option RuntimeConfig} {built : Built R S}
    {s t : InferenceEngine R S × MemoryBudget} {request : Request R} {outcome : GenerationOutcome}
    (htiled : Tiled source.files) (hserves : OnHost (Serves source) host)
    (hram : ramBudgetBytes < u64Bound)
    (hbuilt : fromDataSourceInternal R env ramBudgetBytes requestedConfig host = (.ok built, left))
    (hserved : Served (built.engine, built.budget) s)
    (hrun : generateWithCallback request s = (.ok outcome, t)) :
    ∃ kv, t.1.kvCache = some kv ∧
      outcome.Holds built.engine.tokenizer request.maxTokens kv t.1.heard := by
  obtain ⟨b, -, hopened⟩ :=
    (ends_fromDataSourceInternal htiled hserves env hram requestedConfig).of_ok hbuilt
  have hplanned := hopened.loaded.planned
  obtain ⟨neededLen, v, w, r, hreturned⟩ :=
    (hserved.ready htiled hplanned hopened.ready).of_generateWithCallback_ok htiled hplanned hrun
  rw [hserved.speaks] at hreturned
  exact hreturned.holds htiled hplanned

theorem generation_outcome_small : ∃ built left outcome t kv,
    sampleBuild none narrowHost = (.ok built, left) ∧
      sampleGenerate (built.engine, built.budget) = (.ok outcome, t) ∧ t.1.kvCache = some kv ∧
      outcome.Holds built.engine.tokenizer 2 kv t.1.heard := by
  let _ := levelMath
  let _ := StreamingLlamaModel.levelRotation
  let _ := levelExp
  let _ := Planner.sampleText
  obtain ⟨built, left, outcome, t, hbuilt, hrun⟩ := sampleRun_default
  obtain ⟨kv, hkv, hholds⟩ := generation_outcome StreamingLlamaModel.tiled_sampleHost
    StreamingLlamaModel.serves_sampleHost (by decide) hbuilt .start hrun
  exact ⟨built, left, outcome, t, kv, hbuilt, hrun, hkv, hholds⟩

end InferenceEngine
end outcome
end Ramforge
