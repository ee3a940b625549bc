/-
What holds at every step of a generation.

The caches agree with the file, the K/V cache is charged by its bytes, and every other charge
is what it was.
-/
import Ramforge.Runtime.ForwardTransparency
import Ramforge.Runtime.Generation
import Ramforge.Runtime.KvGrowth
import Ramforge.Rust.Settles

namespace Ramforge

open Rust Rust.Exec GgufDataSource MemoryBudget ForwardPass

namespace StreamingLlamaModel

variable {R : Type} [Zero R] [F32 R] [Add R] [Sub R] [Mul R] {f : Standing R} {own : List String}
  {live : Option Nat}

omit [F32 R] [Add R] [Sub R] [Mul R] [Zero R] in
theorem keeps_logitsWorkspaceMinBytes {σ : Type} {I : σ → Prop} (model : StreamingLlamaModel R) :
    Keeps I model.logitsWorkspaceMinBytes := by
  unfold logitsWorkspaceMinBytes
  split
  · exact .pure _
  · refine (ReadsKeep.keeps_rowBytesFor _ _).bind fun _ => ?_
    split
    · exact .pure _
    · exact (Keeps.okOr _ _).bind fun _ => .okOr _ _

theorem keeps_computeLogits (hreads : ReadsKeep f.file) (model : StreamingLlamaModel R)
    (machine : Machine) (hidden output : List R) :
    Keeps (f.At own live) (model.computeLogits machine hidden output) := by
  refine (Keeps.failIf _ _).bind fun _ => (keeps_logitsWorkspaceMinBytes model).bind fun _ =>
    (Standing.keeps_ensureLayerCacheHeadroom _).bind fun _ => ?_
  split
  · exact (Keeps.onLocal _ _).bind fun _ => .pure _
  · exact Standing.keeps_onManaged fun b => hreads.matvecInto _ hidden output

end StreamingLlamaModel

namespace KvCache

variable {R : Type} [Zero R] {name : String} {b : MemoryBudget}

/-- A commit leaves the buffers of the cache as large as they were. -/
theorem keeps_charged_commit (p : Pass R) (staged : Staged R) :
    Keeps (fun c => Charged name (c, b)) (p.commit staged) :=
  (Keeps.forM (fun row _ hc => hc.owner (.append row.2 row.1.1 row.1.2)) _).bind fun _ _ hc =>
    hc.owner (.increment p.machine.debugAssertions)

end KvCache

theorem ForwardPass.Advanced.charged {R : Type} [Zero R] [One R] [Add R] [Sub R] [Neg R] [Mul R]
    [Div R] [F32 R] [F32Math R] [F32Rotation R] {f : Standing R} {machine : Machine}
    {model : StreamingLlamaModel R} {tokenId pos : Nat} {kv kv' : KvCache R} {hidden : List R}
    {name : String} {b : MemoryBudget} (h : Advanced f machine model tokenId pos kv hidden kv')
    (hkv : KvCache.Charged name (kv, b)) : KvCache.Charged name (kv', b) := by
  obtain ⟨sizes, l, -, -, -, hcommit⟩ := h.ran
  have hkept := KvCache.keeps_charged_commit { machine, model, pos, sizes } l.staged kv hkv
  rw [hcommit] at hkept
  exact hkept

namespace Generation

open Running StreamingLlamaModel LayerLoad

variable {R : Type} [F32 R] {source : GgufDataSource} {machine : Machine}
  {model : StreamingLlamaModel R} {base : MemoryBudget} {s t : ForwardState R × MemoryBudget}

theorem plain_kvCharge : Plain kvCharge := ⟨by decide, by decide⟩

/-- The state of a generation.  Besides the caches, its charges are those of `base`. -/
structure Underway [Zero R] (source : GgufDataSource) (model : StreamingLlamaModel R)
    (base : MemoryBudget) (s : ForwardState R × MemoryBudget) : Prop where
  sound : Sound source model s
  kv : KvCache.Charged kvCharge (s.1.kv, s.2)
  charges : ∀ name, Plain name → name ≠ kvCharge → s.2.get name = base.get name

/-- One charge has changed that is not one of the layers. -/
theorem sound_of_apart {name : String} (h : Sound source model s) (hplain : Plain name)
    (hcache : t.1.cache = s.1.cache) (hhost : t.1.host = s.1.host) (hb : Apart (· = name) s.2 t.2) :
    Sound source model t := by
  have hget : ∀ other, ¬Plain other → t.2.get other = s.2.get other := fun other hother =>
    hb.get_eq other fun he => hother (he ▸ hplain)
  refine ⟨h.coherent.of_frame hcache hb.accounted fun other hall => hget other fun hp => ?_,
    idle_iff.mpr fun other hunder => ?_, hhost ▸ h.serves, hcache ▸ h.cached⟩
  · rw [hp.cache] at hall
    cases hall
  · rw [hget other fun hp => ?_]
    · exact idle_iff.mp h.idle other hunder
    · rw [hp.layer] at hunder
      cases hunder

variable [Zero R] [Add R] [Sub R] [Mul R]

omit [Add R] [Sub R] [Mul R] in
theorem Underway.of_at (h : Underway source model base s) {f : Standing R} (ht : f.At [] none t)
    (hfile : f.file = Serves source) (hweights : f.weights = LayerOf source.files model)
    (hbase : f.base = s.2) (hkv : KvCache.Charged kvCharge (t.1.kv, s.2)) :
    Underway source model base t := by
  have hget : ∀ name, Plain name → t.2.get name = s.2.get name := fun name hplain =>
    hbase ▸ ht.charges name hplain List.not_mem_nil
  exact ⟨.of_at hfile hweights ht, hkv.of_same ht.accounted (hget kvCharge plain_kvCharge),
    fun name hplain hne => (hget name hplain).trans (h.charges name hplain hne)⟩

omit [Add R] [Sub R] [Mul R] in
/-- A call that keeps all that is known keeps the K/V cache with it. -/
theorem Underway.of_keeps {α : Type} {m : Running R α}
    (hm : ∀ f : Standing R, f.file = Serves source → Keeps (f.At [] none) m)
    (hs : Underway source model base s) :
    Underway source model base (m s).2 ∧ (m s).2.1.kv = s.1.kv := by
  let f : Standing R :=
    { unread s.1.kv s.2 with file := Serves source, weights := LayerOf source.files model }
  have ht : f.At [] none (m s).2 := hm f rfl s (hs.sound.at rfl rfl rfl rfl)
  have hkv : (m s).2.1.kv = s.1.kv := ht.history
  refine ⟨hs.of_at ht rfl rfl rfl ?_, hkv⟩
  rw [hkv]
  exact hs.kv

omit [Add R] [Sub R] [Mul R] in
theorem retains_of_keeps {α : Type} {m : Running R α}
    (hm : ∀ f : Standing R, f.file = Serves source → Keeps (f.At [] none) m) :
    Retains (Underway source model base) m :=
  Keeps.retains fun _ hs => (hs.of_keeps hm).1

/-! ## Temporary charges -/

section scopes

variable {κ α : Type} (view : κ → ForwardState R) {name : String} {bytes : Nat}

omit [Add R] [Sub R] [Mul R] in
theorem Underway.enter (h : Underway source model base s) (hplain : Plain name) (hne : name ≠ kvCharge)
    (hcharged : (s.2.charge name bytes).Accounted) :
    Underway source model (s.2.charge name bytes) (s.1, s.2.charge name bytes) := by
  have hapart : Apart (· = name) s.2 (s.2.charge name bytes) :=
    ⟨hcharged, fun other he => by rw [get_charge, if_neg he]⟩
  exact ⟨sound_of_apart h.sound hplain rfl rfl hapart,
    h.kv.of_same hcharged (hapart.get_eq kvCharge hne.symm), fun _ _ _ => rfl⟩

omit [Add R] [Sub R] [Mul R] in
theorem Underway.leave {b : MemoryBudget} (h : Underway source model base s) (hplain : Plain name)
    (hne : name ≠ kvCharge) (hnone : b.get name = none) (hbase : base = b.charge name bytes) :
    s.2.get name = some bytes ∧ Underway source model b (s.1, s.2.discharge name bytes) := by
  have hget : s.2.get name = some bytes := by
    rw [h.charges name hplain hne, hbase, get_charge, if_pos rfl]
  have hacc := accounted_discharge h.kv.accounted hget
  have hapart : Apart (· = name) s.2 (s.2.discharge name bytes) :=
    ⟨hacc, fun other he => by rw [get_discharge, if_neg he]⟩
  refine ⟨hget, sound_of_apart h.sound hplain rfl rfl hapart,
    h.kv.of_same hacc (hapart.get_eq kvCharge hne.symm), fun other hother hne' => ?_⟩
  show (s.2.discharge name bytes).get other = b.get other
  rw [get_discharge]
  split
  next he => rw [he, hnone]
  next he => rw [h.charges other hother hne', hbase, get_charge, if_neg he]

section scope

omit [Add R] [Sub R] [Mul R]
variable {m : Exec (κ × MemoryBudget) String α} {s t : κ × MemoryBudget} (hplain : Plain name)
  (hne : name ≠ kvCharge)
include hplain hne

/-- A scope gives its charge back, whatever its body was. -/
theorem ends_scope {Q : α → κ → Prop} {E : String → κ → Prop}
    (hs : Underway source model base (view s.1, s.2)) (hrefused : ∀ e, E e s.1)
    (hbody : ∀ b base, Underway source model base (view s.1, b) →
      Ends m (s.1, b) (fun a t => Underway source model base (view t.1, t.2) ∧ Q a t.1)
        (fun e t => Underway source model base (view t.1, t.2) ∧ E e t.1) fun _ _ => True) :
    Ends (MemoryBudget.withTemp MemoryError.display name bytes m) s
      (fun a t => Underway source model base (view t.1, t.2) ∧ Q a t.1)
      (fun e t => Underway source model base (view t.1, t.2) ∧ E e t.1) fun _ _ => True := by
  by_cases hzero : bytes = 0
  · rw [hzero, Call.withTemp_zero]
    exact hbody s.2 base hs
  refine MemoryBudget.ends_withTemp hs.kv.accounted (Nat.pos_of_ne_zero hzero)
    (fun _ => ⟨hs, hrefused _⟩) fun hnone hcharged => ?_
  have hleave : ∀ t : κ × MemoryBudget,
      Underway source model (s.2.charge name bytes) (view t.1, t.2) → Accounted t.2 ∧
        ∃ n, t.2.get name = some n ∧ Underway source model base (view t.1, t.2.discharge name n) := by
    intro t ht
    obtain ⟨hget, hleft⟩ := ht.leave hplain hne hnone rfl
    refine ⟨ht.kv.accounted, bytes, hget, hleft.sound, hleft.kv, fun other hother hne' => ?_⟩
    exact (hleft.charges other hother hne').trans (hs.charges other hother hne')
  refine (hbody _ _ (hs.enter hplain hne hcharged)).mono (fun a t ht => ?_) (fun e t ht => ?_)
    fun _ _ _ => .inl fun _ _ => trivial
  · obtain ⟨hacc, n, hget, hleft⟩ := hleave t ht.1
    exact ⟨hacc, n, hget, hleft, ht.2⟩
  · obtain ⟨hacc, n, hget, hleft⟩ := hleave t ht.1
    exact ⟨hacc, n, hget, hleft, ht.2⟩

theorem retains_withTemp
    (hm : ∀ base, Retains (fun s => Underway source model base (view s.1, s.2)) m) :
    Retains (fun s => Underway source model base (view s.1, s.2))
      (MemoryBudget.withTemp MemoryError.display name bytes m) := by
  intro s hs
  refine (ends_scope view hplain hne (Q := fun _ _ => True) (E := fun _ _ => True) hs (fun _ => trivial)
    fun b base hb => (hm base _ hb).mono (fun _ _ ht => ⟨ht, trivial⟩) (fun _ _ ht => ⟨ht, trivial⟩)
      fun _ _ hp => hp).mono (fun _ _ ht => ht.1) (fun _ _ ht => ht.1) fun _ _ hp => hp

/-- The body of a scope that has returned started in the state of a generation. -/
theorem of_withTemp_underway {a : α}
    (hm : ∀ base, Retains (fun s => Underway source model base (view s.1, s.2)) m)
    (hs : Underway source model base (view s.1, s.2))
    (hrun : MemoryBudget.withTemp MemoryError.display name bytes m s = (.ok a, t)) :
    ∃ b b', m (s.1, b) = (.ok a, (t.1, b')) ∧ ∃ base, Underway source model base (view s.1, b) := by
  have hbody : ∀ b base, Underway source model base (view s.1, b) →
      Ends m (s.1, b) (fun a t => Underway source model base (view t.1, t.2) ∧
        ∃ b b', m (s.1, b) = (.ok a, (t.1, b')) ∧ ∃ base, Underway source model base (view s.1, b))
        (fun e t => Underway source model base (view t.1, t.2) ∧ True) fun _ _ => True := by
    intro b base hb
    have hleft := hm base (s.1, b) hb
    unfold Ends at hleft ⊢
    rcases hrun : m (s.1, b) with ⟨a | e | p, u⟩ <;> rw [hrun] at hleft
    · exact ⟨hleft, b, u.2, hrun, base, hb⟩
    · exact ⟨hleft, trivial⟩
    · trivial
  exact ((ends_scope view hplain hne (E := fun _ _ => True)
    (Q := fun a u => ∃ b b', m (s.1, b) = (.ok a, (u, b')) ∧
      ∃ base, Underway source model base (view s.1, b)) hs (fun _ => trivial) hbody).of_ok hrun).2

end scope

end scopes

/-! ## The calls of a generation -/

theorem retains_computeLogits (htiled : Tiled source.files) (hidden output : List R) :
    Retains (Underway source model base) (model.computeLogits machine hidden output) :=
  retains_of_keeps fun _ hfile =>
    keeps_computeLogits (hfile ▸ readsKeep_serves htiled) model machine hidden output

omit [Add R] [Sub R] [Mul R] in
theorem retains_zeroedBuffer (len : Nat) (label : String) :
    Retains (Underway source model base) (zeroedBuffer (R := R) len label) :=
  retains_of_keeps fun _ _ => Standing.keeps_zeroedBuffer len label

omit [Add R] [Sub R] [Mul R] in
theorem retains_headroom (requiredBytes : Nat) :
    Retains (Underway source model base) (ensureLayerCacheHeadroom requiredBytes) :=
  retains_of_keeps fun _ _ => Standing.keeps_ensureLayerCacheHeadroom requiredBytes

omit [Add R] [Sub R] [Mul R] in
/-- A growth moves the charge of the K/V cache and no other. -/
theorem retains_growth (reserve : Ramforge.Reserve) (target : Nat) :
    Retains (Underway source model base)
      (onPart (fun s => (s.1.kv, s.2)) (fun t s => ({ s.1 with kv := t.1 }, t.2))
        (KvCache.growToWithBudget reserve target kvCharge) : Running R Unit) := by
  intro s hs
  obtain ⟨hkept, hcharged⟩ := KvCache.growToWithBudget_kept hs.kv reserve target
  have hplace : ∀ t : KvCache R × MemoryBudget, KvCache.Charged kvCharge t →
      (∀ name, name ≠ kvCharge → t.2.get name = s.2.get name) →
      Underway source model base ({ s.1 with kv := t.1 }, t.2) := by
    intro t ht hget
    refine ⟨sound_of_apart hs.sound plain_kvCharge rfl rfl ⟨ht.accounted, hget⟩, ht,
      fun name hplain hne => ?_⟩
    exact (hget name hne).trans (hs.charges name hplain hne)
  rw [ends_onPart]
  unfold Ends
  rcases hrun : KvCache.growToWithBudget reserve target kvCharge (s.1.kv, s.2) with ⟨u | e | p, t⟩ <;>
    rw [hrun] at hkept hcharged
  · apply hplace t hcharged
    intro name hne
    rcases Nat.lt_or_ge s.1.kv.maxSeqLen target with hlt | hle
    · obtain ⟨-, _, newBytes, -, -, halloc, -⟩ := hkept.overlap rfl hlt
      show t.2.allocations[name]? = _
      rw [show t.2.allocations = s.2.allocations.insert kvCharge newBytes from halloc,
        MapSum.getElem?_insert', if_neg hne]
      rfl
    · rw [show t = (s.1.kv, s.2) from hkept.enough rfl hle]
  · apply hplace t hcharged
    intro name _
    show t.2.allocations[name]? = _
    rw [show t.2.allocations = s.2.allocations from (hkept.atomic e rfl).2.1]
    rfl
  · trivial

variable {S : Type} {g : Generation R S}

omit [Add R] [Sub R] [Mul R] in
theorem retains_reserve (nLayers : Nat) :
    Retains (Underway source model base) (onHost (nextKvReserve nLayers) : Running R _) :=
  retains_of_keeps fun _ _ => Standing.keeps_onHost fun _ hs => hs

omit [Add R] [Sub R] [Mul R] in
theorem retains_growKv (nextPos : Nat) :
    Retains (Underway source model base) (g.growKv nextPos) := by
  refine Retains.self.bind fun s => ?_
  simp only
  split
  · exact (Keeps.ofResult _).retains.bind fun aligned => (Keeps.ofResult _).retains.bind fun newBytes =>
      (retains_headroom newBytes).bind fun _ => (retains_reserve _).bind fun reserve =>
        (retains_growth reserve _).mapErr _
  · exact .pure ()

omit [Add R] [Sub R] [Mul R] in
theorem retains_emit (text generatedText : List Char) :
    Retains (fun s => Underway source model base (s.1.forward, s.2)) (g.emit text generatedText) := by
  unfold emit
  split
  · exact .pure _
  · refine Retains.self.bind fun s => Retains.bind (.modify fun _ hs => hs) fun _ => ?_
    split
    · exact .throw _
    · exact .pure _

omit [Add R] [Sub R] [Mul R] in
/-- A call on the model within a generation. -/
theorem retains_onForward {α : Type} {m : Running R α} (hm : Retains (Underway source model base) m) :
    Retains (fun s => Underway source model base (s.1.forward, s.2)) (onForward m : Generating R α) :=
  hm.onPart (fun _ hs => hs) fun _ _ _ hc => hc

variable [One R] [Neg R] [Div R] [F32Math R] [F32Rotation R]

theorem retains_forward (htiled : Tiled source.files) (hplanned : Planned model) (tokenId : UInt32)
    (pos : Nat) (out : List R) :
    Retains (Underway source model base) (model.forwardSingleStreaming machine tokenId pos out) := by
  intro s hs
  obtain ⟨hist, hst⟩ := hs.kv.stores
  refine (ends_forward_known htiled hplanned hs.sound hst).mono (fun row t ht => ?_) (fun e t ht => ?_)
    fun _ _ hp => hp
  · obtain ⟨hat, hidden, norm, hadvanced, -⟩ := ht
    exact hs.of_at hat rfl rfl rfl (hadvanced.charged hs.kv)
  · obtain ⟨hat, hkv | ⟨⟨hidden, hadvanced⟩, -⟩⟩ := ht
    · exact hs.of_at hat rfl rfl rfl (hkv ▸ hs.kv)
    · exact hs.of_at hat rfl rfl rfl (hadvanced.charged hs.kv)

theorem retains_promptPass (htiled : Tiled source.files) (hplanned : Planned g.model) (hidden : List R) :
    Retains (Underway source g.model base) (g.promptPass hidden) := by
  refine Retains.foldlM (fun hidden token => ?_) _ _
  exact retains_forward htiled hplanned token.1 token.2 hidden

variable [LinearOrder R] [F32Exp R]

omit [Mul R] [Neg R] [F32Math R] [F32Rotation R] in
theorem retains_sampleToken (index : Nat) (logits : List R) :
    Retains (Underway source g.model base) (g.sampleToken index logits) := by
  refine (retains_headroom _).bind fun _ => Retains.bind ?_ fun _ => .pure _
  exact retains_withTemp (κ := ForwardState R) id ⟨by decide, by decide⟩ (by decide) fun base =>
    (Keeps.ofResult _).retains

theorem retains_round (htiled : Tiled source.files) (hplanned : Planned g.model) (index : Nat)
    (l : GenerationLocals R) :
    Retains (fun s => Underway source g.model base (s.1.forward, s.2)) (g.round index l) := by
  refine (retains_onForward (retains_computeLogits htiled _ _)).bind fun logits =>
    (retains_onForward (retains_sampleToken index logits)).bind fun nextToken => ?_
  split
  · exact .pure _
  refine (Retains.resume _).bind fun decoded => (retains_emit _ _).bind fun text =>
    (Retains.okOr _ _).bind fun nextPos => ?_
  split
  · exact .pure _
  split
  · exact .pure _
  refine (retains_onForward (retains_growKv nextPos)).bind fun _ =>
    (retains_onForward (retains_forward htiled hplanned _ _ _)).bind fun hidden => ?_
  simp only
  split
  · exact .pure _
  · exact .pure _

/-- The closure under `tmp:logits`. -/
def underLogits (g : Generation R S) (hidden : List R) : Generating R (GenerationLocals R) := do
  let logits ← onForward (zeroedBuffer g.model.config.vocabSize "logits buffer")
  let hidden ← onForward (g.promptPass hidden)
  forBreak g.round g.maxTokens 0
    { hidden
      logits
      generatedTokens := []
      generatedText := []
      decoder := TokenDecoder.new
      currentPos := g.promptTokens.length
      stopReason := .maxTokens
      eosEncountered := false }

/-- The closure under `tmp:hidden`. -/
def underHidden (g : Generation R S) (logitsBytes : Nat) : Generating R (GenerationLocals R) := do
  let hidden ← onForward (zeroedBuffer g.model.config.embeddingLength "hidden activation")
  MemoryBudget.withTemp MemoryError.display "tmp:logits" logitsBytes (g.underLogits hidden)

theorem run_eq (g : Generation R S) (hiddenBytes logitsBytes : Nat) :
    g.run hiddenBytes logitsBytes =
      MemoryBudget.withTemp MemoryError.display "tmp:hidden" hiddenBytes (g.underHidden logitsBytes) :=
  rfl

theorem retains_underLogits (htiled : Tiled source.files) (hplanned : Planned g.model) (hidden : List R) :
    Retains (fun s => Underway source g.model base (s.1.forward, s.2)) (g.underLogits hidden) := by
  refine (retains_onForward (retains_zeroedBuffer _ _)).bind fun logits =>
    (retains_onForward (retains_promptPass htiled hplanned hidden)).bind fun hidden => ?_
  exact .forBreak (fun index l => retains_round htiled hplanned index l) _ _ _

theorem retains_underHidden (htiled : Tiled source.files) (hplanned : Planned g.model)
    (logitsBytes : Nat) :
    Retains (fun s => Underway source g.model base (s.1.forward, s.2)) (g.underHidden logitsBytes) := by
  refine (retains_onForward (retains_zeroedBuffer _ _)).bind fun hidden => ?_
  exact retains_withTemp GenerationState.forward ⟨by decide, by decide⟩ (by decide) fun base =>
    retains_underLogits htiled hplanned hidden

/-- The charges of a generation are given back, but for the one of its K/V cache. -/
theorem retains_run (htiled : Tiled source.files) (hplanned : Planned g.model)
    (hiddenBytes logitsBytes : Nat) :
    Retains (fun s => Underway source g.model base (s.1.forward, s.2))
      (g.run hiddenBytes logitsBytes) := by
  rw [run_eq]
  exact retains_withTemp GenerationState.forward ⟨by decide, by decide⟩ (by decide) fun base =>
    retains_underHidden htiled hplanned logitsBytes

end Generation
end Ramforge
