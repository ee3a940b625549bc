/-
What a forward pass leaves: its charges and caches, and the K/V cache with the token or
without it.
-/
import Ramforge.Runtime.ForwardCommit

namespace Ramforge

open Rust Rust.Exec GgufDataSource MemoryBudget ForwardPass

namespace Standing

variable {R : Type}

/-- The same, of any K/V cache. -/
def anyHistory (f : Standing R) : Standing R := { f with history := fun _ => True }

variable {f : Standing R} {own : List String} {live : Option Nat} {s : ForwardState R × MemoryBudget}

theorem At.anyHistory (h : f.At own live s) (kv : KvCache R) :
    f.anyHistory.At own live ({ s.1 with kv }, s.2) :=
  ⟨h.coherent, h.file, h.weights, trivial, h.live, h.held, h.charges⟩

theorem At.ofAnyHistory (h : f.anyHistory.At own live s) (hkv : f.history s.1.kv) :
    f.At own live s :=
  ⟨h.coherent, h.file, h.weights, hkv, h.live, h.held, h.charges⟩

end Standing

namespace ForwardPass

open Running Standing StreamingLlamaModel

variable {R : Type} [Zero R] [One R] [Add R] [Sub R] [Neg R] [Mul R] [Div R] [F32 R] [F32Math R]
  [F32Rotation R] {f : Standing R} {own : List String} {s : ForwardState R × MemoryBudget}
  {hist : KvHistory R} {live : Option Nat} {machine : Machine} {model : StreamingLlamaModel R}

omit [Zero R] [One R] [Add R] [Sub R] [Neg R] [Mul R] [Div R] [F32 R] [F32Math R] [F32Rotation R] in
/-- The sizes of a pass depend on the model and the position only. -/
theorem forwardSizes_agrees {σ τ : Type} (cfg : LlamaConfig R) (attnBiasPresent : Bool) (pos : Nat) :
    Agrees (forwardSizes cfg attnBiasPresent pos : Exec σ String _)
      (forwardSizes cfg attnBiasPresent pos : Exec τ String _) := by
  have hbias : ∀ qDim kvDim, Agrees (biasFloats attnBiasPresent qDim kvDim : Exec σ String _)
      (biasFloats attnBiasPresent qDim kvDim : Exec τ String _) := by
    intro qDim kvDim
    unfold biasFloats
    split
    · exact (Agrees.okOr _ _).bind fun _ => .okOr _ _
    · exact .pure _
  exact (Agrees.okOr _ _).bind fun _ => (Agrees.okOr _ _).bind fun _ => (Agrees.okOr _ _).bind fun _ =>
    (hbias _ _).bind fun _ => (Agrees.okOr _ _).bind fun _ => (Agrees.okOr _ _).bind fun _ =>
      (Agrees.okOr _ _).bind fun _ => (Agrees.okOr _ _).bind fun _ => (Agrees.okOr _ _).bind fun _ =>
        (Agrees.okOr _ _).bind fun _ => (Agrees.okOr _ _).bind fun _ => .pure _

omit [Zero R] [One R] [Add R] [Sub R] [Neg R] [Mul R] [Div R] [F32 R] [F32Math R] [F32Rotation R] in
/-- A model with a layer has something to charge: the tables of what is staged. -/
theorem actBytes_pos {σ : Type} {cfg : LlamaConfig R} {attnBiasPresent : Bool} {pos : Nat}
    {sizes : ForwardSizes} {t t' : σ} (hlayers : 0 < cfg.blockCount)
    (h : forwardSizes cfg attnBiasPresent pos t = (.ok sizes, t')) : 0 < sizes.actBytes := by
  obtain ⟨kvDim, -, h⟩ := of_okOr_bind_ok h
  obtain ⟨qDim, -, h⟩ := of_okOr_bind_ok h
  obtain ⟨seq, -, h⟩ := of_okOr_bind_ok h
  obtain ⟨bias, t₁, -, h⟩ := of_bind_ok h
  obtain ⟨floats, -, h⟩ := of_okOr_bind_ok h
  obtain ⟨stagedKvFloats, -, h⟩ := of_okOr_bind_ok h
  obtain ⟨payload, -, h⟩ := of_okOr_bind_ok h
  obtain ⟨table, htable, h⟩ := of_okOr_bind_ok h
  obtain ⟨staged, hstaged, h⟩ := of_okOr_bind_ok h
  obtain ⟨nonStaged, -, h⟩ := of_okOr_bind_ok h
  obtain ⟨act, hact, h⟩ := of_okOr_bind_ok h
  cases h
  obtain ⟨slots, hslots, htable⟩ := Option.bind_eq_some_iff.mp htable
  obtain ⟨-, rfl⟩ := checkedMul_eq_some.mp hslots
  obtain ⟨-, rfl⟩ := checkedMul_eq_some.mp htable
  obtain ⟨-, rfl⟩ := checkedAdd_eq_some.mp hstaged
  obtain ⟨-, rfl⟩ := checkedAdd_eq_some.mp hact
  show 0 < nonStaged + (payload + cfg.blockCount * 2 * sizeOfVec)
  unfold sizeOfVec
  omega

omit [One R] [Sub R] [Neg R] in
/-- What `rmsnorm` has returned, if it has. -/
theorem ends_onLocal_rmsnorm {σ : Type} (out x weight : List R) (eps : R) (t : σ) :
    Ends (onLocal out (CpuBackend.rmsnorm x weight eps) : Exec σ String (Unit × List R)) t
      (fun r t' => t' = t ∧ CpuBackend.rmsnorm x weight eps out = (.ok r.1, r.2)) (fun _ _ => False)
      fun _ _ => True := by
  rw [ends_onLocal]
  unfold Ends
  rcases hrun : (CpuBackend.rmsnorm x weight eps : Exec (List R) String Unit) out with ⟨u | e | p, y⟩
  · exact ⟨rfl, rfl⟩
  · unfold CpuBackend.rmsnorm orExpect orPanic at hrun
    split at hrun <;> cases hrun
  · trivial

omit [One R] [Add R] [Neg R] [Div R] [F32Math R] [F32Rotation R] in
theorem keeps_persistentF32View (hreads : ReadsKeep f.file) (weight : PersistentWeight R) :
    Keeps (f.At own live) (Pass.persistentF32View weight) := by
  cases weight with
  | resident tensor => exact ComputeDispatch.keeps_tensorF32View tensor
  | streamed desc => exact keeps_onHost (hreads.toF32Vec _)

omit [One R] [Neg R] [Div R] [F32Math R] [F32Rotation R] in
/-- The output norm is read, whatever the K/V cache holds. -/
theorem ends_outputNorm (hknows : Knows f machine model) (h : f.anyHistory.At own live s) :
    Ends (Pass.persistentF32View model.outputNorm) s
      (fun norm t => f.anyHistory.At own live t ∧ t.1.kv = s.1.kv ∧ f.norm norm)
      (fun e t => f.anyHistory.At own live t ∧ t.1.kv = s.1.kv ∧ ∃ u u', OnHost f.file u.1.host ∧
        Pass.persistentF32View model.outputNorm u = (.err e, u')) fun _ _ => True := by
  have hkept : f.anyHistory.At own live (Pass.persistentF32View model.outputNorm s).2 :=
    keeps_persistentF32View (f := f.anyHistory) hknows.reads model.outputNorm s h
  have hkv : (Pass.persistentF32View model.outputNorm s).2.1.kv = s.1.kv := by
    cases model.outputNorm with
    | resident tensor =>
      exact ComputeDispatch.keeps_tensorF32View (I := fun t => t.1.kv = s.1.kv) tensor s rfl
    | streamed desc => rfl
  unfold Ends
  rcases hrun : Pass.persistentF32View model.outputNorm s with ⟨norm | e | p, t⟩ <;>
    rw [hrun] at hkept hkv
  · exact ⟨hkept, hkv, hknows.norms s norm t h.file hrun⟩
  · exact ⟨hkept, hkv, s, t, h.file, hrun⟩
  · trivial

/-- A pass under its charge. -/
theorem ends_body {p : Pass R} (hknows : Knows f p.machine p.model) (h : f.At own none s)
    (hown : chargeName ∈ own) (hhistory : f.history = (· = s.1.kv))
    (hst : KvCache.Stores s.1.kv hist)
    (hshape : s.1.kv.nLayers = p.model.config.blockCount ∧
      s.1.kv.nKvHeads = p.model.config.headCountKv ∧ s.1.kv.headDim = p.model.config.headDim)
    (tokenId : Nat) (finalHidden : List R) :
    Ends (p.body tokenId finalHidden) s
      (fun row t => f.anyHistory.At own none t ∧ ∃ l norm, RanAll f p tokenId l ∧
        p.commit l.staged s.1.kv = (.ok (), t.1.kv) ∧ f.norm norm ∧
        CpuBackend.rmsnorm l.acts.hidden norm p.model.config.rmsEps finalHidden = (.ok (), row))
      (fun e t => f.anyHistory.At own none t ∧ (t.1.kv = s.1.kv ∨ ∃ l, RanAll f p tokenId l ∧
        p.commit l.staged s.1.kv = (.ok (), t.1.kv) ∧
        ∃ u u', OnHost f.file u.1.host ∧
          Pass.persistentF32View p.model.outputNorm u = (.err e, u')))
      fun _ _ => True := by
  have hstill : ∀ t : ForwardState R × MemoryBudget, f.At own none t → t.1.kv = s.1.kv :=
    fun t ht => by
      have hkv := ht.history
      rw [hhistory] at hkv
      exact hkv
  unfold Pass.body
  refine Ends.bind ((ends_runLayers hknows h hown tokenId).mono (fun _ _ hl => hl)
    (fun e t ht => ⟨ht.anyHistory t.1.kv, .inl (hstill t ht)⟩) fun _ _ hp => hp) fun l t ⟨ht, hran⟩ => ?_
  have hkv := hstill t ht
  obtain ⟨hlength, hrows⟩ := hran.rows
  have hcommit := commit_run hst p (hlength.trans hshape.1.symm) (by
    rw [hshape.2.1, hshape.2.2]
    exact hrows)
  rw [onKv, ends_bind, ends_onFst, ends_onPart, hkv]
  rcases hcommit with ⟨-, kv', hrun, -⟩ | ⟨-, e, hrun⟩
  · rw [ends_of_ok hrun]
    refine Ends.bind ((ends_outputNorm hknows (ht.anyHistory kv')).mono (fun _ _ hu => hu)
      (fun e u hu => ?_) fun _ _ _ => trivial) fun norm u hu => ?_
    · obtain ⟨hat, hkv', hview⟩ := hu
      refine ⟨hat, .inr ⟨l, hran, ?_, hview⟩⟩
      rw [hkv']
      exact hrun
    · obtain ⟨hat, hkv', hnorm⟩ := hu
      refine Ends.bind ((ends_onLocal_rmsnorm finalHidden _ norm _ u).mono (fun _ _ hr => hr)
        (fun _ _ hf => hf.elim) fun _ _ _ => trivial) fun r u' hr => ?_
      obtain ⟨hu', hrow⟩ := hr
      rw [hu']
      refine ⟨hat, l, norm, hran, ?_, hnorm, hrow⟩
      rw [hkv']
      exact hrun
  · rw [ends_of_err hrun]
    exact ⟨ht.anyHistory _, .inl rfl⟩

/-- What a call that has returned has done to the K/V cache, and how it got its result. -/
def Completed (f : Standing R) (machine : Machine) (model : StreamingLlamaModel R)
    (tokenId pos : Nat) (kv : KvCache R) (out row : List R) (kv' : KvCache R) : Prop :=
  ∃ hidden norm, Advanced f machine model tokenId pos kv hidden kv' ∧ f.norm norm ∧
    CpuBackend.rmsnorm hidden norm model.config.rmsEps out = (.ok (), row)

/-- A call that has failed has left the K/V cache alone, or could not read the output norm after
the commit. -/
def Stopped (f : Standing R) (machine : Machine) (model : StreamingLlamaModel R)
    (tokenId pos : Nat) (kv : KvCache R) (error : String) (kv' : KvCache R) : Prop :=
  kv' = kv ∨ (∃ hidden, Advanced f machine model tokenId pos kv hidden kv') ∧
    ∃ u u', OnHost f.file u.1.host ∧ Pass.persistentF32View model.outputNorm u = (.err error, u')

theorem ends_forward (hknows : Knows f machine model) (h : f.At own none s)
    (hown : chargeName ∉ own) (hhistory : f.history = (· = s.1.kv))
    (hst : KvCache.Stores s.1.kv hist) (tokenId : UInt32) (pos : Nat) (finalHidden : List R) :
    Ends (model.forwardSingleStreaming machine tokenId pos finalHidden) s
      (fun row t => f.anyHistory.At own none t ∧
        Completed f machine model tokenId.toNat pos s.1.kv finalHidden row t.1.kv)
      (fun e t => f.anyHistory.At own none t ∧
        Stopped f machine model tokenId.toNat pos s.1.kv e t.1.kv) fun _ _ => True := by
  have hstill : ∀ t : ForwardState R × MemoryBudget, f.At own none t → t.1.kv = s.1.kv :=
    fun t ht => by
      have hkv := ht.history
      rw [hhistory] at hkv
      exact hkv
  unfold StreamingLlamaModel.forwardSingleStreaming checkCall
  simp only [bind_assoc, ends_bind, ends_self, ends_failIf]
  refine ⟨fun _ => ⟨h.anyHistory _, .inl rfl⟩, fun hpos => ⟨fun _ => ⟨h.anyHistory _, .inl rfl⟩,
    fun hshape => ⟨fun _ => ⟨h.anyHistory _, .inl rfl⟩, fun _ => ?_⟩⟩⟩
  rw [not_not] at hpos
  simp only [not_or, not_not] at hshape
  obtain ⟨r, hsizes, hsizes'⟩ := forwardSizes_agrees (σ := ForwardState R × MemoryBudget) (τ := Unit)
    model.config model.attnBiasPresent pos
  cases r with
  | err e => exact (ends_of_err (hsizes s)).mpr ⟨h.anyHistory _, .inl rfl⟩
  | panic p =>
    unfold Ends
    rw [hsizes s]
    trivial
  | ok sizes =>
    rw [ends_of_ok (hsizes s)]
    have hact := actBytes_pos (hshape.1 ▸ hst.sized.layers) (hsizes s)
    refine (ends_keeps (keeps_ensureLayerCacheHeadroom _) h).mono (fun _ t ht => ?_)
      (fun e t ht => ⟨ht.anyHistory t.1.kv, .inl (hstill t ht)⟩) fun _ _ hp => hp
    have hkv := hstill t ht
    refine Standing.ends_withTemp (f := f.anyHistory)
      (Q := fun row u => Completed f machine model tokenId.toNat pos s.1.kv finalHidden row u.kv)
      (E := fun e u => Stopped f machine model tokenId.toNat pos s.1.kv e u.kv)
      (ht.anyHistory t.1.kv) plain_chargeName hown hact (fun _ => .inl hkv) fun u hu hat => ?_
    have hukv : u.1.kv = s.1.kv := by rw [hu, hkv]
    have hat' : f.At (chargeName :: own) none u := hat.ofAnyHistory (by rw [hhistory]; exact hukv)
    refine (ends_body (p := { machine, model, pos, sizes }) hknows hat' List.mem_cons_self
      (by rw [hhistory, hukv]) (hukv ▸ hst) (hukv ▸ hshape) tokenId.toNat finalHidden).mono
      (fun row v hv => ?_) (fun e v hv => ?_) fun _ _ hp => hp
    · obtain ⟨hat, l, norm, hran, hcommit, hnorm, hrow⟩ := hv
      rw [hukv] at hcommit
      exact ⟨hat, l.acts.hidden, norm, ⟨hpos, hshape, sizes, l, hsizes' (), hran, rfl, hcommit⟩,
        hnorm, hrow⟩
    · obtain ⟨hat, hleft⟩ := hv
      rw [hukv] at hleft
      rcases hleft with hleft | ⟨l, hran, hcommit, hview⟩
      · exact ⟨hat, .inl hleft⟩
      · exact ⟨hat, .inr ⟨⟨l.acts.hidden, hpos, hshape, sizes, l, hsizes' (), hran, rfl, hcommit⟩,
          hview⟩⟩

/-! ## Nothing known of the file -/

/-- The K/V cache and the charges are known, and nothing of the file. -/
def unread (kv : KvCache R) (b : MemoryBudget) : Standing R where
  file _ := True
  weights _ _ := True
  embedding _ _ := True
  norm _ := True
  logits _ _ _ := True
  history := (· = kv)
  base := b

omit [One R] [Neg R] [Div R] [F32Math R] [F32Rotation R] in
theorem knows_unread (kv : KvCache R) (b : MemoryBudget) (machine : Machine)
    (model : StreamingLlamaModel R) : Knows (unread kv b) machine model :=
  ⟨fun _ _ _ _ => trivial, fun _ _ _ _ _ _ _ => trivial, fun _ _ _ _ _ _ => trivial,
    fun _ _ _ _ _ => trivial, fun _ _ _ _ _ _ _ => trivial⟩

/-- No layer is loaded and not cached. -/
def Idle (b : MemoryBudget) : Prop := b.namesUnder loadedPrefix = []

theorem idle_iff {b : MemoryBudget} :
    Idle b ↔ ∀ name, Text.startsWith name loadedPrefix = true → b.get name = none := by
  unfold Idle
  rw [List.eq_nil_iff_forall_not_mem]
  refine forall_congr' fun name => ?_
  rw [mem_namesUnder, ← Option.not_isSome_iff_eq_none]
  tauto

omit [Zero R] [One R] [Add R] [Sub R] [Neg R] [Mul R] [Div R] [F32 R] [F32Math R] [F32Rotation R] in
theorem at_unread (hcoherent : LayerCache.Coherent (s.1.cache, s.2)) (hidle : Idle s.2) :
    (unread s.1.kv s.2).At [] none s :=
  ⟨hcoherent, trivial, fun _ _ _ => trivial, rfl,
    fun name hsome hunder => absurd (idle_iff.mp hidle name hunder) (Option.isSome_iff_ne_none.mp hsome),
    fun _ hname => absurd hname List.not_mem_nil, fun _ _ _ => rfl⟩

/-- The caches and charges after a call: those of the layer cache are its own, no loaded layer
is left over, and every other charge is what it was. -/
structure Tidy (b : MemoryBudget) (t : ForwardState R × MemoryBudget) : Prop where
  coherent : LayerCache.Coherent (t.1.cache, t.2)
  idle : Idle t.2
  charges : ∀ name, Text.startsWith name LayerCache.allPrefix = false → t.2.get name = b.get name

omit [Zero R] [One R] [Add R] [Sub R] [Neg R] [Mul R] [Div R] [F32 R] [F32Math R] [F32Rotation R] in
theorem idle_of_at {t : ForwardState R × MemoryBudget} (h : f.At own none t) : Idle t.2 := by
  refine idle_iff.mpr fun name hunder => ?_
  by_contra hsome
  obtain ⟨i, hi, -⟩ := h.live name (Option.isSome_iff_ne_none.mpr hsome) hunder
  cases hi

omit [Zero R] [One R] [Add R] [Sub R] [Neg R] [Mul R] [Div R] [F32 R] [F32Math R] [F32Rotation R] in
theorem tidy_of_at {t : ForwardState R × MemoryBudget} (hidle : Idle f.base)
    (h : f.At [] none t) : Tidy f.base t := by
  refine ⟨h.coherent, idle_of_at h, fun name hcache => ?_⟩
  by_cases hunder : Text.startsWith name loadedPrefix = true
  · rw [idle_iff.mp (idle_of_at h) name hunder, idle_iff.mp hidle name hunder]
  · exact h.charges name ⟨hcache, Bool.not_eq_true _ ▸ hunder⟩ List.not_mem_nil

end ForwardPass

namespace StreamingLlamaModel

open ForwardPass

/-! ## The small file -/

/-- Exact where nothing is turned: every angle has the cosine 1. -/
@[reducible] def levelRotation : F32Rotation ℚ where
  isFinite _ := true
  le a b := decide (a ≤ b)
  powf _ _ := 1
  cos _ := 1
  sin _ := 0

def sampleMachine : Machine where
  build := .release
  debugAssertions := true
  backend := CpuBackend.scalar false .inOrder
  capacity _ len := len
  le_capacity _ _ := Nat.le_refl _

def sampleKv : KvCache ℚ where
  nLayers := 1
  nKvHeads := 2
  headDim := 4
  maxSeqLen := 4
  seqLen := 0
  kCaches := [List.replicate 32 0]
  vCaches := [List.replicate 32 0]
  bytesPerLayer := 256

def started : ForwardState ℚ × MemoryBudget :=
  ({ stats := .new
     cacheStats := .new
     host := Planner.sampleHost Planner.sampleGguf
     cache := LayerCache.new 4096
     kv := sampleKv }, (opened 10000).2.2)

def sampleForward (model : StreamingLlamaModel ℚ) : Running ℚ (List ℚ) :=
  @forwardSingleStreaming ℚ _ _ _ _ _ _ _ _ levelMath levelRotation model sampleMachine 3 0
    (List.replicate 8 0)

/-- A call on the loaded model returns. -/
theorem exists_of_loadSample {σ α : Type} (call : StreamingLlamaModel ℚ → Exec σ String α) {u : σ}
    (h : ((loadSample >>= fun model => resume (call model u).1) (opened 10000)).1.map
      (fun _ => true) = .ok true) :
    ∃ model s a v, loadSample (opened 10000) = (.ok model, s) ∧ call model u = (.ok a, v) := by
  obtain ⟨a, ha, -⟩ := Outcome.of_map_ok h
  obtain ⟨_, ha⟩ := exists_of_fst_ok ha
  obtain ⟨model, s, hmodel, hcall⟩ := of_bind_ok ha
  exact ⟨model, s, a, _, hmodel, Prod.ext (Prod.mk.inj hcall).1 rfl⟩

theorem loadSample_unique {model model' : StreamingLlamaModel ℚ}
    {s t t' : ResidencyStats × Host × MemoryBudget} (h : loadSample s = (.ok model, t))
    (h' : loadSample s = (.ok model', t')) : model = model' :=
  Outcome.ok.inj (Prod.mk.inj (h.symm.trans h')).1

theorem exists_sampleForward : ∃ model s row t, loadSample (opened 10000) = (.ok model, s) ∧
    sampleForward model started = (.ok row, t) :=
  exists_of_loadSample sampleForward (by decide +kernel)

theorem coherent_started : LayerCache.Coherent (started.1.cache, started.2) := by
  have hnew : MemoryBudget.new 10000 = .ok started.2 := rfl
  exact LayerCache.coherent_new (by decide) hnew

theorem idle_started : Idle started.2 := by
  unfold Idle
  decide +kernel

theorem stores_started : KvCache.Stores started.1.kv .empty := by
  have hnew : KvCache.new KvCache.granted 1 2 4 4 = .ok sampleKv := rfl
  exact (KvCache.new_stores hnew).1

/-! ## Every call -/

variable {R : Type} [Zero R] [One R] [Add R] [Sub R] [Neg R] [Mul R] [Div R] [F32 R] [F32Math R]
  [F32Rotation R] {machine : Machine} {model : StreamingLlamaModel R}
  {s t : ForwardState R × MemoryBudget} {hist : KvHistory R} {tokenId : UInt32} {pos : Nat}
  {out : List R}

/-- However a call returns, it leaves no charge of its own, and the layer cache owns its charges. -/
theorem forward_tidy (hcoherent : LayerCache.Coherent (s.1.cache, s.2)) (hidle : Idle s.2)
    (hst : KvCache.Stores s.1.kv hist) :
    Ends (model.forwardSingleStreaming machine tokenId pos out) s (fun _ => Tidy s.2)
      (fun _ => Tidy s.2) fun _ _ => True :=
  (ends_forward (knows_unread s.1.kv s.2 machine model) (at_unread hcoherent hidle) List.not_mem_nil
    rfl hst tokenId pos out).mono (fun _ _ ht => tidy_of_at hidle ht.1)
    (fun _ _ ht => tidy_of_at hidle ht.1) fun _ _ hp => hp

theorem forward_tidy_small : ∃ model s row t, loadSample (opened 10000) = (.ok model, s) ∧
    sampleForward model started = (.ok row, t) ∧ Tidy started.2 t := by
  obtain ⟨model, s, row, t, hmodel, hrun⟩ := exists_sampleForward
  have htidy := @forward_tidy ℚ _ _ _ _ _ _ _ _ levelMath levelRotation sampleMachine model started
    .empty 3 0 (List.replicate 8 0) coherent_started idle_started stores_started
  exact ⟨model, s, row, t, hmodel, hrun, htidy.of_ok hrun⟩

/-- The K/V cache has the keys and values of one more token, for every layer. -/
def TokenAdded (kv kv' : KvCache R) (hist : KvHistory R) : Prop :=
  ∃ rows, rows.length = kv.nLayers ∧
    (∀ row ∈ rows, row.1.length = kv.nKvHeads * kv.headDim ∧
      row.2.length = kv.nKvHeads * kv.headDim) ∧
    KvCache.Stores kv' (hist.token rows) ∧ KvCache.SameShape kv kv' ∧ kv'.maxSeqLen = kv.maxSeqLen

/-- A call adds its token to all layers of the K/V cache or to none.  Only a call that could not
read the output norm fails with the token added. -/
theorem forward_kv (hcoherent : LayerCache.Coherent (s.1.cache, s.2)) (hidle : Idle s.2)
    (hst : KvCache.Stores s.1.kv hist) :
    Ends (model.forwardSingleStreaming machine tokenId pos out) s
      (fun _ t => pos = hist.position ∧ TokenAdded s.1.kv t.1.kv hist)
      (fun e t => t.1.kv = s.1.kv ∨ TokenAdded s.1.kv t.1.kv hist ∧
        ∃ u u', Pass.persistentF32View model.outputNorm u = (.err e, u'))
      fun _ _ => True := by
  refine (ends_forward (knows_unread s.1.kv s.2 machine model) (at_unread hcoherent hidle)
    List.not_mem_nil rfl hst tokenId pos out).mono (fun _ t ht => ?_) (fun e t ht => ?_)
    fun _ _ hp => hp
  · obtain ⟨-, hidden, norm, hadvanced, -⟩ := ht
    exact ⟨hadvanced.position.trans hst.seqLen_eq, hadvanced.stores hst⟩
  · obtain ⟨-, hleft | ⟨⟨hidden, hadvanced⟩, u, u', -, hview⟩⟩ := ht
    · exact .inl hleft
    · exact .inr ⟨hadvanced.stores hst, u, u', hview⟩

theorem forward_kv_small : ∃ model s row t, loadSample (opened 10000) = (.ok model, s) ∧
    sampleForward model started = (.ok row, t) ∧ TokenAdded sampleKv t.1.kv .empty := by
  obtain ⟨model, s, row, t, hmodel, hrun⟩ := exists_sampleForward
  have hkv := @forward_kv ℚ _ _ _ _ _ _ _ _ levelMath levelRotation sampleMachine model started
    .empty 3 0 (List.replicate 8 0) coherent_started idle_started stores_started
  exact ⟨model, s, row, t, hmodel, hrun, (hkv.of_ok hrun).2⟩

end StreamingLlamaModel
end Ramforge
