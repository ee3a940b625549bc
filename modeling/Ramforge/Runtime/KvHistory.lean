/-
A K/V cache as a list of positions for each layer.

`KvHistory` is what the cache is for: the number of committed positions, and the
last vectors appended for each layer at each position.  The flat buffers, their
strides and their growth do not appear in it.
-/
import Ramforge.Runtime.KvStep

namespace Ramforge

open Rust Rust.Exec Rust.Rows

structure KvHistory (α : Type) where
  position : Nat
  kRows : Nat → Nat → Option (List α)
  vRows : Nat → Nat → Option (List α)

/-- A call of the owner of the cache.  A budgeted growth brings the budget as it is
at that moment. -/
inductive KvCall (α : Type) where
  | append (layer : Nat) (k v : List α)
  | increment (debugAssertions : Bool)
  | growTo (reserve : Reserve) (capacity : Nat)
  | growToWithBudget (reserve : Reserve) (capacity : Nat) (budget : MemoryBudget)
      (chargeName : String)
  | clear

namespace KvHistory

variable {α : Type}

def empty : KvHistory α := { position := 0, kRows := fun _ _ => none, vRows := fun _ _ => none }

/-- What a call that was answered with `Ok` means for the history. -/
def after (h : KvHistory α) : KvCall α → KvHistory α
  | .append layer k v =>
    { h with
      kRows := KvCache.record h.kRows layer h.position k
      vRows := KvCache.record h.vRows layer h.position v }
  | .increment _ => { h with position := h.position + 1 }
  | .growTo .. => h
  | .growToWithBudget .. => h
  | .clear => { h with position := 0 }

end KvHistory

namespace KvCall

variable {α : Type} [Zero α]

def run : KvCall α → Exec (KvCache α) String Unit
  | .append layer k v => KvCache.append layer k v
  | .increment debugAssertions => KvCache.incrementSeqLen debugAssertions
  | .growTo reserve capacity => KvCache.growTo reserve capacity
  | .growToWithBudget reserve capacity budget chargeName => fun c =>
    let r := KvCache.growToWithBudget reserve capacity chargeName (c, budget)
    (r.1, r.2.1)
  | .clear => KvCache.clear

/-- One call, on the cache and on the history of what was answered with `Ok`. -/
def step (s : KvCache α × KvHistory α) (call : KvCall α) : KvCache α × KvHistory α :=
  ((call.run s.1).2,
    match (call.run s.1).1 with
    | .ok _ => s.2.after call
    | _ => s.2)

/-- The states of a run, the first one included. -/
def states (s : KvCache α × KvHistory α) : List (KvCall α) → List (KvCache α × KvHistory α)
  | [] => [s]
  | call :: rest => s :: states (step s call) rest

end KvCall

namespace KvCache

variable {α : Type} [Zero α] {c : KvCache α} {h : KvHistory α} {ε : Type}

/-- The cache stores the history. -/
structure Stores (c : KvCache α) (h : KvHistory α) : Prop where
  sized : Sized c.nLayers c.nKvHeads c.headDim c.maxSeqLen
  seqLen_eq : c.seqLen = h.position
  k : Holds (c.nKvHeads * c.headDim) c.maxSeqLen c.nLayers h.kRows c.kCaches
  v : Holds (c.nKvHeads * c.headDim) c.maxSeqLen c.nLayers h.vRows c.vCaches
  k_lt : ∀ layer p, c.maxSeqLen ≤ p → h.kRows layer p = none
  v_lt : ∀ layer p, c.maxSeqLen ≤ p → h.vRows layer p = none

/-- The dimensions stay what they were. -/
structure SameShape (c c' : KvCache α) : Prop where
  layers : c'.nLayers = c.nLayers
  heads : c'.nKvHeads = c.nKvHeads
  dim : c'.headDim = c.headDim

/-! ## Reading -/

section reading

variable {rows : Nat → Nat → Option (List α)} {caches : KvCache α → List (List α)} {layer : Nat}

theorem getHistory_run (hs : Sized c.nLayers c.nKvHeads c.headDim c.maxSeqLen)
    (hb : Holds (c.nKvHeads * c.headDim) c.maxSeqLen c.nLayers rows (caches c))
    (hlayer : layer < c.nLayers) (hlen : c.seqLen ≤ c.maxSeqLen) (name : String) :
    (getHistory caches name layer : Exec _ ε _) c =
      (.ok ((List.range c.seqLen).flatMap fun p =>
        rowOr (c.nKvHeads * c.headDim) (rows layer p)), c) := by
  obtain ⟨buffer, hbuf, hblen⟩ := hb.get hlayer
  have hmul : c.seqLen * (c.nKvHeads * c.headDim) ≤ c.maxSeqLen * (c.nKvHeads * c.headDim) :=
    Nat.mul_le_mul_right _ hlen
  have helems := hs.elems_lt
  have hrows : slice buffer 0 (c.seqLen * (c.nKvHeads * c.headDim)) =
      some ((List.range c.seqLen).flatMap fun p =>
        rowOr (c.nKvHeads * c.headDim) (rows layer p)) := by
    rw [slice_eq_some (Nat.zero_le _) (by omega), List.drop_zero, Nat.sub_zero, take_eq_rows]
    refine congrArg some (List.flatMap_congr fun p hp => ?_)
    exact hb.row_eq layer buffer hbuf p (Nat.lt_of_lt_of_le (List.mem_range.mp hp) hlen)
  rw [getHistory, self_bind_run, width_run hs.width_lt, expect_some, pure_bind_run,
    checkedMul_of_lt (by omega), expect_some, pure_bind_run, hbuf, expect_some, pure_bind_run,
    hrows]
  rfl

/-- With more positions committed than there are rows the read panics. -/
theorem getHistory_panic (hs : Sized c.nLayers c.nKvHeads c.headDim c.maxSeqLen)
    (hb : Holds (c.nKvHeads * c.headDim) c.maxSeqLen c.nLayers rows (caches c))
    (hlen : c.maxSeqLen < c.seqLen) (name : String) (layer : Nat) :
    ((getHistory caches name layer : Exec _ ε _) c).1.IsPanic := by
  have hpos : 0 < c.nKvHeads * c.headDim := Nat.mul_pos hs.heads hs.dim
  have hmul : c.maxSeqLen * (c.nKvHeads * c.headDim) < c.seqLen * (c.nKvHeads * c.headDim) :=
    Nat.mul_lt_mul_of_pos_right hlen hpos
  rw [getHistory, self_bind_run, width_run hs.width_lt, expect_some, pure_bind_run]
  cases hcount : checkedMul c.seqLen (c.nKvHeads * c.headDim) with
  | none => trivial
  | some len =>
    obtain ⟨-, rfl⟩ := checkedMul_eq_some.mp hcount
    rw [expect_some, pure_bind_run]
    cases hbuf : (caches c)[layer]? with
    | none => trivial
    | some buffer =>
      have hblen := hb.length layer buffer hbuf
      rw [expect_some, pure_bind_run, slice_eq_none (by omega)]
      trivial

theorem getRange_run (hs : Sized c.nLayers c.nKvHeads c.headDim c.maxSeqLen)
    (hb : Holds (c.nKvHeads * c.headDim) c.maxSeqLen c.nLayers rows (caches c))
    (hlayer : layer < c.nLayers) (hlen : c.seqLen ≤ c.maxSeqLen) (name : String)
    {start stop : Nat} (hle : start ≤ stop) (hstop : stop ≤ c.seqLen) :
    getRange caches name layer start stop c =
      (.ok ((List.range (stop - start)).flatMap fun p =>
        rowOr (c.nKvHeads * c.headDim) (rows layer (start + p))), c) := by
  obtain ⟨buffer, hbuf, hblen⟩ := hb.get hlayer
  have hmul : stop * (c.nKvHeads * c.headDim) ≤ c.maxSeqLen * (c.nKvHeads * c.headDim) :=
    Nat.mul_le_mul_right _ (Nat.le_trans hstop hlen)
  have hmul' : start * (c.nKvHeads * c.headDim) ≤ stop * (c.nKvHeads * c.headDim) :=
    Nat.mul_le_mul_right _ hle
  have helems := hs.elems_lt
  have hrows : slice buffer (start * (c.nKvHeads * c.headDim)) (stop * (c.nKvHeads * c.headDim)) =
      some ((List.range (stop - start)).flatMap fun p =>
        rowOr (c.nKvHeads * c.headDim) (rows layer (start + p))) := by
    rw [slice_rows hle (by omega)]
    refine congrArg some (List.flatMap_congr fun p hp => ?_)
    have := List.mem_range.mp hp
    exact hb.row_eq layer buffer hbuf _ (by omega)
  have hvalid : validateReadRange layer start stop c = (.ok (), c) := by
    rw [validateReadRange, self_bind_run, failIf_bind_run, failIf_bind_run,
      if_neg (Nat.not_le.mpr hlayer), if_neg (by omega)]
    rfl
  rw [getRange, bind_of_ok hvalid, self_bind_run, width_run hs.width_lt, okOr_some, pure_bind_run,
    checkedMul_of_lt (by omega), okOr_some, pure_bind_run, checkedMul_of_lt (by omega), okOr_some,
    pure_bind_run, hbuf, expect_some, pure_bind_run, hrows]
  rfl

end reading

/-! ## Steps -/

theorem append_run (hst : Stores c h) (layer : Nat) (k v : List α) :
    if layer < c.nLayers ∧ c.seqLen < c.maxSeqLen ∧ k.length = c.nKvHeads * c.headDim ∧
        v.length = c.nKvHeads * c.headDim then
      ∃ kCaches vCaches, append layer k v c = (.ok (), { c with kCaches, vCaches }) ∧
        Stores { c with kCaches, vCaches } (h.after (.append layer k v))
    else ∃ e, append layer k v c = (.err e, c) := by
  rw [append, self_bind_run, failIf_bind_run, failIf_bind_run]
  by_cases hlayer : layer < c.nLayers
  swap
  · rw [if_neg fun hb => hlayer hb.1, if_pos (Nat.not_lt.mp hlayer)]
    exact ⟨_, rfl⟩
  by_cases hlen : c.seqLen < c.maxSeqLen
  swap
  · rw [if_neg fun hb => hlen hb.2.1, if_neg (Nat.not_le.mpr hlayer),
      if_pos (Nat.not_lt.mp hlen)]
    exact ⟨_, rfl⟩
  rw [if_neg (Nat.not_le.mpr hlayer), if_neg (Nat.not_le.mpr hlen),
    width_run hst.sized.width_lt, okOr_some, pure_bind_run, failIf_bind_run]
  by_cases hsize : k.length = c.nKvHeads * c.headDim ∧ v.length = c.nKvHeads * c.headDim
  swap
  · rw [if_neg fun hb => hsize hb.2.2, if_pos (by omega)]
    exact ⟨_, rfl⟩
  rw [if_pos ⟨hlayer, hlen, hsize⟩, if_neg (by omega)]
  have helems := hst.sized.elems_lt
  have hmul : (c.seqLen + 1) * (c.nKvHeads * c.headDim) ≤
      c.maxSeqLen * (c.nKvHeads * c.headDim) := Nat.mul_le_mul_right _ hlen
  rw [Nat.succ_mul] at hmul
  obtain ⟨kCaches, hk, hkh⟩ := hst.k.write (ε := String) hlayer hlen hsize.1 c
  obtain ⟨vCaches, hv, hvh⟩ := hst.v.write (ε := String) hlayer hlen hsize.2 { c with kCaches }
  rw [checkedMul_of_lt (by omega), okOr_some, pure_bind_run, checkedAdd_of_lt (by omega),
    okOr_some, pure_bind_run, bind_of_ok hk, modify_bind_run, bind_of_ok hv]
  have hbefore : ∀ (rows : Nat → Nat → Option (List α)) (r : List α),
      (∀ l p, c.maxSeqLen ≤ p → rows l p = none) →
      ∀ l p, c.maxSeqLen ≤ p → record rows layer c.seqLen r l p = none := by
    intro rows r hrows l p hp
    rw [record, if_neg (by omega)]
    exact hrows l p hp
  refine ⟨kCaches, vCaches, rfl, hst.sized, hst.seqLen_eq, ?_, ?_, ?_, ?_⟩
  · exact hst.seqLen_eq ▸ hkh
  · exact hst.seqLen_eq ▸ hvh
  · exact hst.seqLen_eq ▸ hbefore h.kRows k hst.k_lt
  · exact hst.seqLen_eq ▸ hbefore h.vRows v hst.v_lt

theorem grown_stores (hst : Stores c h) {capacity : Nat} (hlt : c.maxSeqLen < capacity)
    (hsized : Sized c.nLayers c.nKvHeads c.headDim capacity) (bytes : Nat) :
    Stores (grown capacity bytes c) h := by
  have hle := Nat.le_of_lt hlt
  refine ⟨hsized, hst.seqLen_eq, ?_, ?_, fun l p hp => ?_, fun l p hp => ?_⟩
  · have hg := hst.k.grow hle hst.k_lt
    rwa [← Nat.sub_mul] at hg
  · have hg := hst.v.grow hle hst.v_lt
    rwa [← Nat.sub_mul] at hg
  · exact hst.k_lt l p (Nat.le_trans hle hp)
  · exact hst.v_lt l p (Nat.le_trans hle hp)

theorem growTo_stores (hst : Stores c h) (reserve : Reserve) (capacity : Nat) :
    Stores (growTo reserve capacity c).2 h ∧ SameShape c (growTo reserve capacity c).2 := by
  rcases growTo_run hst.k hst.v reserve capacity with hc | ⟨bytes, hc, hlt, hsized⟩
  · rw [hc]
    exact ⟨hst, rfl, rfl, rfl⟩
  · rw [hc]
    exact ⟨grown_stores hst hlt hsized bytes, rfl, rfl, rfl⟩

theorem growToWithBudget_stores (hst : Stores c h) (reserve : Reserve) (capacity : Nat)
    (b : MemoryBudget) (chargeName : String) :
    Stores (growToWithBudget reserve capacity chargeName (c, b)).2.1 h ∧
      SameShape c (growToWithBudget reserve capacity chargeName (c, b)).2.1 := by
  rcases growToWithBudget_run (b := b) hst.k hst.v reserve capacity chargeName with
    hc | ⟨bytes, hc, hlt, hsized⟩
  · rw [hc]
    exact ⟨hst, rfl, rfl, rfl⟩
  · rw [hc]
    exact ⟨grown_stores hst hlt hsized bytes, rfl, rfl, rfl⟩

/-- One call of any kind, whatever it answers. -/
theorem step_stores {s : KvCache α × KvHistory α} (hst : Stores s.1 s.2) (call : KvCall α) :
    Stores (call.step s).1 (call.step s).2 ∧ SameShape s.1 (call.step s).1 := by
  obtain ⟨c, h⟩ := s
  cases call with
  | append layer k v =>
    have hrun := append_run hst layer k v
    split at hrun
    · obtain ⟨kCaches, vCaches, he, hs⟩ := hrun
      simp only [KvCall.step, KvCall.run, he]
      exact ⟨hs, rfl, rfl, rfl⟩
    · obtain ⟨e, he⟩ := hrun
      simp only [KvCall.step, KvCall.run, he]
      exact ⟨hst, rfl, rfl, rfl⟩
  | increment debugAssertions =>
    simp only [KvCall.step, KvCall.run, incrementSeqLen, self_bind_run, expect_bind_run]
    split
    · cases hsum : checkedAdd c.seqLen 1 with
      | none => exact ⟨hst, rfl, rfl, rfl⟩
      | some n =>
        obtain ⟨-, rfl⟩ := checkedAdd_eq_some.mp hsum
        exact ⟨⟨hst.sized, congrArg (· + 1) hst.seqLen_eq, hst.k, hst.v, hst.k_lt, hst.v_lt⟩,
          rfl, rfl, rfl⟩
    · exact ⟨hst, rfl, rfl, rfl⟩
  | growTo reserve capacity =>
    have hg := growTo_stores hst reserve capacity
    simp only [KvCall.step, KvCall.run]
    split <;> exact hg
  | growToWithBudget reserve capacity budget chargeName =>
    have hg := growToWithBudget_stores hst reserve capacity budget chargeName
    simp only [KvCall.step, KvCall.run]
    split <;> exact hg
  | clear => exact ⟨⟨hst.sized, rfl, hst.k, hst.v, hst.k_lt, hst.v_lt⟩, rfl, rfl, rfl⟩

/-! ## Runs -/

/-- The row of a position: the last vector appended there, or zeros. -/
def kRow (w : Nat) (h : KvHistory α) (layer p : Nat) : List α := rowOr w (h.kRows layer p)

def vRow (w : Nat) (h : KvHistory α) (layer p : Nat) : List α := rowOr w (h.vRows layer p)

/-- What the owner of the cache sees, in terms of the history. -/
structure ReadsBack (nLayers w : Nat) (c : KvCache α) (h : KvHistory α) : Prop where
  seqLen_eq : c.seqLen = h.position
  getK : ∀ layer < nLayers, h.position ≤ c.maxSeqLen →
    (KvCache.getK layer c : Outcome String _ × _) =
      (.ok ((List.range h.position).flatMap (kRow w h layer)), c)
  getV : ∀ layer < nLayers, h.position ≤ c.maxSeqLen →
    (KvCache.getV layer c : Outcome String _ × _) =
      (.ok ((List.range h.position).flatMap (vRow w h layer)), c)
  getKRange : ∀ layer < nLayers, h.position ≤ c.maxSeqLen → ∀ start stop, start ≤ stop →
    stop ≤ h.position → KvCache.getKRange layer start stop c =
      (.ok ((List.range (stop - start)).flatMap fun p => kRow w h layer (start + p)), c)
  getVRange : ∀ layer < nLayers, h.position ≤ c.maxSeqLen → ∀ start stop, start ≤ stop →
    stop ≤ h.position → KvCache.getVRange layer start stop c =
      (.ok ((List.range (stop - start)).flatMap fun p => vRow w h layer (start + p)), c)
  past : c.maxSeqLen < h.position → ∀ layer,
    (KvCache.getK layer c : Outcome String _ × _).1.IsPanic ∧
      (KvCache.getV layer c : Outcome String _ × _).1.IsPanic
  append : ∀ layer k v,
    ((append layer k v c).1 = .ok () ↔
      layer < nLayers ∧ h.position < c.maxSeqLen ∧ k.length = w ∧ v.length = w) ∧
    ((append layer k v c).1 = .ok () ∨ ∃ e, append layer k v c = (.err e, c))
  grow : ∀ reserve capacity, ∀ layer < nLayers, h.position ≤ c.maxSeqLen →
    (KvCache.getK layer (growTo reserve capacity c).2 : Outcome String _ × _).1 =
        (KvCache.getK layer c : Outcome String _ × _).1 ∧
      (KvCache.getV layer (growTo reserve capacity c).2 : Outcome String _ × _).1 =
        (KvCache.getV layer c : Outcome String _ × _).1
  growBudgeted : ∀ reserve capacity b chargeName, ∀ layer < nLayers, h.position ≤ c.maxSeqLen →
    (KvCache.getK layer (growToWithBudget reserve capacity chargeName (c, b)).2.1 :
        Outcome String _ × _).1 = (KvCache.getK layer c : Outcome String _ × _).1 ∧
      (KvCache.getV layer (growToWithBudget reserve capacity chargeName (c, b)).2.1 :
        Outcome String _ × _).1 = (KvCache.getV layer c : Outcome String _ × _).1

theorem getK_run (hst : Stores c h) {layer : Nat} (hl : layer < c.nLayers)
    (hp : h.position ≤ c.maxSeqLen) :
    (KvCache.getK layer c : Outcome ε _ × _) =
      (.ok ((List.range h.position).flatMap (kRow (c.nKvHeads * c.headDim) h layer)), c) := by
  have hrun := getHistory_run (ε := ε) hst.sized hst.k hl (hst.seqLen_eq ▸ hp) "K"
  rw [hst.seqLen_eq] at hrun
  exact hrun

theorem getV_run (hst : Stores c h) {layer : Nat} (hl : layer < c.nLayers)
    (hp : h.position ≤ c.maxSeqLen) :
    (KvCache.getV layer c : Outcome ε _ × _) =
      (.ok ((List.range h.position).flatMap (vRow (c.nKvHeads * c.headDim) h layer)), c) := by
  have hrun := getHistory_run (ε := ε) hst.sized hst.v hl (hst.seqLen_eq ▸ hp) "V"
  rw [hst.seqLen_eq] at hrun
  exact hrun

/-- Two caches of one shape that store one history read the same. -/
theorem same_reads {c' : KvCache α} (hst : Stores c h) (hst' : Stores c' h)
    (hshape : SameShape c c') (hcap : c.maxSeqLen ≤ c'.maxSeqLen) {layer : Nat}
    (hl : layer < c.nLayers) (hp : h.position ≤ c.maxSeqLen) :
    (KvCache.getK layer c' : Outcome ε _ × _).1 = (KvCache.getK layer c : Outcome ε _ × _).1 ∧
      (KvCache.getV layer c' : Outcome ε _ × _).1 =
        (KvCache.getV layer c : Outcome ε _ × _).1 := by
  have hl' : layer < c'.nLayers := by
    rw [hshape.layers]
    exact hl
  have hp' := Nat.le_trans hp hcap
  rw [getK_run hst hl hp, getV_run hst hl hp, getK_run hst' hl' hp', getV_run hst' hl' hp',
    hshape.heads, hshape.dim]
  exact ⟨rfl, rfl⟩

theorem Stores.readsBack (hst : Stores c h) :
    ReadsBack c.nLayers (c.nKvHeads * c.headDim) c h where
  seqLen_eq := hst.seqLen_eq
  getK layer hl hp := getK_run hst hl hp
  getV layer hl hp := getV_run hst hl hp
  getKRange layer hl hp start stop hle hstop :=
    getRange_run hst.sized hst.k hl (hst.seqLen_eq ▸ hp) "K" hle (hst.seqLen_eq ▸ hstop)
  getVRange layer hl hp start stop hle hstop :=
    getRange_run hst.sized hst.v hl (hst.seqLen_eq ▸ hp) "V" hle (hst.seqLen_eq ▸ hstop)
  past hp layer :=
    ⟨getHistory_panic hst.sized hst.k (hst.seqLen_eq ▸ hp) "K" layer,
      getHistory_panic hst.sized hst.v (hst.seqLen_eq ▸ hp) "V" layer⟩
  append layer k v := by
    have hrun := append_run hst layer k v
    rw [← hst.seqLen_eq]
    split at hrun
    · rename_i hok
      obtain ⟨kCaches, vCaches, he, -⟩ := hrun
      rw [he]
      exact ⟨⟨fun _ => hok, fun _ => rfl⟩, .inl rfl⟩
    · rename_i hno
      obtain ⟨e, he⟩ := hrun
      rw [he]
      exact ⟨⟨nofun, fun hok => absurd hok hno⟩, .inr ⟨e, rfl⟩⟩
  grow reserve capacity layer hl hp := by
    obtain ⟨hst', hshape⟩ := growTo_stores hst reserve capacity
    refine same_reads hst hst' hshape ?_ hl hp
    rcases growTo_run hst.k hst.v reserve capacity with hc | ⟨bytes, hc, hlt, -⟩
    · rw [hc]
    · rw [hc]
      exact Nat.le_of_lt hlt
  growBudgeted reserve capacity b chargeName layer hl hp := by
    obtain ⟨hst', hshape⟩ := growToWithBudget_stores hst reserve capacity b chargeName
    refine same_reads hst hst' hshape ?_ hl hp
    rcases growToWithBudget_run (b := b) hst.k hst.v reserve capacity chargeName with
      hc | ⟨bytes, hc, hlt, -⟩
    · rw [hc]
    · rw [hc]
      exact Nat.le_of_lt hlt

theorem new_stores {reserve : Reserve} {nLayers nKvHeads headDim maxSeqLen : Nat}
    (hnew : KvCache.new reserve nLayers nKvHeads headDim maxSeqLen = .ok c) :
    Stores c .empty ∧ c.nLayers = nLayers ∧ c.nKvHeads = nKvHeads ∧ c.headDim = headDim := by
  rw [KvCache.new] at hnew
  cases hl : layout nLayers nKvHeads headDim maxSeqLen with
  | error e => rw [hl] at hnew; cases hnew
  | ok l =>
    rw [hl] at hnew
    obtain ⟨hsized, helems, -⟩ := layout_eq_ok hl
    rw [allocateFromLayout_eq_ok hnew, helems]
    exact ⟨⟨hsized, rfl, holds_zero _ _ _, holds_zero _ _ _, fun _ _ _ => rfl, fun _ _ _ => rfl⟩,
      rfl, rfl, rfl⟩

/-- A cache built under a budget is a cache built without one. -/
theorem newWithBudget_eq_ok {reserve : Reserve} {nLayers nKvHeads headDim maxSeqLen : Nat}
    {chargeName : String} {b : MemoryBudget}
    (h : (newWithBudget reserve nLayers nKvHeads headDim maxSeqLen chargeName b).1 = .ok c) :
    KvCache.new reserve nLayers nKvHeads headDim maxSeqLen = .ok c := by
  rw [newWithBudget] at h
  rw [KvCache.new]
  cases hl : layout nLayers nKvHeads headDim maxSeqLen with
  | error e => rw [hl] at h; cases h
  | ok l =>
    rw [hl, ofResult_ok_bind_run, bind_run, mapErr_run] at h
    show allocateFromLayout reserve nLayers nKvHeads headDim maxSeqLen l = .ok c
    generalize MemoryBudget.allocate chargeName l.totalBytes b = charged at h
    obtain ⟨_ | _ | _, b₁⟩ := charged
    · simp only [Outcome.mapErr_ok] at h
      cases hal : (allocateFromLayout reserve nLayers nKvHeads headDim maxSeqLen l :
          Except String (KvCache α)) with
      | ok c' =>
        rw [hal] at h
        exact congrArg Except.ok (Outcome.ok.inj h)
      | error e =>
        rw [hal] at h
        simp only [bind_run, attempt] at h
        generalize MemoryBudget.release chargeName b₁ = released at h
        obtain ⟨_ | _ | _, b₂⟩ := released <;> cases h
    · cases h
    · cases h

theorem states_store {s : KvCache α × KvHistory α} (hst : Stores s.1 s.2)
    (calls : List (KvCall α)) :
    ∀ t ∈ KvCall.states s calls, Stores t.1 t.2 ∧ SameShape s.1 t.1 := by
  induction calls generalizing s with
  | nil =>
    intro t ht
    obtain rfl := List.mem_singleton.mp ht
    exact ⟨hst, rfl, rfl, rfl⟩
  | cons call rest ih =>
    intro t ht
    obtain ⟨hst', h1, h2, h3⟩ := step_stores hst call
    rcases List.mem_cons.mp ht with rfl | ht
    · exact ⟨hst, rfl, rfl, rfl⟩
    · obtain ⟨ht', h4, h5, h6⟩ := ih hst' t ht
      exact ⟨ht', h4.trans h1, h5.trans h2, h6.trans h3⟩

/-- In every run the cache reads back, for each layer and each committed position,
the last vector appended there, or zeros where there was none. -/
theorem runs_readBack {reserve : Reserve} {nLayers nKvHeads headDim maxSeqLen : Nat}
    (hnew : KvCache.new reserve nLayers nKvHeads headDim maxSeqLen = .ok c)
    (calls : List (KvCall α)) :
    ∀ s ∈ KvCall.states (c, .empty) calls, ReadsBack nLayers (nKvHeads * headDim) s.1 s.2 := by
  obtain ⟨hst, h1, h2, h3⟩ := new_stores hnew
  intro s hs
  obtain ⟨hst', h4, h5, h6⟩ := states_store (s := (c, .empty)) hst calls s hs
  have hread := hst'.readsBack
  rwa [h4, h5, h6, h1, h2, h3] at hread

end KvCache

/-! ## Fixed runs -/

namespace KvCache

/-- Every reservation granted. -/
def granted : Reserve := fun _ => none

/-- A retry at one position, a growth, and a restart over old rows. -/
def retryCalls : List (KvCall Int) :=
  [.append 0 [1, 2] [3, 4], .append 0 [5, 6] [7, 8], .append 1 [9, 9] [8, 8], .increment true,
    .growTo granted 3, .append 1 [1, 1] [2, 2], .increment true, .clear, .increment false]

def twoLayers : KvCache Int :=
  { nLayers := 2
    nKvHeads := 1
    headDim := 2
    maxSeqLen := 1
    seqLen := 0
    kCaches := [[0, 0], [0, 0]]
    vCaches := [[0, 0], [0, 0]]
    bytesPerLayer := 16 }

/-- The end of that run. -/
def retried : KvCache Int × KvHistory Int :=
  (KvCall.states (twoLayers, .empty) retryCalls).getLast (List.cons_ne_nil _ _)

theorem runs_readBack_retry : ReadsBack 2 2 retried.1 retried.2 := by
  have hnew : KvCache.new granted 2 1 2 1 = .ok twoLayers := rfl
  exact runs_readBack hnew retryCalls retried (List.getLast_mem _)

/-- Every committed row of every layer was appended, and is read back. -/
def ReadsAppended (s : KvCache Int × KvHistory Int) : Prop :=
  ∀ layer < s.1.nLayers, ∃ ks : List (List Int), ks.length = s.2.position ∧
    (∀ p < s.2.position, s.2.kRows layer p = ks[p]?) ∧
    (getK layer s.1 : Outcome String _ × _).1 = .ok ks.flatten

/-- A position committed without an append reads zeros. -/
theorem increment_unappended :
    ¬ ∀ (c : KvCache Int), KvCache.new granted 1 1 1 1 = .ok c → ∀ calls : List (KvCall Int),
      ∀ s ∈ KvCall.states (c, .empty) calls, ReadsAppended s := by
  intro hclaim
  obtain ⟨ks, hlen, hrow, -⟩ := hclaim _ rfl [.increment true] _
    (List.mem_cons_of_mem _ List.mem_cons_self) 0 (by decide)
  have hnone := hrow 0 (by decide)
  have hsome : (0 : Nat) < ks.length := by
    rw [hlen]
    decide
  rw [List.getElem?_eq_getElem hsome] at hnone
  cases hnone

end KvCache
end Ramforge
