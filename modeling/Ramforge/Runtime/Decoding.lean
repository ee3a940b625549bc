/-
The attention of one layer, token after token, over the keys and values in the cache.

Before each token the cache may grow, and the other layers append to it.
-/
import Ramforge.Core.Attention
import Ramforge.Runtime.KvHistory

namespace Ramforge

open Rust Rust.Exec

/-- The heads of a layer. -/
structure HeadShape where
  queryHeads : Nat
  kvHeads : Nat
  headDim : Nat
deriving DecidableEq, Repr

/-- The query heads come in groups, one for each K/V head.  The weights of the query
projection are more than the product of the two counts, and their number is a `u64`. -/
structure HeadShape.Grouped (shape : HeadShape) : Prop where
  queryHeads : 0 < shape.queryHeads
  headDim : 0 < shape.headDim
  divides : shape.kvHeads ∣ shape.queryHeads
  width_lt : shape.queryHeads * shape.headDim < u64Bound
  product_lt : shape.queryHeads * shape.kvHeads < u64Bound

def HeadShape.group (shape : HeadShape) : Nat := shape.queryHeads / shape.kvHeads

/-- The vectors of a layer at one position, and the calls on the cache before it. -/
structure DecodeRound (R : Type) where
  calls : List (KvCall R)
  q : List R
  k : List R
  v : List R

section decode

variable {R : Type} [Zero R] [Add R] [Sub R] [Mul R] [Div R] [F32 R] [F32Math R]

def attentionChecked {σ : Type} (build : Build) (q kHist vHist kNew vNew : List R)
    (histLen nHeads nKvHeads headDim : Nat) : Exec σ String (List R) :=
  mapErr (·.message) (Compute.attentionReference build q kHist vHist kNew vNew
    { historyLen := histLen, queryHeads := nHeads, kvHeads := nKvHeads, headDim := headDim })

/-- The attention of `execute_layer` against the history of the cache. -/
def attend (build : Build) (shape : HeadShape) (layer : Nat) (q k v : List R) :
    Exec (KvCache R) String (List R) := do
  let cache ← self
  let histLen := cache.seqLen
  let kHistory ← KvCache.getKRange layer 0 histLen
  let vHistory ← KvCache.getVRange layer 0 histLen
  attentionChecked build q kHistory vHistory k v histLen shape.queryHeads shape.kvHeads shape.headDim

def runCalls : List (KvCall R) → Exec (KvCache R) String Unit
  | [] => pure ()
  | call :: rest => do
    call.run
    runCalls rest

/-- One token: attention, and then the commit of its key and its value. -/
def decodeStep (build : Build) (debugAssertions : Bool) (shape : HeadShape) (layer : Nat)
    (round : DecodeRound R) : Exec (KvCache R) String (List R) := do
  runCalls round.calls
  let output ← attend build shape layer round.q round.k round.v
  KvCache.append layer round.k round.v
  KvCache.incrementSeqLen debugAssertions
  return output

def decode (build : Build) (debugAssertions : Bool) (shape : HeadShape) (layer : Nat) :
    List (DecodeRound R) → Exec (KvCache R) String (List (List R))
  | [] => return []
  | round :: rest => do
    let output ← decodeStep build debugAssertions shape layer round
    let outputs ← decode build debugAssertions shape layer rest
    return output :: outputs

end decode

/-! ## The cache between two tokens -/

/-- A growth, or an append to another layer. -/
def KvCall.Foreign {R : Type} (layer : Nat) : KvCall R → Prop
  | .append l _ _ => l ≠ layer
  | .growTo .. | .growToWithBudget .. => True
  | .increment _ | .clear => False

structure DecodeRound.WellShaped {R : Type} (shape : HeadShape) (layer : Nat) (round : DecodeRound R) :
    Prop where
  calls : ∀ call ∈ round.calls, call.Foreign layer
  q : round.q.length = shape.queryHeads * shape.headDim
  k : round.k.length = shape.kvHeads * shape.headDim
  v : round.v.length = shape.kvHeads * shape.headDim

/-- The history `h` in the cache has the keys and the values of the first `t` positions. -/
structure Committed {R : Type} [Zero R] (shape : HeadShape) (nLayers layer : Nat)
    (keys values : Nat → List R) (t : Nat) (c : KvCache R) (h : KvHistory R) : Prop where
  stores : KvCache.Stores c h
  position : h.position = t
  layers : c.nLayers = nLayers
  heads : c.nKvHeads = shape.kvHeads
  dim : c.headDim = shape.headDim
  keys : ∀ p < t, h.kRows layer p = some (keys p)
  values : ∀ p < t, h.vRows layer p = some (values p)

namespace Committed

section calls

variable {R : Type} [Zero R] {shape : HeadShape} {nLayers layer t : Nat} {keys values : Nat → List R}
  {c c' : KvCache R} {h : KvHistory R}

theorem seqLen_eq (hc : Committed shape nLayers layer keys values t c h) : c.seqLen = t :=
  hc.stores.seqLen_eq.trans hc.position

/-- No position behind the capacity was written. -/
theorem le_capacity (hc : Committed shape nLayers layer keys values t c h) : t ≤ c.maxSeqLen := by
  by_contra hgt
  have hlast := hc.keys (t - 1) (by omega)
  rw [hc.stores.k_lt layer (t - 1) (by omega)] at hlast
  cases hlast

theorem call (hc : Committed shape nLayers layer keys values t c h) {call : KvCall R}
    (hforeign : call.Foreign layer) (hrun : call.run c = (.ok (), c')) :
    ∃ h', Committed shape nLayers layer keys values t c' h' := by
  obtain ⟨hstores, hlayers, hheads, hdim⟩ := KvCache.step_stores (s := (c, h)) hc.stores call
  have hstep : call.step (c, h) = (c', h.after call) := by rw [KvCall.step, hrun]
  rw [hstep] at hstores hlayers hheads hdim
  have hkeep : (h.after call).position = h.position ∧
      (∀ p, (h.after call).kRows layer p = h.kRows layer p) ∧
      ∀ p, (h.after call).vRows layer p = h.vRows layer p := by
    cases call with
    | append l k v =>
      have hother : ∀ (rows : Nat → Nat → Option (List R)) (x : List R) (p : Nat),
          KvCache.record rows l h.position x layer p = rows layer p :=
        fun rows x p => if_neg fun hsame => hforeign hsame.1.symm
      exact ⟨rfl, hother h.kRows k, hother h.vRows v⟩
    | growTo reserve capacity => exact ⟨rfl, fun _ => rfl, fun _ => rfl⟩
    | growToWithBudget reserve capacity budget chargeName => exact ⟨rfl, fun _ => rfl, fun _ => rfl⟩
    | increment debugAssertions => exact absurd hforeign id
    | clear => exact absurd hforeign id
  obtain ⟨hposition, hk, hv⟩ := hkeep
  exact ⟨_,
    { stores := hstores
      position := hposition.trans hc.position
      layers := hlayers.trans hc.layers
      heads := hheads.trans hc.heads
      dim := hdim.trans hc.dim
      keys := fun p hp => (hk p).trans (hc.keys p hp)
      values := fun p hp => (hv p).trans (hc.values p hp) }⟩

theorem runCalls {calls : List (KvCall R)}
    (hc : Committed shape nLayers layer keys values t c h)
    (hforeign : ∀ call ∈ calls, call.Foreign layer) (hrun : runCalls calls c = (.ok (), c')) :
    ∃ h', Committed shape nLayers layer keys values t c' h' := by
  induction calls generalizing c h with
  | nil =>
    cases hrun
    exact ⟨h, hc⟩
  | cons call rest ih =>
    obtain ⟨hfirst, hrest⟩ := List.forall_mem_cons.mp hforeign
    obtain ⟨_, c₁, hcall, hrun⟩ := of_bind_ok hrun
    obtain ⟨h₁, hc₁⟩ := hc.call hfirst hcall
    exact ih hc₁ hrest hrun

/-- The commit of one token: it fails exactly when the cache is full. -/
theorem commit (debugAssertions : Bool) (hc : Committed shape nLayers layer keys values t c h)
    (hlayer : layer < nLayers) {round : DecodeRound R} (hround : round.WellShaped shape layer)
    (hkey : keys t = round.k) (hvalue : values t = round.v) :
    (c.seqLen < c.maxSeqLen ∧ ∃ c₁ c' h',
      KvCache.append layer round.k round.v c = (.ok (), c₁) ∧
      (KvCache.incrementSeqLen debugAssertions c₁ : Outcome String Unit × _) = (.ok (), c') ∧
      Committed shape nLayers layer keys values (t + 1) c' h') ∨
    (¬c.seqLen < c.maxSeqLen ∧ ∃ e, KvCache.append layer round.k round.v c = (.err e, c)) := by
  have happend := KvCache.append_run hc.stores layer round.k round.v
  by_cases hroom : c.seqLen < c.maxSeqLen
  swap
  · rw [if_neg fun hall => hroom hall.2.1] at happend
    exact .inr ⟨hroom, happend⟩
  have hshape : layer < c.nLayers ∧ c.seqLen < c.maxSeqLen ∧
      round.k.length = c.nKvHeads * c.headDim ∧ round.v.length = c.nKvHeads * c.headDim := by
    rw [hc.layers, hc.heads, hc.dim]
    exact ⟨hlayer, hroom, hround.k, hround.v⟩
  rw [if_pos hshape] at happend
  obtain ⟨kCaches, vCaches, hwritten, hstores⟩ := happend
  have hfits := hc.stores.sized.elems_lt
  have hcapacity := Nat.le_mul_of_pos_right c.maxSeqLen
    (Nat.mul_pos hc.stores.sized.heads hc.stores.sized.dim)
  have hsum : checkedAdd c.seqLen 1 = some (c.seqLen + 1) := checkedAdd_of_lt (by omega)
  have hassert : (if debugAssertions ∧ ¬c.seqLen < c.maxSeqLen then none else some ()) = some () :=
    if_neg fun hno => hno.2 hroom
  have hrecorded : ∀ {rows : Nat → Nat → Option (List R)} {vectors : Nat → List R} {x : List R},
      (∀ p < t, rows layer p = some (vectors p)) → vectors t = x →
      ∀ p < t + 1, KvCache.record rows layer h.position x layer p = some (vectors p) := by
    intro rows vectors x hrows hx p hp
    rw [KvCache.record, hc.position]
    rcases Nat.lt_succ_iff_lt_or_eq.mp hp with hlt | rfl
    · rw [if_neg fun hsame => absurd hsame.2 (Nat.ne_of_lt hlt)]
      exact hrows p hlt
    · rw [if_pos ⟨rfl, rfl⟩, hx]
  refine .inl ⟨hroom, _, { c with kCaches, vCaches, seqLen := c.seqLen + 1 },
    { h.after (.append layer round.k round.v) with position := h.position + 1 }, hwritten, ?_, ?_⟩
  · rw [KvCache.incrementSeqLen, self_bind_run]
    simp only [hassert, hsum, expect_some, pure_bind_run, modify_run]
  · exact
      { stores := ⟨hstores.sized, congrArg (· + 1) hstores.seqLen_eq, hstores.k, hstores.v,
          hstores.k_lt, hstores.v_lt⟩
        position := congrArg (· + 1) hc.position
        layers := hc.layers
        heads := hc.heads
        dim := hc.dim
        keys := hrecorded hc.keys hkey
        values := hrecorded hc.values hvalue }

end calls

end Committed

/-! ## One token -/

section exact

open Compute

variable {R : Type} [Field R] [LinearOrder R] [IsStrictOrderedRing R] [F32 R] [F32Math R]
  {shape : HeadShape} {nLayers layer t : Nat} {keys values : Nat → List R} {c : KvCache R}
  {h : KvHistory R}

/-- Causal attention of all query heads at position `t`. -/
def causalAttention (shape : HeadShape) (keys values : Nat → List R) (q : List R) (t : Nat) : List R :=
  (List.range shape.queryHeads).flatMap fun head =>
    headOutput shape.headDim (head / shape.group) (Rows.row shape.headDim q head) keys values t

theorem HeadShape.Grouped.eq_mul_group {shape : HeadShape} (hg : shape.Grouped) :
    shape.queryHeads = shape.kvHeads * shape.group := (Nat.mul_div_cancel' hg.divides).symm

theorem attend_run (build : Build) (he : F32Math.Exact R) (hg : shape.Grouped)
    (hc : Committed shape nLayers layer keys values t c h) (hlayer : layer < nLayers) {q : List R}
    (hq : q.length = shape.queryHeads * shape.headDim)
    (hk : ∀ p ≤ t, (keys p).length = shape.kvHeads * shape.headDim)
    (hv : ∀ p ≤ t, (values p).length = shape.kvHeads * shape.headDim) :
    attend build shape layer q (keys t) (values t) c =
      (.ok (causalAttention shape keys values q t), c) := by
  have hlen := hc.seqLen_eq
  have hle := hc.le_capacity
  have hlayer' : layer < c.nLayers := by rwa [hc.layers]
  have hread : ∀ {rows : Nat → Nat → Option (List R)} {vectors : Nat → List R},
      (∀ p < t, rows layer p = some (vectors p)) →
      ((List.range (t - 0)).flatMap fun p =>
        KvCache.rowOr (c.nKvHeads * c.headDim) (rows layer (0 + p))) =
          (List.range t).flatMap vectors := by
    intro rows vectors hrows
    rw [Nat.sub_zero]
    refine List.flatMap_congr fun p hp => ?_
    rw [Nat.zero_add, hrows p (List.mem_range.mp hp)]
    rfl
  have hkRun : KvCache.getKRange layer 0 t c = (.ok ((List.range t).flatMap keys), c) := by
    rw [← hread hc.keys]
    exact KvCache.getRange_run hc.stores.sized hc.stores.k hlayer' (hlen ▸ hle) "K" (Nat.zero_le t)
      hlen.ge
  have hvRun : KvCache.getVRange layer 0 t c = (.ok ((List.range t).flatMap values), c) := by
    rw [← hread hc.values]
    exact KvCache.getRange_run hc.stores.sized hc.stores.v hlayer' (hlen ▸ hle) "V" (Nat.zero_le t)
      hlen.ge
  have hbound : (t + 1) * (shape.kvHeads * shape.headDim) < u64Bound := by
    have hfits := hc.stores.sized.fits
    have hpos := hc.stores.sized.capacity
    have hlayers := hc.stores.sized.layers
    have htwo : (t + 1) * (shape.kvHeads * shape.headDim) ≤
        2 * (c.maxSeqLen * (shape.kvHeads * shape.headDim)) := by
      rw [← Nat.mul_assoc 2]
      exact Nat.mul_le_mul_right _ (by omega)
    rw [hc.heads, hc.dim] at hfits
    have hmul := Nat.le_mul_of_pos_right
      (c.maxSeqLen * (shape.kvHeads * shape.headDim) * 4 * 2) hlayers
    omega
  have hattention := attentionReference_run
    { historyLen := t, queryHeads := shape.queryHeads, kvHeads := shape.kvHeads
      headDim := shape.headDim }
    build he hg.eq_mul_group hg.queryHeads hg.headDim hg.product_lt hq (hq ▸ hg.width_lt) hk hv hbound c
  rw [attend, self_bind_run, hlen]
  rw [bind_of_ok hkRun, bind_of_ok hvRun, attentionChecked, mapErr_run, hattention]
  rfl

/-- Every call before the token succeeds and leaves room for it. -/
def Supplied (round : DecodeRound R) (c : KvCache R) : Prop :=
  (runCalls round.calls c).1 = .ok () ∧
    (runCalls round.calls c).2.seqLen < (runCalls round.calls c).2.maxSeqLen

/-- One token is answered with its attention and committed, or the calls before it failed
or left no room. -/
theorem decodeStep_run (build : Build) (debugAssertions : Bool) (he : F32Math.Exact R)
    (hg : shape.Grouped) (hc : Committed shape nLayers layer keys values t c h)
    (hlayer : layer < nLayers) {round : DecodeRound R} (hround : round.WellShaped shape layer)
    (hkey : keys t = round.k) (hvalue : values t = round.v)
    (hk : ∀ p ≤ t, (keys p).length = shape.kvHeads * shape.headDim)
    (hv : ∀ p ≤ t, (values p).length = shape.kvHeads * shape.headDim) :
    (Supplied round c ∧ ∃ c' h',
      decodeStep build debugAssertions shape layer round c =
        (.ok (causalAttention shape keys values round.q t), c') ∧
      Committed shape nLayers layer keys values (t + 1) c' h') ∨
    (¬Supplied round c ∧ ∀ output,
      (decodeStep build debugAssertions shape layer round c).1 ≠ .ok output) := by
  unfold Supplied decodeStep
  rcases hrun : runCalls round.calls c with ⟨_ | e | p, c₁⟩
  · obtain ⟨h₁, hc₁⟩ := hc.runCalls hround.calls hrun
    have hattend := attend_run build he hg hc₁ hlayer hround.q hk hv
    rw [hkey, hvalue] at hattend
    rw [bind_of_ok hrun, bind_of_ok hattend]
    obtain ⟨hroom, c₂, c', h', happend, hincrement, hc'⟩ | ⟨hfull, e, happend⟩ :=
      hc₁.commit debugAssertions hlayer hround hkey hvalue
    · refine .inl ⟨⟨rfl, hroom⟩, c', h', ?_, hc'⟩
      rw [bind_of_ok happend, bind_of_ok hincrement]
      rfl
    · refine .inr ⟨fun hsupplied => hfull hsupplied.2, fun output hok => ?_⟩
      rw [bind_of_err happend] at hok
      cases hok
  · refine .inr ⟨fun hsupplied => (by cases hsupplied.1), fun output hok => ?_⟩
    rw [bind_of_err hrun] at hok
    cases hok
  · refine .inr ⟨fun hsupplied => (by cases hsupplied.1), fun output hok => ?_⟩
    rw [bind_of_panic hrun] at hok
    cases hok

/-! ## All tokens -/

def queriesOf (rounds : List (DecodeRound R)) (p : Nat) : List R := (rounds[p]?.map (·.q)).getD []

def keysOf (rounds : List (DecodeRound R)) (p : Nat) : List R := (rounds[p]?.map (·.k)).getD []

def valuesOf (rounds : List (DecodeRound R)) (p : Nat) : List R := (rounds[p]?.map (·.v)).getD []

/-- Every token of a run is supplied. -/
def Supplies (build : Build) (debugAssertions : Bool) (shape : HeadShape) (layer : Nat) :
    List (DecodeRound R) → KvCache R → Prop
  | [], _ => True
  | round :: rest, c => Supplied round c ∧
      Supplies build debugAssertions shape layer rest
        (decodeStep build debugAssertions shape layer round c).2

/-- The tokens behind `done`. -/
theorem decode_run (build : Build) (debugAssertions : Bool) (he : F32Math.Exact R) (hg : shape.Grouped)
    (hlayer : layer < nLayers) {done rest : List (DecodeRound R)}
    (hrounds : ∀ round ∈ done ++ rest, round.WellShaped shape layer)
    (hc : Committed shape nLayers layer (keysOf (done ++ rest)) (valuesOf (done ++ rest)) done.length
      c h) :
    (Supplies build debugAssertions shape layer rest c ∧
      (decode build debugAssertions shape layer rest c).1 = .ok
        ((List.range' done.length rest.length).map fun t =>
          causalAttention shape (keysOf (done ++ rest)) (valuesOf (done ++ rest))
            (queriesOf (done ++ rest) t) t)) ∨
    (¬Supplies build debugAssertions shape layer rest c ∧
      ∀ outputs, (decode build debugAssertions shape layer rest c).1 ≠ .ok outputs) := by
  induction rest generalizing done c h with
  | nil => exact .inl ⟨trivial, rfl⟩
  | cons round rest ih =>
    have hget : (done ++ round :: rest)[done.length]? = some round := by
      rw [List.getElem?_append_right (Nat.le_refl _), Nat.sub_self]
      rfl
    have hk : ∀ p ≤ done.length,
        (keysOf (done ++ round :: rest) p).length = shape.kvHeads * shape.headDim ∧
          (valuesOf (done ++ round :: rest) p).length = shape.kvHeads * shape.headDim := by
      intro p hp
      have hlt : p < (done ++ round :: rest).length := by
        rw [List.length_append, List.length_cons]
        omega
      have hshaped := hrounds _ (List.getElem_mem hlt)
      rw [keysOf, valuesOf, List.getElem?_eq_getElem hlt]
      exact ⟨hshaped.k, hshaped.v⟩
    have hassoc : done ++ round :: rest = (done ++ [round]) ++ rest := by
      rw [List.append_assoc]
      rfl
    have hstep := decodeStep_run build debugAssertions he hg hc hlayer
      (hrounds round (List.mem_append_right _ List.mem_cons_self)) (by rw [keysOf, hget]; rfl)
      (by rw [valuesOf, hget]; rfl) (fun p hp => (hk p hp).1) fun p hp => (hk p hp).2
    rcases hstep with ⟨hsupplied, c', h', hrun, hc'⟩ | ⟨hnot, hfail⟩
    · have hq : queriesOf (done ++ round :: rest) done.length = round.q := by
        rw [queriesOf, hget]
        rfl
      rw [hassoc] at hc' hrounds
      have hlength : done.length + 1 = (done ++ [round]).length := by
        rw [List.length_append, List.length_singleton]
      rw [hlength] at hc'
      have hrest := ih hrounds hc'
      rw [← hassoc, ← hlength] at hrest
      rw [Supplies, decode, bind_of_ok hrun, hrun]
      rcases hrest with ⟨hall, hok⟩ | ⟨hnot, hfail⟩
      · refine .inl ⟨⟨hsupplied, hall⟩, ?_⟩
        rw [bind_run]
        rcases hd : decode build debugAssertions shape layer rest c' with ⟨o, c''⟩
        rw [hd] at hok
        obtain rfl : o = _ := hok
        rw [List.length_cons, List.range'_succ, List.map_cons, hq]
        rfl
      · refine .inr ⟨fun hall => hnot hall.2, fun outputs hok => ?_⟩
        obtain ⟨outputs', c'', hd, -⟩ := of_bind_ok (Prod.ext hok rfl : _ = (Outcome.ok outputs, _))
        exact hfail outputs' (by rw [hd])
    · rw [Supplies, decode]
      refine .inr ⟨fun hall => hnot hall.1, fun outputs hok => ?_⟩
      obtain ⟨output, c', hrun, -⟩ := of_bind_ok (Prod.ext hok rfl : _ = (Outcome.ok outputs, _))
      exact hfail output (by rw [hrun])

/-- A run of the step loop on a fresh cache. -/
structure Decoding (R : Type) where
  build : Build
  debugAssertions : Bool
  reserve : Reserve
  nLayers : Nat
  layer : Nat
  maxSeqLen : Nat
  rounds : List (DecodeRound R)

namespace Decoding

def start (d : Decoding R) (shape : HeadShape) : Except String (KvCache R) :=
  KvCache.new d.reserve d.nLayers shape.kvHeads shape.headDim d.maxSeqLen

def run (d : Decoding R) (shape : HeadShape) : Outcome String (List (List R)) :=
  match d.start shape with
  | .ok c => (decode d.build d.debugAssertions shape d.layer d.rounds c).1
  | .error e => .err e

/-- The cache is allocated, and every token is supplied. -/
def Supplied (d : Decoding R) (shape : HeadShape) : Prop :=
  ∃ c, d.start shape = .ok c ∧ Supplies d.build d.debugAssertions shape d.layer d.rounds c

structure WellShaped (d : Decoding R) (shape : HeadShape) : Prop where
  layer : d.layer < d.nLayers
  rounds : ∀ round ∈ d.rounds, round.WellShaped shape d.layer

/-- The output at position `t`. -/
def expected (d : Decoding R) (shape : HeadShape) (t : Nat) : List R :=
  causalAttention shape (keysOf d.rounds) (valuesOf d.rounds) (queriesOf d.rounds t) t

theorem run_cases (he : F32Math.Exact R) (hg : shape.Grouped) {d : Decoding R}
    (hd : d.WellShaped shape) :
    (d.Supplied shape ∧
      d.run shape = .ok ((List.range d.rounds.length).map (d.expected shape))) ∨
    (¬d.Supplied shape ∧ ∀ outputs, d.run shape ≠ .ok outputs) := by
  unfold Supplied run
  cases hnew : d.start shape with
  | error e => exact .inr ⟨fun ⟨c, hc, _⟩ => (by cases hc), fun outputs hok => (by cases hok)⟩
  | ok c =>
    obtain ⟨hstores, hlayers, hheads, hdim⟩ := KvCache.new_stores hnew
    have hc : Committed shape d.nLayers d.layer (keysOf ([] ++ d.rounds)) (valuesOf ([] ++ d.rounds))
        ([] : List (DecodeRound R)).length c .empty :=
      ⟨hstores, rfl, hlayers, hheads, hdim, fun p hp => absurd hp (Nat.not_lt_zero p),
        fun p hp => absurd hp (Nat.not_lt_zero p)⟩
    rcases decode_run d.build d.debugAssertions he hg hd.layer hd.rounds hc with
      ⟨hall, hok⟩ | ⟨hnot, hfail⟩
    · refine .inl ⟨⟨c, rfl, hall⟩, ?_⟩
      rw [List.range_eq_range']
      exact hok
    · refine .inr ⟨?_, hfail⟩
      rintro ⟨c', hc', hall⟩
      cases hc'
      exact hnot hall

/-- The rows that the output of a head at a position is made of. -/
structure Agree (shape : HeadShape) (d d' : Decoding R) (t head : Nat) : Prop where
  q : Rows.row shape.headDim (queriesOf d.rounds t) head =
    Rows.row shape.headDim (queriesOf d'.rounds t) head
  k : ∀ s ≤ t, Rows.row shape.headDim (keysOf d.rounds s) (head / shape.group) =
    Rows.row shape.headDim (keysOf d'.rounds s) (head / shape.group)
  v : ∀ s ≤ t, Rows.row shape.headDim (valuesOf d.rounds s) (head / shape.group) =
    Rows.row shape.headDim (valuesOf d'.rounds s) (head / shape.group)

omit [LinearOrder R] [IsStrictOrderedRing R] in
theorem row_expected (d : Decoding R) (t : Nat) {head : Nat} (hhead : head < shape.queryHeads) :
    Rows.row shape.headDim (d.expected shape t) head =
      headOutput shape.headDim (head / shape.group)
        (Rows.row shape.headDim (queriesOf d.rounds t) head) (keysOf d.rounds) (valuesOf d.rounds) t :=
  Rows.row_flatMap (fun _ _ => length_headOutput ..) hhead

omit [LinearOrder R] [IsStrictOrderedRing R] in
theorem Agree.row_eq {d d' : Decoding R} {t head : Nat} (h : Agree shape d d' t head)
    (hhead : head < shape.queryHeads) :
    Rows.row shape.headDim (d'.expected shape t) head =
      Rows.row shape.headDim (d.expected shape t) head := by
  rw [row_expected d' t hhead, row_expected d t hhead, headOutput, headOutput, weightedSum, weightedSum]
  refine List.map_congr_left fun j _ => Finset.sum_congr rfl fun s hs => ?_
  have hs : s ≤ t := Nat.le_of_lt_succ (Finset.mem_range.mp hs)
  have hweight : headWeights shape.headDim (head / shape.group)
      (Rows.row shape.headDim (queriesOf d'.rounds t) head) (keysOf d'.rounds) t s =
        headWeights shape.headDim (head / shape.group)
          (Rows.row shape.headDim (queriesOf d.rounds t) head) (keysOf d.rounds) t s := by
    rw [headWeights, headWeights]
    refine share_congr (fun p hp => ?_) (Nat.lt_succ_of_le hs)
    rw [score, score, h.q, h.k p (Nat.le_of_lt_succ hp)]
  rw [hweight, h.v s hs]

/-- Token after token over the cache is causal attention: the output of a head is the sum
of the values up to its position, weighted by positive shares that sum to one.  It depends
on the rows of its own head up to its position and on nothing else. -/
theorem decode_eq_attention (he : F32Math.Exact R) (shape : HeadShape) (hg : shape.Grouped)
    (d : Decoding R) (hd : d.WellShaped shape) :
    (d.Supplied shape → ∃ outputs, d.run shape = .ok outputs) ∧
    ∀ outputs, d.run shape = .ok outputs → outputs.length = d.rounds.length ∧
      ∀ t < d.rounds.length, ∀ head < shape.queryHeads,
        let weight := headWeights shape.headDim (head / shape.group)
          (Rows.row shape.headDim (queriesOf d.rounds t) head) (keysOf d.rounds) t
        Rows.row shape.headDim (outputs.getD t []) head =
            ((List.range shape.headDim).map fun j => ∑ s ∈ Finset.range (t + 1), weight s *
              (Rows.row shape.headDim (valuesOf d.rounds s) (head / shape.group)).getD j 0) ∧
          (∀ s ≤ t, 0 < weight s) ∧ ∑ s ∈ Finset.range (t + 1), weight s = 1 ∧
          ∀ d' : Decoding R, d'.WellShaped shape → ∀ outputs', d'.run shape = .ok outputs' →
            t < d'.rounds.length → Agree shape d d' t head →
              Rows.row shape.headDim (outputs'.getD t []) head =
                Rows.row shape.headDim (outputs.getD t []) head := by
  have houtputs : ∀ (d : Decoding R), d.WellShaped shape → ∀ outputs, d.run shape = .ok outputs →
      outputs.length = d.rounds.length ∧
        ∀ t < d.rounds.length, outputs.getD t [] = d.expected shape t := by
    intro d hd outputs hok
    rcases run_cases he hg hd with ⟨-, hrun⟩ | ⟨-, hfail⟩
    · obtain rfl := Outcome.ok.inj (hok.symm.trans hrun)
      refine ⟨by rw [List.length_map, List.length_range], fun t ht => ?_⟩
      rw [List.getD_eq_getElem?_getD, List.getElem?_map, List.getElem?_range ht]
      rfl
    · exact absurd hok (hfail outputs)
  constructor
  · intro hsupplied
    rcases run_cases he hg hd with ⟨-, hrun⟩ | ⟨hnot, -⟩
    · exact ⟨_, hrun⟩
    · exact absurd hsupplied hnot
  · intro outputs hok
    obtain ⟨hlength, hget⟩ := houtputs d hd outputs hok
    refine ⟨hlength, fun t ht head hhead => ⟨?_, ?_, ?_, ?_⟩⟩
    · rw [hget t ht]
      exact row_expected d t hhead
    · exact fun s hs => softmaxWeight_pos he _ (Nat.lt_succ_of_le hs)
    · exact sum_softmaxWeight he _ (Nat.succ_pos t)
    · intro d' hd' outputs' hok' ht' hagree
      rw [hget t ht, (houtputs d' hd' outputs' hok').2 t ht']
      exact hagree.row_eq hhead

end Decoding

end exact

/-! ### Two equal scores -/

/-- Exact on scores that are all equal: `exp 0` is 1. -/
@[reducible] def levelMath : F32Math ℚ where
  exp := fun _ => 1
  sqrt := Rat.sqrt
  max := max
  negInfinity := -2 ^ 128
  isFinite := fun _ => true
  eq := fun a b => decide (a = b)

theorem levelMath_exact : @F32Math.Exact ℚ _ _ levelMath :=
  @F32Math.Exact.mk ℚ _ _ levelMath (fun _ _ => (mul_one 1).symm) (fun _ => one_pos) (fun _ => rfl)
    fun _ _ => decide_eq_true_iff

/-- A cache of one position that grows before the second token. -/
def levelDecoding : Decoding ℚ where
  build := .release
  debugAssertions := false
  reserve := KvCache.granted
  nLayers := 1
  layer := 0
  maxSeqLen := 1
  rounds :=
    [{ calls := [], q := [0, 0], k := [1], v := [3] },
      { calls := [.growTo KvCache.granted 2], q := [0, 0], k := [2], v := [5] }]

def pairShape : HeadShape where
  queryHeads := 2
  kvHeads := 1
  headDim := 1

theorem decode_eq_attention_level :
    ∃ outputs, @Decoding.run ℚ _ _ levelMath levelDecoding pairShape = .ok outputs ∧
      Rows.row 1 (outputs.getD 1 []) 1 = [4] := by
  have hg : pairShape.Grouped := ⟨by decide, by decide, by decide, by decide, by decide⟩
  have hd : levelDecoding.WellShaped pairShape := by
    refine ⟨by decide, fun round hround => ?_⟩
    rcases List.mem_cons.mp hround with rfl | hround
    · exact ⟨fun call hcall => (by cases hcall), rfl, rfl, rfl⟩
    · obtain rfl := List.mem_singleton.mp hround
      refine ⟨fun call hcall => ?_, rfl, rfl, rfl⟩
      obtain rfl := List.mem_singleton.mp hcall
      trivial
  obtain ⟨hruns, houtputs⟩ := @Decoding.decode_eq_attention ℚ _ _ _ _ levelMath levelMath_exact
    pairShape hg levelDecoding hd
  have hsupplied : @Decoding.Supplied ℚ _ _ levelMath levelDecoding pairShape := by
    refine ⟨_, rfl, ⟨?_, ?_⟩, ⟨?_, ?_⟩, trivial⟩
    all_goals decide +kernel
  obtain ⟨outputs, hok⟩ := hruns hsupplied
  refine ⟨outputs, hok, ?_⟩
  have hrow := ((houtputs outputs hok).2 1 (by decide) 1 (by decide)).1
  rw [show pairShape.headDim = 1 from rfl] at hrow
  rw [hrow]
  decide +kernel

end Ramforge
