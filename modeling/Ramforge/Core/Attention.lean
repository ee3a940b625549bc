/-
Softmax, and the attention of one token over the keys and values before it.

The scores of a query head are written over those of the head before it.
-/
import Ramforge.Core.Compute
import Ramforge.Rust.Checked
import Ramforge.Rust.Ranking

namespace Ramforge

open Rust Rust.Exec

/-- The functions of `f32` besides arithmetic. -/
class F32Math (R : Type) where
  exp : R → R
  sqrt : R → R
  max : R → R → R
  negInfinity : R
  isFinite : R → Bool
  /-- `==`. -/
  eq : R → R → Bool

structure AttentionConfig where
  historyLen : Nat
  queryHeads : Nat
  kvHeads : Nat
  headDim : Nat
deriving DecidableEq, Repr

namespace Compute

variable {R : Type} [Zero R] [Add R] [Sub R] [Mul R] [Div R] [F32 R] [F32Math R]

/-- What a slice says whose end is outside. -/
def rangeEndOutOfRange : String := "range end index out of range"

/-- The state is `values`. -/
def softmaxReference : Computing R Unit := do
  let values ← self
  failIf (values.length = 0) ⟨"softmax requires a non-empty vector"⟩
  let maximum := values.foldl F32Math.max F32Math.negInfinity
  let exps := values.map fun value => F32Math.exp (value - maximum)
  let sum := exps.foldl (· + ·) 0
  modify fun _ => exps
  failIf (¬F32Math.isFinite sum ∨ F32Math.eq sum 0) ⟨"softmax normalization is not finite"⟩
  modify fun _ => exps.map (· / sum)

/-- The keys or the values of all heads at a position. -/
def positionRow {σ : Type} (history current : List R) (config : AttentionConfig)
    (kvWidth position : Nat) : Exec σ ComputeError (List R) :=
  if position < config.historyLen then
    expect (slice history (position * kvWidth) ((position + 1) * kvWidth)) rangeEndOutOfRange
  else pure current

/-- One head of a row of heads. -/
def headSlice {σ : Type} (heads : List R) (head headDim : Nat) : Exec σ ComputeError (List R) :=
  expect (slice heads (head * headDim) ((head + 1) * headDim)) rangeEndOutOfRange

/-- A round of the first loop over the positions; the state is `scores`. -/
def scorePosition (qHead kHistory kCurrent : List R) (config : AttentionConfig)
    (kvWidth kvHead position : Nat) : Computing R Unit := do
  let kAll ← positionRow kHistory kCurrent config kvWidth position
  let kHead ← headSlice kAll kvHead config.headDim
  let dot ← rowSum config.headDim qHead kHead
  store position (dot / F32Math.sqrt (F32.ofInt config.headDim))

/-- A round of the second loop; the state is `output_head`. -/
def addPosition (scores vHistory vCurrent : List R) (config : AttentionConfig)
    (kvWidth kvHead position : Nat) : Computing R Unit := do
  let vAll ← positionRow vHistory vCurrent config kvWidth position
  let vHead ← headSlice vAll kvHead config.headDim
  forRange config.headDim (fun i _ => do
    let outputHead ← self
    let before ← index outputHead i
    let score ← index scores position
    let value ← index vHead i
    store i (before + score * value)) ()

/-- A round of the loop over the query heads; the state is `output` and `scores`. -/
def attentionHead (build : Build) (q kHistory vHistory kCurrent vCurrent : List R)
    (config : AttentionConfig) (kvWidth totalPositions queryHead : Nat) :
    Exec (List R × List R) ComputeError Unit := do
  let scaled ← expect (build.mul queryHead config.kvHeads) Build.mulOverflow
  let kvHead := scaled / config.queryHeads
  let qHead ← headSlice q queryHead config.headDim
  onSnd (forRange totalPositions
    (fun position _ => scorePosition qHead kHistory kCurrent config kvWidth kvHead position) ())
  onSnd softmaxReference
  let (_, scores) ← self
  onFst (onSlice (queryHead * config.headDim) ((queryHead + 1) * config.headDim)
    (forRange totalPositions
      (fun position _ => addPosition scores vHistory vCurrent config kvWidth kvHead position) ()))

def attentionReference {σ : Type} (build : Build) (q kHistory vHistory kCurrent vCurrent : List R)
    (config : AttentionConfig) : Exec σ ComputeError (List R) := do
  failIf (config.queryHeads = 0 ∨ config.kvHeads = 0 ∨ config.headDim = 0)
    ⟨"attention requires non-zero query heads, KV heads, and head dimension"⟩
  failIf (config.queryHeads % config.kvHeads ≠ 0)
    ⟨s!"GQA requires query_heads {config.queryHeads} to be divisible by kv_heads {config.kvHeads}"⟩
  let kvWidth ← okOr (checkedMul config.kvHeads config.headDim) ⟨"attention KV width overflow"⟩
  let qWidth ← okOr (checkedMul config.queryHeads config.headDim)
    ⟨"attention query width overflow"⟩
  let historyWidth ← okOr (checkedMul config.historyLen kvWidth)
    ⟨"attention history size overflow"⟩
  failIf (q.length ≠ qWidth ∨ kHistory.length ≠ historyWidth ∨ vHistory.length ≠ historyWidth ∨
      kCurrent.length ≠ kvWidth ∨ vCurrent.length ≠ kvWidth)
    ⟨"attention tensor shape mismatch"⟩
  let totalPositions ← okOr (checkedAdd config.historyLen 1) ⟨"attention position count overflow"⟩
  let (_, output, _) ← onLocal (List.replicate qWidth 0, List.replicate totalPositions 0)
    (forRange config.queryHeads
      (fun queryHead _ => attentionHead build q kHistory vHistory kCurrent vCurrent config kvWidth
        totalPositions queryHead) ())
  return output

end Compute
end Ramforge

/-!
Attention in exact arithmetic: every query head gets the sum of the values up to its
position, weighted by the shares of the exponentials of its scores.
-/

namespace Ramforge

open Rust Rust.Exec Rust.Rows Finset

/-- Arithmetic without rounding, and an exponential function. -/
structure F32Math.Exact (R : Type) [Field R] [LinearOrder R] [F32Math R] : Prop where
  exp_add : ∀ a b : R, exp (a + b) = exp a * exp b
  exp_pos : ∀ a : R, 0 < exp a
  isFinite : ∀ a : R, F32Math.isFinite a = true
  eq_iff : ∀ a b : R, eq a b = true ↔ a = b

namespace Compute

section rows

variable {R : Type} {σ : Type}

theorem positionRow_run {k : Nat → List R} {config : AttentionConfig} {width : Nat}
    (hk : ∀ p < config.historyLen, (k p).length = width) {p : Nat} (hp : p ≤ config.historyLen) :
    (positionRow ((List.range config.historyLen).flatMap k) (k config.historyLen) config width p :
      Exec σ ComputeError (List R)) = pure (k p) := by
  unfold positionRow
  split
  · rename_i hlt
    have hlen := length_flatMap (n := config.historyLen) hk
    rw [slice_row (by rw [hlen]; exact Nat.mul_le_mul_right width hlt), row_flatMap hk hlt,
      expect_some]
  · obtain rfl : p = config.historyLen := by omega
    rfl

theorem headSlice_run {heads : List R} {n head headDim : Nat} (hlen : heads.length = n * headDim)
    (hhead : head < n) :
    (headSlice heads head headDim : Exec σ ComputeError (List R)) = pure (row headDim heads head) := by
  rw [headSlice, slice_row (by rw [hlen]; exact Nat.mul_le_mul_right headDim hhead), expect_some]

end rows

variable {R : Type} [Field R]

section softmax

variable [LinearOrder R] [IsStrictOrderedRing R] [F32Math R]

/-- Softmax of the first `n` values of `f`. -/
def softmaxWeight (f : Nat → R) (n i : Nat) : R := share (fun j => F32Math.exp (f j)) n i

theorem softmaxWeight_pos (he : F32Math.Exact R) (f : Nat → R) {n i : Nat} (hi : i < n) :
    0 < softmaxWeight f n i :=
  share_pos (fun _ _ => he.exp_pos _) hi

theorem sum_softmaxWeight (he : F32Math.Exact R) (f : Nat → R) {n : Nat} (hn : 0 < n) :
    ∑ i ∈ range n, softmaxWeight f n i = 1 :=
  sum_share (sum_range_pos hn fun _ _ => he.exp_pos _).ne'

theorem softmaxReference_run (he : F32Math.Exact R) (f : Nat → R) {n : Nat} (hn : 0 < n) :
    softmaxReference ((List.range n).map f) = (.ok (), (List.range n).map (softmaxWeight f n)) := by
  have hlength : ((List.range n).map f).length ≠ 0 := by
    rw [List.length_map, List.length_range]
    omega
  unfold softmaxReference
  rw [self_bind_run, failIf_bind_run, if_neg hlength]
  generalize ((List.range n).map f).foldl F32Math.max F32Math.negInfinity = maximum
  have hexps : ((List.range n).map f).map (fun value => F32Math.exp (value - maximum)) =
      (List.range n).map fun j => F32Math.exp (-maximum) * F32Math.exp (f j) := by
    rw [List.map_map]
    refine List.map_congr_left fun j _ => ?_
    show F32Math.exp (f j - maximum) = _
    rw [← he.exp_add, neg_add_eq_sub]
  have hsum : ((List.range n).map fun j =>
      F32Math.exp (-maximum) * F32Math.exp (f j)).foldl (· + ·) 0 =
        ∑ j ∈ range n, F32Math.exp (-maximum) * F32Math.exp (f j) := by
    rw [← List.sum_eq_foldl]
    rfl
  have hpos : 0 < ∑ j ∈ range n, F32Math.exp (-maximum) * F32Math.exp (f j) :=
    sum_range_pos hn fun j _ => mul_pos (he.exp_pos _) (he.exp_pos _)
  rw [hexps, hsum]
  have hfinite : ¬(¬F32Math.isFinite (∑ j ∈ range n, F32Math.exp (-maximum) * F32Math.exp (f j)) = true ∨
      F32Math.eq (∑ j ∈ range n, F32Math.exp (-maximum) * F32Math.exp (f j)) 0 = true) := by
    rw [he.isFinite, he.eq_iff]
    exact not_or.mpr ⟨not_not.mpr rfl, hpos.ne'⟩
  rw [modify_bind_run, failIf_bind_run, if_neg hfinite]
  show (Outcome.ok (), _) = _
  rw [List.map_map]
  refine Prod.ext rfl (List.map_congr_left fun j _ => ?_)
  exact share_mul_left (w := fun j => F32Math.exp (f j)) (he.exp_pos (-maximum)).ne' n j

end softmax

/-! ## One query head -/

section head

variable [F32 R] [F32Math R] {k : Nat → List R} {config : AttentionConfig} {kvHead : Nat}

/-- The scaled product of a query head with the keys of its head at a position. -/
def score (headDim kvHead : Nat) (qHead : List R) (k : Nat → List R) (p : Nat) : R :=
  dot qHead (row headDim (k p) kvHead) / F32Math.sqrt (F32.ofInt headDim)

theorem scorePosition_run {qHead : List R} (hq : qHead.length = config.headDim)
    (hk : ∀ p ≤ config.historyLen, (k p).length = config.kvHeads * config.headDim)
    (hhead : kvHead < config.kvHeads) {p : Nat} (hp : p ≤ config.historyLen) {scores : List R}
    (hscores : p < scores.length) :
    scorePosition qHead ((List.range config.historyLen).flatMap k) (k config.historyLen) config
        (config.kvHeads * config.headDim) kvHead p scores =
      (.ok (), scores.set p (score config.headDim kvHead qHead k p)) := by
  have hrow : (row config.headDim (k p) kvHead).length = config.headDim :=
    length_row (by rw [hk p hp]; exact Nat.mul_le_mul_right _ hhead)
  rw [scorePosition, positionRow_run (fun p hp => hk p (Nat.le_of_lt hp)) hp, pure_bind_run,
    headSlice_run (hk p hp) hhead, pure_bind_run, bind_of_ok (rowSum_run hq hrow _),
    store_of_lt hscores]
  rfl

theorem scores_run {qHead scores : List R} (hq : qHead.length = config.headDim)
    (hk : ∀ p ≤ config.historyLen, (k p).length = config.kvHeads * config.headDim)
    (hhead : kvHead < config.kvHeads) (hscores : scores.length = config.historyLen + 1) :
    forRange (config.historyLen + 1)
        (fun position _ => scorePosition qHead ((List.range config.historyLen).flatMap k)
          (k config.historyLen) config (config.kvHeads * config.headDim) kvHead position) () scores =
      (.ok (), (List.range (config.historyLen + 1)).map
        (score config.headDim kvHead qHead k)) := by
  refine forRange_fill hscores fun p hp ys hys => ?_
  exact scorePosition_run hq hk hhead (Nat.le_of_lt_succ hp) (by omega)

end head

section values

variable {v : Nat → List R} {config : AttentionConfig} {kvHead : Nat}

/-- The values of a head up to `n`, weighted. -/
def weightedSum (headDim kvHead : Nat) (weights : Nat → R) (v : Nat → List R) (n : Nat) : List R :=
  (List.range headDim).map fun j => ∑ p ∈ range n, weights p * (row headDim (v p) kvHead).getD j 0

theorem addPosition_run {weights : Nat → R} {window : List R}
    (hv : ∀ p ≤ config.historyLen, (v p).length = config.kvHeads * config.headDim)
    (hhead : kvHead < config.kvHeads) {p : Nat} (hp : p ≤ config.historyLen)
    (hwindow : window.length = config.headDim) :
    addPosition ((List.range (config.historyLen + 1)).map weights)
        ((List.range config.historyLen).flatMap v) (v config.historyLen) config
        (config.kvHeads * config.headDim) kvHead p window =
      (.ok (), (List.range config.headDim).map fun j =>
        window.getD j 0 + weights p * (row config.headDim (v p) kvHead).getD j 0) := by
  have hrow : (row config.headDim (v p) kvHead).length = config.headDim :=
    length_row (by rw [hv p hp]; exact Nat.mul_le_mul_right _ hhead)
  have hweight : ((List.range (config.historyLen + 1)).map weights)[p]? = some (weights p) := by
    rw [List.getElem?_map, List.getElem?_range (by omega), Option.map_some]
  rw [addPosition, positionRow_run (fun p hp => hv p (Nat.le_of_lt hp)) hp, pure_bind_run,
    headSlice_run (hv p hp) hhead, pure_bind_run]
  refine forRange_update (u := fun j before =>
    before + weights p * (row config.headDim (v p) kvHead).getD j 0) 0 hwindow
    fun j hj ys hys => ?_
  rw [self_bind_run, index_of_lt (by omega) 0, pure_bind_run, index_of_getElem? hweight,
    pure_bind_run, index_of_lt (by omega) 0, pure_bind_run, store_of_lt (by omega)]

/-- The second loop adds the weighted values to a window of zeros. -/
theorem values_run {weights : Nat → R}
    (hv : ∀ p ≤ config.historyLen, (v p).length = config.kvHeads * config.headDim)
    (hhead : kvHead < config.kvHeads) :
    forRange (config.historyLen + 1)
        (fun position _ => addPosition ((List.range (config.historyLen + 1)).map weights)
          ((List.range config.historyLen).flatMap v) (v config.historyLen) config
          (config.kvHeads * config.headDim) kvHead position) ()
        (List.replicate config.headDim 0) =
      (.ok (), weightedSum config.headDim kvHead weights v (config.historyLen + 1)) := by
  have hzero : List.replicate config.headDim 0 = weightedSum config.headDim kvHead weights v 0 := by
    rw [weightedSum]
    simp only [range_zero, sum_empty, List.map_const', List.length_range]
  rw [hzero]
  refine forRange_run (fun _ => ()) (weightedSum config.headDim kvHead weights v) fun p hp => ?_
  have hlen : (weightedSum config.headDim kvHead weights v p).length = config.headDim := by
    rw [weightedSum, List.length_map, List.length_range]
  rw [addPosition_run hv hhead (Nat.le_of_lt_succ hp) hlen]
  refine Prod.ext rfl (List.map_congr_left fun j hj => ?_)
  have hold : (weightedSum config.headDim kvHead weights v p).getD j 0 =
      ∑ p' ∈ range p, weights p' * (row config.headDim (v p') kvHead).getD j 0 := by
    rw [weightedSum, List.getD_eq_getElem?_getD, List.getElem?_map, List.getElem?_range
      (List.mem_range.mp hj)]
    rfl
  rw [hold, sum_range_succ]

end values

/-! ## All query heads -/

section heads

variable [F32 R] [F32Math R]

/-- The shares of the positions up to `t` for a query head that reads the head `kvHead`. -/
def headWeights (headDim kvHead : Nat) (qHead : List R) (k : Nat → List R) (t : Nat) : Nat → R :=
  softmaxWeight (score headDim kvHead qHead k) (t + 1)

/-- Causal attention of one query head at position `t`. -/
def headOutput (headDim kvHead : Nat) (qHead : List R) (k v : Nat → List R) (t : Nat) : List R :=
  weightedSum headDim kvHead (headWeights headDim kvHead qHead k t) v (t + 1)

theorem length_headOutput (headDim kvHead : Nat) (qHead : List R) (k v : Nat → List R) (t : Nat) :
    (headOutput headDim kvHead qHead k v t).length = headDim := by
  rw [headOutput, weightedSum, List.length_map, List.length_range]

variable [LinearOrder R] [IsStrictOrderedRing R] {q : List R} {k v : Nat → List R}
  {config : AttentionConfig}

theorem attentionHead_run (build : Build) (he : F32Math.Exact R) (hq : q.length = config.queryHeads * config.headDim)
    (hk : ∀ p ≤ config.historyLen, (k p).length = config.kvHeads * config.headDim)
    (hv : ∀ p ≤ config.historyLen, (v p).length = config.kvHeads * config.headDim)
    (hproduct : config.queryHeads * config.kvHeads < u64Bound) {queryHead kvHead : Nat}
    (hhead : queryHead < config.queryHeads)
    (hmap : queryHead * config.kvHeads / config.queryHeads = kvHead) (hkv : kvHead < config.kvHeads)
    (before after : List R) {scores : List R} (hbefore : before.length = queryHead * config.headDim)
    (hscores : scores.length = config.historyLen + 1) :
    ∃ scores', scores'.length = config.historyLen + 1 ∧
      attentionHead build q ((List.range config.historyLen).flatMap k)
          ((List.range config.historyLen).flatMap v) (k config.historyLen) (v config.historyLen) config
          (config.kvHeads * config.headDim) (config.historyLen + 1) queryHead
          (before ++ List.replicate config.headDim 0 ++ after, scores) =
        (.ok (), (before ++ headOutput config.headDim kvHead (row config.headDim q queryHead) k v
          config.historyLen ++ after, scores')) := by
  have hmul : queryHead * config.kvHeads < u64Bound :=
    Nat.lt_of_le_of_lt (Nat.mul_le_mul_right _ (Nat.le_of_lt hhead)) hproduct
  have hqHead : (row config.headDim q queryHead).length = config.headDim :=
    length_row (by rw [hq]; exact Nat.mul_le_mul_right _ hhead)
  have hscored := scores_run (k := k) hqHead hk hkv hscores
  have hsoftmax := softmaxReference_run he
    (score config.headDim kvHead (row config.headDim q queryHead) k) (Nat.succ_pos config.historyLen)
  refine ⟨(List.range (config.historyLen + 1)).map
    (headWeights config.headDim kvHead (row config.headDim q queryHead) k config.historyLen),
    by rw [List.length_map, List.length_range], ?_⟩
  rw [attentionHead, Build.mul_of_lt hmul, expect_some, pure_bind_run, headSlice_run hq hhead,
    pure_bind_run]
  simp only [hmap]
  rw [bind_of_ok (a := ()) (by rw [onSnd_run, hscored]), bind_of_ok (a := ())
    (by rw [onSnd_run, hsoftmax]), self_bind_run]
  show onFst _ _ = _
  have hwindow : before.length + (List.replicate config.headDim (0 : R)).length =
      (queryHead + 1) * config.headDim := by
    rw [hbefore, List.length_replicate, Nat.succ_mul]
  rw [onFst, onSlice_run hbefore hwindow]
  rw [values_run hv hkv]
  rfl

/-- The loop over the query heads fills the output from the left. -/
theorem heads_run (build : Build) (he : F32Math.Exact R)
    (hq : q.length = config.queryHeads * config.headDim)
    (hk : ∀ p ≤ config.historyLen, (k p).length = config.kvHeads * config.headDim)
    (hv : ∀ p ≤ config.historyLen, (v p).length = config.kvHeads * config.headDim)
    (hproduct : config.queryHeads * config.kvHeads < u64Bound) {kvHead : Nat → Nat}
    (hmap : ∀ h, h * config.kvHeads / config.queryHeads = kvHead h)
    (hkv : ∀ h < config.queryHeads, kvHead h < config.kvHeads) :
    ∃ scores, forRange config.queryHeads
        (fun queryHead _ => attentionHead build q ((List.range config.historyLen).flatMap k)
          ((List.range config.historyLen).flatMap v) (k config.historyLen) (v config.historyLen) config
          (config.kvHeads * config.headDim) (config.historyLen + 1) queryHead) ()
        (List.replicate (config.queryHeads * config.headDim) 0,
          List.replicate (config.historyLen + 1) 0) =
      (.ok (), ((List.range config.queryHeads).flatMap fun h =>
        headOutput config.headDim (kvHead h) (row config.headDim q h) k v config.historyLen, scores)) := by
  have hloop := forRange_invariant
    (I := fun n (_ : Unit) (s : List R × List R) =>
      s.1 = ((List.range n).flatMap fun h =>
          headOutput config.headDim (kvHead h) (row config.headDim q h) k v config.historyLen) ++
        List.replicate ((config.queryHeads - n) * config.headDim) 0 ∧
      s.2.length = config.historyLen + 1)
    (n := config.queryHeads) (b := ())
    (f := fun queryHead _ => attentionHead build q ((List.range config.historyLen).flatMap k)
      ((List.range config.historyLen).flatMap v) (k config.historyLen) (v config.historyLen) config
      (config.kvHeads * config.headDim) (config.historyLen + 1) queryHead)
    (s := (List.replicate (config.queryHeads * config.headDim) 0,
      List.replicate (config.historyLen + 1) 0)) ⟨rfl, List.length_replicate⟩ ?_
  · obtain ⟨_, ⟨output, scores⟩, hrun, houtput, -⟩ := hloop
    rw [Nat.sub_self, Nat.zero_mul, List.replicate_zero, List.append_nil] at houtput
    obtain rfl : output = _ := houtput
    exact ⟨scores, hrun⟩
  · rintro n hn ⟨⟩ ⟨output, scores⟩ ⟨houtput, hscores⟩
    obtain rfl : output = _ := houtput
    have hrest : List.replicate ((config.queryHeads - n) * config.headDim) (0 : R) =
        List.replicate config.headDim 0 ++
          List.replicate ((config.queryHeads - (n + 1)) * config.headDim) 0 := by
      rw [List.replicate_append_replicate, Nat.add_comm, ← Nat.succ_mul]
      congr 2
      omega
    obtain ⟨scores', hscores', hstep⟩ := attentionHead_run build he hq hk hv hproduct hn
      (hmap n) (hkv n hn)
      ((List.range n).flatMap fun h =>
        headOutput config.headDim (kvHead h) (row config.headDim q h) k v config.historyLen)
      (List.replicate ((config.queryHeads - (n + 1)) * config.headDim) 0)
      (length_flatMap fun h _ => length_headOutput ..) hscores
    refine ⟨(), _, by rw [hrest, ← List.append_assoc, hstep], ?_, hscores'⟩
    rw [List.range_succ, List.flatMap_append, List.flatMap_singleton]

/-- The query heads in their order, each with the K/V head of its group. -/
theorem attentionReference_run {σ : Type} (config : AttentionConfig) (build : Build)
    (he : F32Math.Exact R) {group : Nat}
    (hheads : config.queryHeads = config.kvHeads * group) (hpos : 0 < config.queryHeads)
    (hdim : 0 < config.headDim) (hproduct : config.queryHeads * config.kvHeads < u64Bound)
    (hq : q.length = config.queryHeads * config.headDim) (hqBound : q.length < u64Bound)
    (hk : ∀ p ≤ config.historyLen, (k p).length = config.kvHeads * config.headDim)
    (hv : ∀ p ≤ config.historyLen, (v p).length = config.kvHeads * config.headDim)
    (hbound : (config.historyLen + 1) * (config.kvHeads * config.headDim) < u64Bound) (s : σ) :
    attentionReference build q ((List.range config.historyLen).flatMap k)
        ((List.range config.historyLen).flatMap v) (k config.historyLen) (v config.historyLen) config s =
      (.ok ((List.range config.queryHeads).flatMap fun h =>
        headOutput config.headDim (h / group) (row config.headDim q h) k v config.historyLen), s) := by
  have hkvHeads : 0 < config.kvHeads := Nat.pos_of_mul_pos_right (hheads ▸ hpos)
  have hgroup : 0 < group := Nat.pos_of_mul_pos_left (hheads ▸ hpos)
  have hkv : 0 < config.kvHeads * config.headDim := Nat.mul_pos hkvHeads hdim
  have hsucc : (config.historyLen + 1) * (config.kvHeads * config.headDim) =
      config.historyLen * (config.kvHeads * config.headDim) + config.kvHeads * config.headDim :=
    Nat.succ_mul _ _
  have hcount : config.historyLen + 1 ≤ (config.historyLen + 1) * (config.kvHeads * config.headDim) :=
    Nat.le_mul_of_pos_right _ hkv
  have hmap : ∀ h, h * config.kvHeads / config.queryHeads = h / group := by
    intro h
    rw [hheads, Nat.mul_comm h, Nat.mul_div_mul_left _ _ hkvHeads]
  have hless : ∀ h < config.queryHeads, h / group < config.kvHeads := by
    intro h hh
    rw [Nat.div_lt_iff_lt_mul hgroup, ← hheads]
    exact hh
  have hkLength := length_flatMap (n := config.historyLen) fun p hp => hk p (Nat.le_of_lt hp)
  have hvLength := length_flatMap (n := config.historyLen) fun p hp => hv p (Nat.le_of_lt hp)
  rw [attentionReference, failIf_bind_run, if_neg (by omega), failIf_bind_run,
    if_neg (by rw [hheads, Nat.mul_mod_right]; exact not_not.mpr rfl),
    checkedMul_of_lt (by omega), okOr_some, pure_bind_run, checkedMul_of_lt (by omega), okOr_some,
    pure_bind_run, checkedMul_of_lt (by omega), okOr_some, pure_bind_run, failIf_bind_run,
    if_neg (by rw [hq, hkLength, hvLength, hk _ (Nat.le_refl _), hv _ (Nat.le_refl _)]; simp),
    checkedAdd_of_lt (by omega), okOr_some, pure_bind_run]
  obtain ⟨scores, hrun⟩ := heads_run build he hq hk hv hproduct hmap hless
  rw [onLocal_of_ok hrun]
  rfl

end heads

end Compute
end Ramforge
