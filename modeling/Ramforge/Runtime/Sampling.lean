/-
The sampler: the greatest logit, or a draw from the softmax of the scaled logits after
two filters.

Arithmetic is exact, so a finite logit is a number of an ordered field; the negative
infinity that the first filter writes is the bottom added to it.
-/
import Mathlib.Algebra.Order.Monoid.WithTop
import Mathlib.Analysis.SpecialFunctions.Exp
import Ramforge.Rust.Ranking
import Ramforge.Rust.Scope

namespace Ramforge

open Rust Rust.Ranking Finset

class F32Exp (R : Type) where
  exp : R → R

noncomputable instance : F32Exp ℝ := ⟨Real.exp⟩

structure Sampler (R : Type) where
  temperature : R
  topK : Option Nat
  topP : Option R

/-- What the allocator answers to the reservations of a call; `none` where it succeeds. -/
structure SamplerMemory where
  scaled : Option String
  topKTable : Option String
  topPTable : Option String

namespace SamplerMemory

def reserve (answer : Option String) (what : String) : Except String Unit :=
  match answer with
  | none => .ok ()
  | some error => .error s!"failed to reserve {what}: {error}"

/-- Every reservation succeeds. -/
def enough : SamplerMemory where
  scaled := none
  topKTable := none
  topPTable := none

end SamplerMemory

/-- `u32::try_from` of a sampled index. -/
def tokenOfIndex (i : Nat) : Except String Nat :=
  if i < 2 ^ 32 then .ok i else .error "sampled token index exceeds u32"

namespace Sampler

section model

variable {R : Type} [Zero R] [Add R] [Sub R] [Div R] [LinearOrder R] [F32Exp R]

def greedyIndex (first : R) (rest : List R) : Nat :=
  ((rest.zipIdx 1).foldl
    (fun (best : Nat × R) entry => if best.2 < entry.1 then (entry.2, entry.1) else best)
    (0, first)).1

/-- The table of the values sorted from the greatest down, equal values in their order. -/
def sortedTable {α : Type} [LinearOrder α] (values : List α) : List (Nat × α) :=
  (enumerate values).insertionSort fun a b => b.2 ≤ a.2

def maskTopK (k : Nat) (scaled : List (WithBot R)) : List (WithBot R) :=
  scatter ((sortedTable scaled).take k) (scaled.map fun _ => ⊥)

def applyTopK (sampler : Sampler R) (memory : SamplerMemory) (scaled : List (WithBot R)) :
    Except String (List (WithBot R)) :=
  match sampler.topK with
  | none => .ok scaled
  | some k =>
    if 0 < k ∧ k < scaled.length then do
      SamplerMemory.reserve memory.topKTable "sampler index table"
      return maskTopK k scaled
    else .ok scaled

/-- The greatest value is a number where some value is one. -/
def softmaxEntry (max : WithBot R) : WithBot R → R
  | ⊥ => 0
  | (value : R) => F32Exp.exp (value - max.unbotD 0)

def softmax (scaled : List (WithBot R)) : List R :=
  let max := scaled.foldl max ⊥
  let sum := scaled.foldl (fun sum v => if v = ⊥ then sum else sum + softmaxEntry max v) 0
  let exps := scaled.map (softmaxEntry max)
  if 0 < sum then exps.map (· / sum) else exps

/-- The place where the running sum of a loop first reaches a bound. -/
def reachedAt (bound : R) : List R → R → Nat → Option Nat
  | [], _, _ => none
  | prob :: rest, cumsum, i =>
    if bound ≤ cumsum + prob then some i else reachedAt bound rest (cumsum + prob) (i + 1)

/-- The number of entries of a sorted table that the second filter keeps. -/
def cutoff (p : R) (indexed : List (Nat × R)) : Nat :=
  match reachedAt p (indexed.map Prod.snd) 0 0 with
  | some i => i + 1
  | none => indexed.length

def keepTopP (p : R) (probs : List R) : List R :=
  let indexed := sortedTable probs
  let kept := scatter (indexed.take (cutoff p indexed)) (probs.map fun _ => 0)
  let sum := kept.foldl (· + ·) 0
  if 0 < sum then kept.map (· / sum) else kept

variable [One R]

def applyTopP (sampler : Sampler R) (memory : SamplerMemory) (probs : List R) :
    Except String (List R) :=
  match sampler.topP with
  | none => .ok probs
  | some p =>
    if p < 1 ∧ 0 < p then do
      SamplerMemory.reserve memory.topPTable "sampler index table"
      return keepTopP p probs
    else .ok probs

/-- `draw` is what the generator returns. -/
def sampleChecked (sampler : Sampler R) (memory : SamplerMemory) (logits : List R) (draw : R) :
    Except String Nat :=
  match logits with
  | [] => .ok 0
  | first :: rest =>
    if sampler.temperature ≤ 0 then tokenOfIndex (greedyIndex first rest)
    else do
      SamplerMemory.reserve memory.scaled "scaled logits"
      let scaled ← sampler.applyTopK memory
        ((first :: rest).map fun v => ((v / sampler.temperature : R) : WithBot R))
      let probs ← sampler.applyTopP memory (softmax scaled)
      -- the last entry where no sum reaches the draw
      tokenOfIndex ((reachedAt draw probs 0 0).getD (probs.length - 1))

end model

/-! ## The loops -/

section loops

variable {R : Type} [LinearOrder R]

theorem foldl_max_eq {l : List R} {a b : R} (hb : b ≤ a) (hl : ∀ v ∈ l, v ≤ a) (h : b = a ∨ a ∈ l) :
    l.foldl max b = a := by
  induction l generalizing b with
  | nil => exact h.resolve_right List.not_mem_nil
  | cons v l ih =>
    have hv := hl v List.mem_cons_self
    refine ih (max_le hb hv) (fun u hu => hl u (List.mem_cons_of_mem _ hu)) ?_
    rcases h with rfl | h
    · exact .inl (max_eq_left hv)
    · rcases List.mem_cons.mp h with rfl | h
      · exact .inl (max_eq_right hb)
      · exact .inr h

variable [Field R]

theorem reachedAt_eq {bound : R} {l : List R} {m : Nat} (hm : m < l.length) {cumsum : R}
    (hbelow : ∀ j < m, cumsum + (l.take (j + 1)).sum < bound)
    (hreach : bound ≤ cumsum + (l.take (m + 1)).sum) (i : Nat) :
    reachedAt bound l cumsum i = some (i + m) := by
  induction l generalizing m cumsum i with
  | nil => exact absurd hm (Nat.not_lt_zero m)
  | cons prob rest ih =>
    rw [reachedAt]
    cases m with
    | zero =>
      rw [Nat.zero_add, List.take_succ_cons, List.take_zero, List.sum_singleton] at hreach
      rw [if_pos hreach, Nat.add_zero]
    | succ m =>
      have hfirst := hbelow 0 (Nat.succ_pos m)
      rw [Nat.zero_add, List.take_succ_cons, List.take_zero, List.sum_singleton] at hfirst
      rw [List.take_succ_cons, List.sum_cons, ← add_assoc] at hreach
      have hrest : ∀ j < m, cumsum + prob + (rest.take (j + 1)).sum < bound := by
        intro j hj
        have hnext := hbelow (j + 1) (Nat.succ_lt_succ hj)
        rwa [List.take_succ_cons, List.sum_cons, ← add_assoc] at hnext
      rw [if_neg (not_le.mpr hfirst), ih (Nat.lt_of_succ_lt_succ hm) hrest hreach, Nat.add_assoc,
        Nat.add_comm 1]

omit [LinearOrder R] in
theorem sum_take_map_range {w : Nat → R} {n m : Nat} (hm : m ≤ n) :
    (((List.range n).map w).take m).sum = ∑ i ∈ range m, w i := by
  rw [← List.map_take, List.take_range, Nat.min_eq_left hm]
  rfl

omit [LinearOrder R] in
theorem foldl_add_eq_sum (w : Nat → R) (n : Nat) :
    ((List.range n).map w).foldl (· + ·) 0 = ∑ i ∈ range n, w i := by
  rw [← List.sum_eq_foldl]
  rfl

omit [LinearOrder R] in
theorem foldl_sum_mem (S : Finset Nat) (w : Nat → R) (n : Nat) :
    (List.range n).foldl (fun sum i => if i ∈ S then sum + w i else sum) 0 =
      ∑ i ∈ range n with i ∈ S, w i := by
  induction n with
  | zero => rfl
  | succ n ih =>
    rw [List.range_succ, List.foldl_append, ih, List.foldl_cons, List.foldl_nil, range_add_one,
      filter_insert]
    split
    · rw [sum_insert (by simp), add_comm]
    · rfl

end loops

/-! ## The filters -/

section filters

variable {R : Type} [LinearOrder R] {n : Nat} {x : Nat → R} {S : Finset Nat}

theorem rank_coe (x : Nat → R) (n i : Nat) : rank (fun i => (x i : WithBot R)) n i = rank x n i := by
  refine congrArg card (filter_congr fun j _ => ?_)
  simp only [Before, WithBot.coe_lt_coe, WithBot.coe_inj]

theorem mem_first_coe {m i : Nat} : i ∈ first (fun i => (x i : WithBot R)) n m ↔ i ∈ first x n m := by
  rw [mem_first, mem_first, rank_coe]

/-- The greatest of the first `n` values. -/
def largest (x : Nat → R) (n : Nat) : R := ((List.range n).map x).foldl max (x 0)

/-- A place with the greatest value. -/
def IsTop (x : Nat → R) (n i : Nat) : Prop := i < n ∧ ∀ j < n, x j ≤ x i

theorem largest_eq {i : Nat} (h : IsTop x n i) : largest x n = x i := by
  refine foldl_max_eq (h.2 0 (Nat.zero_lt_of_lt h.1)) (fun v hv => ?_)
    (.inr (List.mem_map.mpr ⟨i, List.mem_range.mpr h.1, rfl⟩))
  obtain ⟨j, hj, rfl⟩ := List.mem_map.mp hv
  exact h.2 j (List.mem_range.mp hj)

theorem exists_isTop (hn : 0 < n) (x : Nat → R) : ∃ i, IsTop x n i ∧ rank x n i = 0 := by
  obtain ⟨i, hi⟩ : ∃ i, (order x n)[0]? = some i := by
    have hlen : (order x n).length = n := (perm_order x n).length_eq.trans List.length_range
    exact ⟨_, List.getElem?_eq_getElem (hlen.symm ▸ hn)⟩
  have hmem : i < n := List.mem_range.mp ((perm_order x n).mem_iff.mp (List.mem_of_getElem? hi))
  have hrank := rank_of_getElem? hi
  refine ⟨i, ⟨hmem, fun j hj => ?_⟩, hrank⟩
  by_contra hlt
  have hbefore := rank_lt_rank (f := x) hj (.inl (not_le.mp hlt) : Before x j i)
  omega

/-- The values with negative infinity outside a set. -/
def masked (S : Finset Nat) (x : Nat → R) (i : Nat) : WithBot R := if i ∈ S then (x i : WithBot R) else ⊥

theorem maskTopK_eq (k n : Nat) (x : Nat → R) :
    maskTopK k ((List.range n).map fun i => (x i : WithBot R)) =
      (List.range n).map (masked (first x n k) x) := by
  rw [maskTopK, sortedTable, sorted_table, ← List.map_take, List.map_map]
  refine (scatter_map_range _ _ _ _).trans (List.map_congr_left fun i _ => ?_)
  simp only [mem_take_order, mem_first_coe]
  rfl

theorem foldl_masked {i : Nat} (hi : i ∈ S) (htop : IsTop x n i) :
    ((List.range n).map (masked S x)).foldl max ⊥ = ((largest x n : R) : WithBot R) := by
  rw [largest_eq htop]
  refine foldl_max_eq bot_le (fun v hv => ?_) (.inr ?_)
  · obtain ⟨j, hj, rfl⟩ := List.mem_map.mp hv
    rw [masked]
    split
    · exact WithBot.coe_le_coe.mpr (htop.2 j (List.mem_range.mp hj))
    · exact bot_le
  · refine List.mem_map.mpr ⟨i, List.mem_range.mpr htop.1, ?_⟩
    rw [masked, if_pos hi]

variable [Field R] [F32Exp R]

/-- The weight of a value in the softmax. -/
def weight (x : Nat → R) (n i : Nat) : R := F32Exp.exp (x i - largest x n)

theorem softmaxEntry_masked (i : Nat) :
    softmaxEntry ((largest x n : R) : WithBot R) (masked S x i) = if i ∈ S then weight x n i else 0 := by
  rw [masked]
  split
  · rfl
  · rfl

variable [IsStrictOrderedRing R]

/-- Softmax of what a filter left, when it left a greatest value. -/
theorem softmax_masked (hexp : ∀ v : R, 0 < F32Exp.exp v) (hS : S ⊆ range n) {i : Nat} (hi : i ∈ S)
    (htop : IsTop x n i) :
    softmax ((List.range n).map (masked S x)) = (List.range n).map (shareIn S (weight x n)) := by
  have hsum : ((List.range n).map (masked S x)).foldl
      (fun sum v => if v = ⊥ then sum else sum + softmaxEntry ((largest x n : R) : WithBot R) v) 0 =
        ∑ i ∈ S, weight x n i := by
    have hfilter : (range n).filter (· ∈ S) = S := by
      rw [filter_mem_eq_inter, inter_eq_right.mpr hS]
    conv_rhs => rw [← hfilter]
    rw [List.foldl_map, ← foldl_sum_mem]
    refine congrArg (fun f => List.foldl f 0 (List.range n)) (funext₂ fun sum i => ?_)
    rw [softmaxEntry_masked, masked]
    by_cases hiS : i ∈ S
    · simp [hiS]
    · simp [hiS]
  have hpos : 0 < ∑ i ∈ S, weight x n i := sum_pos (fun _ _ => hexp _) ⟨i, hi⟩
  rw [softmax]
  simp only [foldl_masked hi htop, hsum]
  rw [if_pos hpos, List.map_map, List.map_map]
  refine List.map_congr_left fun j _ => ?_
  show softmaxEntry _ _ / _ = _
  rw [softmaxEntry_masked, shareIn]
  split
  · rfl
  · rw [zero_div]

omit [F32Exp R] [IsStrictOrderedRing R] in
/-- The second filter keeps the shortest beginning that reaches its mass. -/
theorem keepTopP_eq {q : Nat → R} {p : R} {m : Nat} (hp : 0 < p) (hm : Shortest q n q p m)
    (hmn : m ≤ n) :
    keepTopP p ((List.range n).map q) = (List.range n).map (shareIn (first q n m) q) := by
  have hlength : (order q n).length = n := (perm_order q n).length_eq.trans List.length_range
  have hpositive : 0 < m := by
    refine Nat.pos_of_ne_zero fun h => ?_
    have hreach := hm.1
    rw [h, Set.mem_ofPred_eq, sum_eq_zero fun i hi => absurd (mem_first.mp hi).2 (Nat.not_lt_zero _)]
      at hreach
    exact not_lt.mpr hreach hp
  have hcutoff : cutoff p ((order q n).map fun i => (i, q i)) = m := by
    have hsnd : ((order q n).map fun i => (i, q i)).map Prod.snd = (order q n).map q := by
      rw [List.map_map]
      rfl
    have hbelow : ∀ j < m - 1, 0 + ((((order q n).map q).take (j + 1)).sum) < p := by
      intro j hj
      rw [zero_add, ← List.map_take, sum_take_order]
      refine not_le.mp fun hreach => ?_
      have hle := hm.2 hreach
      omega
    have hreach : p ≤ 0 + (((order q n).map q).take (m - 1 + 1)).sum := by
      rw [zero_add, ← List.map_take, sum_take_order, Nat.sub_add_cancel hpositive]
      exact hm.1
    have hinside : m - 1 < ((order q n).map q).length := by
      rw [List.length_map, hlength]
      omega
    rw [cutoff, hsnd, reachedAt_eq hinside hbelow hreach]
    show 0 + (m - 1) + 1 = m
    omega
  have hkept : scatter (((order q n).map fun i => (i, q i)).take m) (((List.range n).map q).map fun _ => 0) =
      (List.range n).map fun i => if i ∈ first q n m then q i else 0 := by
    rw [← List.map_take, List.map_map]
    refine (scatter_map_range _ _ _ _).trans (List.map_congr_left fun i _ => ?_)
    simp only [mem_take_order]
    rfl
  have hsub : first q n m ⊆ range n := filter_subset _ _
  rw [keepTopP, sortedTable, sorted_table, hcutoff]
  simp only [hkept]
  rw [foldl_add_eq_sum, sum_ite_mem, inter_eq_right.mpr hsub, if_pos (hp.trans_le hm.1), List.map_map]
  refine List.map_congr_left fun i _ => ?_
  show (if _ then _ else _) / _ = _
  rw [shareIn]
  split
  · rfl
  · rw [zero_div]

end filters

/-! ## What a call samples from -/

section spec

variable {R : Type} [Field R] [LinearOrder R] [F32Exp R] (sampler : Sampler R) (logits : List R)

/-- A scaled logit. -/
def value (i : Nat) : R := logits.getD i 0 / sampler.temperature

/-- The entries that the first filter keeps. -/
def topEntries : Finset Nat :=
  match sampler.topK with
  | none => range logits.length
  | some k =>
    if 0 < k ∧ k < logits.length then first (sampler.value logits) logits.length k
    else range logits.length

/-- The probabilities after the first filter. -/
def softProbability (i : Nat) : R :=
  shareIn (sampler.topEntries logits) (weight (sampler.value logits) logits.length) i

/-- The entries before which the more probable ones do not reach a mass. -/
def nucleus (p : R) : Finset Nat :=
  {i ∈ range logits.length |
    ∑ j ∈ range logits.length with Before (sampler.softProbability logits) j i,
      sampler.softProbability logits j < p}

/-- The probabilities after both filters. -/
def probability (i : Nat) : R :=
  match sampler.topP with
  | none => sampler.softProbability logits i
  | some p =>
    if p < 1 ∧ 0 < p then shareIn (sampler.nucleus logits p) (sampler.softProbability logits) i
    else sampler.softProbability logits i

/-- The entry is kept by top-k, and by top-p in the shortest beginning that reaches its mass. -/
structure Kept (i : Nat) : Prop where
  lt : i < logits.length
  top : ∀ k, sampler.topK = some k → 0 < k → k < logits.length →
    i ∈ first (sampler.value logits) logits.length k
  nucleus : ∀ p, sampler.topP = some p → 0 < p → p < 1 →
    ∃ m, Shortest (sampler.softProbability logits) logits.length (sampler.softProbability logits) p m ∧
      i ∈ first (sampler.softProbability logits) logits.length m

/-- The first entry passes both filters: fewer than `k` logits are above its own, and the
mass of the more probable entries is below `p`. -/
structure FirstPasses : Prop where
  top : ∀ k, sampler.topK = some k → 0 < k → k < logits.length →
    #{j ∈ range logits.length | logits.getD 0 0 < logits.getD j 0} < k
  nucleus : ∀ p, sampler.topP = some p → 0 < p → p < 1 →
    ∑ j ∈ range logits.length with
      sampler.softProbability logits 0 < sampler.softProbability logits j,
      sampler.softProbability logits j < p

/-- The reservations that a call makes succeed. -/
structure Granted (memory : SamplerMemory) : Prop where
  scaled : memory.scaled = none
  top : ∀ k, sampler.topK = some k → 0 < k → k < logits.length → memory.topKTable = none
  nucleus : ∀ p, sampler.topP = some p → 0 < p → p < 1 → memory.topPTable = none

end spec

section results

variable {R : Type} [Field R] [LinearOrder R] {sampler : Sampler R} {logits : List R}
  {memory : SamplerMemory} {i n : Nat}

theorem topEntries_subset : sampler.topEntries logits ⊆ range logits.length := by
  rw [topEntries]
  split
  · exact subset_rfl
  · split
    · exact filter_subset _ _
    · exact subset_rfl

theorem mem_topEntries (hi : i < logits.length) :
    i ∈ sampler.topEntries logits ↔ ∀ k, sampler.topK = some k → 0 < k → k < logits.length →
      i ∈ first (sampler.value logits) logits.length k := by
  rw [topEntries]
  split
  next hnone =>
    refine ⟨fun _ k hk => ?_, fun _ => mem_range.mpr hi⟩
    rw [hnone] at hk
    cases hk
  next k hk =>
    split
    next hactive =>
      refine ⟨fun h k' hk' _ _ => ?_, fun h => h k hk hactive.1 hactive.2⟩
      obtain rfl := Option.some.inj (hk.symm.trans hk')
      exact h
    next hinactive =>
      refine ⟨fun _ k' hk' hpos hlt => ?_, fun _ => mem_range.mpr hi⟩
      obtain rfl := Option.some.inj (hk.symm.trans hk')
      exact absurd ⟨hpos, hlt⟩ hinactive

variable (sampler) in
/-- A greatest value is never masked. -/
theorem exists_top_mem (hne : logits ≠ []) :
    ∃ i ∈ sampler.topEntries logits, IsTop (sampler.value logits) logits.length i := by
  obtain ⟨i, htop, hrank⟩ := exists_isTop (List.length_pos_of_ne_nil hne) (sampler.value logits)
  refine ⟨i, (mem_topEntries htop.1).mpr fun k _ hk _ => ?_, htop⟩
  exact mem_first.mpr ⟨htop.1, hrank ▸ hk⟩

variable [F32Exp R] [IsStrictOrderedRing R]

section positive

variable (hexp : ∀ v : R, 0 < F32Exp.exp v)
include hexp

theorem softProbability_nonneg (i : Nat) : 0 ≤ sampler.softProbability logits i :=
  shareIn_nonneg (fun _ _ => hexp _) i

theorem softProbability_pos_iff :
    0 < sampler.softProbability logits i ↔ i ∈ sampler.topEntries logits :=
  shareIn_pos_iff fun _ _ => hexp _

variable (sampler) in
theorem sum_softProbability (hne : logits ≠ []) :
    ∑ i ∈ range logits.length, sampler.softProbability logits i = 1 := by
  obtain ⟨i, hi, -⟩ := exists_top_mem sampler hne
  exact sum_shareIn (fun _ _ => hexp _) ⟨i, hi⟩ topEntries_subset

variable (sampler) in
theorem exists_shortest_softProbability (hne : logits ≠ []) {p : R} (hp : p < 1) :
    ∃ m ≤ logits.length, Shortest (sampler.softProbability logits) logits.length
      (sampler.softProbability logits) p m ∧
        sampler.nucleus logits p = first (sampler.softProbability logits) logits.length m := by
  obtain ⟨m, hmn, hm⟩ := exists_shortest (p := p) (sampler.softProbability logits)
    (w := sampler.softProbability logits) (n := logits.length)
    (by rw [sum_softProbability sampler hexp hne]; exact hp.le)
  refine ⟨m, hmn, hm, ?_⟩
  ext i
  rw [nucleus, mem_filter, mem_range]
  constructor
  · rintro ⟨hi, hmass⟩
    exact (hm.mem_iff (fun j _ => softProbability_nonneg hexp j) hi).mpr hmass
  · intro hi
    have hlt := (mem_first.mp hi).1
    exact ⟨hlt, (hm.mem_iff (fun j _ => softProbability_nonneg hexp j) hlt).mp hi⟩

/-- What the second filter keeps was kept by the first. -/
theorem softProbability_pos_of_mem_nucleus (hne : logits ≠ []) {p : R} (hp : p < 1)
    (hi : i ∈ sampler.nucleus logits p) : 0 < sampler.softProbability logits i := by
  rw [nucleus, mem_filter, mem_range] at hi
  refine lt_of_le_of_ne (softProbability_nonneg hexp i) fun hzero => ?_
  have hmass : ∑ j ∈ range logits.length with Before (sampler.softProbability logits) j i,
      sampler.softProbability logits j = 1 := by
    rw [← sum_softProbability sampler hexp hne, sum_filter]
    refine sum_congr rfl fun j _ => ?_
    rcases (softProbability_nonneg hexp j).lt_or_eq with hpos | heq
    · exact if_pos (.inl (hzero ▸ hpos))
    · rw [← heq, ite_self]
  rw [hmass] at hi
  exact lt_asymm hi.2 hp

theorem probability_nonneg (hne : logits ≠ []) (i : Nat) : 0 ≤ sampler.probability logits i := by
  rw [probability]
  split
  · exact softProbability_nonneg hexp i
  next p hp =>
    split
    next hactive =>
      exact shareIn_nonneg (fun _ hj => softProbability_pos_of_mem_nucleus hexp hne hactive.1 hj) i
    · exact softProbability_nonneg hexp i

theorem nucleus_nonempty (hne : logits ≠ []) {p : R} (hp : 0 < p) (hp1 : p < 1) :
    (sampler.nucleus logits p).Nonempty := by
  obtain ⟨m, -, hm, hnucleus⟩ := exists_shortest_softProbability sampler hexp hne hp1
  rw [hnucleus, nonempty_iff_ne_empty]
  intro hempty
  have hreach := hm.1
  rw [Set.mem_ofPred_eq, hempty, sum_empty] at hreach
  exact not_lt.mpr hreach hp

variable (sampler) in
theorem sum_probability (hne : logits ≠ []) :
    ∑ i ∈ range logits.length, sampler.probability logits i = 1 := by
  unfold probability
  split
  · exact sum_softProbability sampler hexp hne
  next p hp =>
    by_cases hactive : p < 1 ∧ 0 < p
    · simp only [if_pos hactive]
      exact sum_shareIn (fun _ hj => softProbability_pos_of_mem_nucleus hexp hne hactive.1 hj)
        (nucleus_nonempty hexp hne hactive.2 hactive.1) (filter_subset _ _)
    · simp only [if_neg hactive]
      exact sum_softProbability sampler hexp hne

theorem mem_nucleus (hne : logits ≠ []) {p : R} (hp1 : p < 1) :
    i ∈ sampler.nucleus logits p ↔
      ∃ m, Shortest (sampler.softProbability logits) logits.length
          (sampler.softProbability logits) p m ∧
        i ∈ first (sampler.softProbability logits) logits.length m := by
  obtain ⟨m, -, hm, hnucleus⟩ := exists_shortest_softProbability sampler hexp hne hp1
  rw [hnucleus]
  refine ⟨fun hi => ⟨m, hm, hi⟩, ?_⟩
  rintro ⟨m', hm', hi⟩
  rwa [hm.unique hm']

/-- The entries with a probability are the ones that the filters keep. -/
theorem probability_pos_iff (hne : logits ≠ []) (hi : i < logits.length) :
    0 < sampler.probability logits i ↔ sampler.Kept logits i := by
  have htop : 0 < sampler.softProbability logits i ↔ ∀ k, sampler.topK = some k → 0 < k →
      k < logits.length → i ∈ first (sampler.value logits) logits.length k :=
    (softProbability_pos_iff hexp).trans (mem_topEntries hi)
  rw [probability]
  split
  next hnone =>
    refine ⟨fun h => ⟨hi, htop.mp h, fun p hp => ?_⟩, fun h => htop.mpr h.top⟩
    rw [hnone] at hp
    cases hp
  next p hp =>
    split
    next hactive =>
      have hpositive : ∀ j ∈ sampler.nucleus logits p, 0 < sampler.softProbability logits j :=
        fun _ hj => softProbability_pos_of_mem_nucleus hexp hne hactive.1 hj
      rw [shareIn_pos_iff hpositive]
      constructor
      · intro hmem
        refine ⟨hi, htop.mp (hpositive i hmem), fun p' hp' _ hlt => ?_⟩
        obtain rfl := Option.some.inj (hp.symm.trans hp')
        exact (mem_nucleus hexp hne hlt).mp hmem
      · intro h
        exact (mem_nucleus hexp hne hactive.1).mpr (h.nucleus p hp hactive.2 hactive.1)
    next hinactive =>
      refine ⟨fun h => ⟨hi, htop.mp h, fun p' hp' hpos hlt => ?_⟩, fun h => htop.mpr h.top⟩
      obtain rfl := Option.some.inj (hp.symm.trans hp')
      exact absurd ⟨hlt, hpos⟩ hinactive

/-- The condition on the logits says that the filters keep the first entry. -/
theorem kept_zero_iff (hne : logits ≠ []) (htemperature : 0 < sampler.temperature) :
    sampler.Kept logits 0 ↔ sampler.FirstPasses logits := by
  have hpos : 0 < logits.length := List.length_pos_of_ne_nil hne
  have hrank : rank (sampler.value logits) logits.length 0 =
      #{j ∈ range logits.length | logits.getD 0 0 < logits.getD j 0} := by
    refine congrArg card (filter_congr fun j _ => ?_)
    simp only [Before, Nat.not_lt_zero, and_false, or_false, value]
    exact div_lt_div_iff_of_pos_right htemperature
  have hbefore : ∀ j, Before (sampler.softProbability logits) j 0 ↔
      sampler.softProbability logits 0 < sampler.softProbability logits j := by
    intro j
    simp only [Before, Nat.not_lt_zero, and_false, or_false]
  have hnucleus : ∀ p, 0 ∈ sampler.nucleus logits p ↔
      ∑ j ∈ range logits.length with
        sampler.softProbability logits 0 < sampler.softProbability logits j,
        sampler.softProbability logits j < p := by
    intro p
    rw [nucleus, mem_filter, mem_range, and_iff_right hpos]
    simp only [hbefore]
  constructor
  · intro h
    refine ⟨fun k hk h0 hlt => ?_, fun p hp h0 h1 => ?_⟩
    · rw [← hrank]
      exact (mem_first.mp (h.top k hk h0 hlt)).2
    · exact (hnucleus p).mp ((mem_nucleus hexp hne h1).mpr (h.nucleus p hp h0 h1))
  · intro h
    refine ⟨hpos, fun k hk h0 hlt => ?_, fun p hp h0 h1 => ?_⟩
    · exact mem_first.mpr ⟨hpos, hrank.symm ▸ h.top k hk h0 hlt⟩
    · exact (mem_nucleus hexp hne h1).mp ((hnucleus p).mpr (h.nucleus p hp h0 h1))

end positive

/-! ## A call -/

theorem reserve_eq_ok {answer : Option String} {what : String} {u : Unit}
    (h : SamplerMemory.reserve answer what = .ok u) : answer = none := by
  cases answer with
  | none => rfl
  | some e => cases h

omit [F32Exp R] [IsStrictOrderedRing R] in
theorem applyTopK_run (h : sampler.Granted logits memory) :
    sampler.applyTopK memory
        ((List.range logits.length).map fun i => (sampler.value logits i : WithBot R)) =
      .ok ((List.range logits.length).map
        (masked (sampler.topEntries logits) (sampler.value logits))) := by
  have hall : ((List.range logits.length).map fun i => (sampler.value logits i : WithBot R)) =
      (List.range logits.length).map (masked (range logits.length) (sampler.value logits)) := by
    refine List.map_congr_left fun i hi => ?_
    rw [masked, if_pos (mem_range.mpr (List.mem_range.mp hi))]
  rw [applyTopK, topEntries]
  split
  · rw [hall]
  next k hk =>
    rw [List.length_map, List.length_range]
    split
    next hactive =>
      rw [h.top k hk hactive.1 hactive.2, maskTopK_eq]
      rfl
    · rw [hall]

theorem applyTopP_run (hexp : ∀ v : R, 0 < F32Exp.exp v) (hne : logits ≠ [])
    (h : sampler.Granted logits memory) :
    sampler.applyTopP memory ((List.range logits.length).map (sampler.softProbability logits)) =
      .ok ((List.range logits.length).map (sampler.probability logits)) := by
  unfold applyTopP probability
  split
  · rfl
  next p hp =>
    by_cases hactive : p < 1 ∧ 0 < p
    · obtain ⟨m, hmn, hm, hnucleus⟩ :=
        exists_shortest_softProbability sampler hexp hne hactive.1
      simp only [if_pos hactive]
      rw [h.nucleus p hp hactive.2 hactive.1, keepTopP_eq hactive.2 hm hmn, hnucleus]
      rfl
    · simp only [if_neg hactive]

/-- A call whose reservations succeed draws from the filtered probabilities. -/
theorem sampleChecked_run (hexp : ∀ v : R, 0 < F32Exp.exp v) (hne : logits ≠ [])
    (htemperature : 0 < sampler.temperature) (h : sampler.Granted logits memory) (draw : R) :
    sampler.sampleChecked memory logits draw =
      tokenOfIndex ((reachedAt draw ((List.range logits.length).map (sampler.probability logits)) 0
        0).getD (logits.length - 1)) := by
  have hscaled : (logits.map fun v => ((v / sampler.temperature : R) : WithBot R)) =
      (List.range logits.length).map fun i => (sampler.value logits i : WithBot R) := by
    refine List.ext_getElem (by simp) fun i hi hi' => ?_
    have hlt : i < logits.length := by simpa using hi
    simp [value, hlt]
  have hlargest : ∃ i ∈ sampler.topEntries logits, IsTop (sampler.value logits) logits.length i :=
    exists_top_mem sampler hne
  obtain ⟨i, hi, htop⟩ := hlargest
  have hsoft := softmax_masked hexp topEntries_subset hi htop
  cases logits with
  | nil => exact absurd rfl hne
  | cons first rest =>
    rw [sampleChecked, if_neg (not_le.mpr htemperature), h.scaled, hscaled, applyTopK_run h]
    show (sampler.applyTopP memory (softmax _) >>= _) = _
    rw [hsoft]
    have hprobs := applyTopP_run hexp hne h
    unfold softProbability at hprobs
    rw [hprobs]
    show tokenOfIndex ((reachedAt _ _ _ _).getD (List.length _ - 1)) = _
    rw [List.length_map, List.length_range]

omit [IsStrictOrderedRing R] in
/-- A call that returns an index got its memory. -/
theorem granted_of_ok (hne : logits ≠ []) (htemperature : 0 < sampler.temperature) {draw : R}
    {id : Nat} (h : sampler.sampleChecked memory logits draw = .ok id) :
    sampler.Granted logits memory := by
  cases logits with
  | nil => exact absurd rfl hne
  | cons first rest =>
    rw [sampleChecked, if_neg (not_le.mpr htemperature)] at h
    obtain ⟨_, hscaled, h⟩ := of_except_bind_ok h
    obtain ⟨scaled, htopK, h⟩ := of_except_bind_ok h
    obtain ⟨probs, htopP, -⟩ := of_except_bind_ok h
    refine ⟨reserve_eq_ok hscaled, fun k hk h0 hlt => ?_, fun p hp h0 h1 => ?_⟩
    · simp only [applyTopK, hk, List.length_map] at htopK
      rw [if_pos ⟨h0, hlt⟩] at htopK
      obtain ⟨_, hreserve, -⟩ := of_except_bind_ok htopK
      exact reserve_eq_ok hreserve
    · simp only [applyTopP, hp] at htopP
      rw [if_pos ⟨h1, h0⟩] at htopP
      obtain ⟨_, hreserve, -⟩ := of_except_bind_ok htopP
      exact reserve_eq_ok hreserve

/-! ## The draw -/

/-- The mass of the entries before an entry. -/
def massBefore (sampler : Sampler R) (logits : List R) (i : Nat) : R :=
  ∑ j ∈ range i, sampler.probability logits j

section draw

variable (hexp : ∀ v : R, 0 < F32Exp.exp v) (hne : logits ≠ [])

omit [IsStrictOrderedRing R] in
/-- The entry that a draw selects: the first whose running sum reaches the draw. -/
theorem reachedAt_probability (hi : i < logits.length) {draw : R}
    (hbelow : ∀ j < i, sampler.massBefore logits (j + 1) < draw)
    (hreach : draw ≤ sampler.massBefore logits (i + 1)) :
    reachedAt draw ((List.range logits.length).map (sampler.probability logits)) 0 0 = some i := by
  have hinside : i < ((List.range logits.length).map (sampler.probability logits)).length := by
    simpa using hi
  rw [reachedAt_eq hinside (fun j hj => ?_) ?_, Nat.zero_add]
  · rw [zero_add, sum_take_map_range (by omega)]
    exact hreach
  · rw [zero_add, sum_take_map_range (by omega)]
    exact hbelow j hj

include hexp hne

theorem massBefore_mono {j : Nat} (h : j ≤ i) :
    sampler.massBefore logits j ≤ sampler.massBefore logits i :=
  sum_le_sum_of_subset_of_nonneg (range_subset_range.mpr h) fun k _ _ =>
    probability_nonneg hexp hne k

variable (sampler) in
theorem exists_selected {draw : R} (hdraw : draw < 1) :
    ∃ i < logits.length, (∀ j < i, sampler.massBefore logits (j + 1) < draw) ∧
      draw ≤ sampler.massBefore logits (i + 1) := by
  have hpos : 0 < logits.length := List.length_pos_of_ne_nil hne
  have hlast : draw ≤ sampler.massBefore logits (logits.length - 1 + 1) := by
    rw [Nat.sub_add_cancel hpos, massBefore, sum_probability sampler hexp hne]
    exact hdraw.le
  have hex : ∃ i, draw ≤ sampler.massBefore logits (i + 1) := ⟨_, hlast⟩
  refine ⟨Nat.find hex, ?_, fun j hj => not_le.mp (Nat.find_min hex hj), Nat.find_spec hex⟩
  have hle := Nat.find_le (h := hex) hlast
  omega

/-- What a call that returns an index has found. -/
theorem selected_of_ok (htemperature : 0 < sampler.temperature) {draw : R} (hdraw : draw < 1)
    {id : Nat} (h : sampler.sampleChecked memory logits draw = .ok id) :
    id < logits.length ∧ (∀ j < id, sampler.massBefore logits (j + 1) < draw) ∧
      draw ≤ sampler.massBefore logits (id + 1) := by
  obtain ⟨i, hi, hbelow, hreach⟩ := exists_selected sampler hexp hne hdraw
  rw [sampleChecked_run hexp hne htemperature (granted_of_ok hne htemperature h),
    reachedAt_probability hi hbelow hreach, Option.getD_some, tokenOfIndex] at h
  split at h
  · cases h
    exact ⟨hi, hbelow, hreach⟩
  · cases h

theorem sampleChecked_eq_ok (htemperature : 0 < sampler.temperature)
    (hgranted : sampler.Granted logits memory) (hi : i < logits.length) (hindex : i < 2 ^ 32)
    {draw : R} (hbelow : ∀ j < i, sampler.massBefore logits (j + 1) < draw)
    (hreach : draw ≤ sampler.massBefore logits (i + 1)) :
    sampler.sampleChecked memory logits draw = .ok i := by
  rw [sampleChecked_run hexp hne htemperature hgranted,
    reachedAt_probability hi hbelow hreach, Option.getD_some, tokenOfIndex, if_pos hindex]

end draw

/-- An interval of a length, with or without its ends. -/
def IsInterval (s : Set R) (length : R) : Prop :=
  ∃ lo, Set.Ioo lo (lo + length) ⊆ s ∧ s ⊆ Set.Icc lo (lo + length)

/-- The draws that select an entry. -/
def draws (sampler : Sampler R) (memory : SamplerMemory) (logits : List R) (i : Nat) : Set R :=
  {draw | 0 ≤ draw ∧ draw < 1 ∧ sampler.sampleChecked memory logits draw = .ok i}

/-- What sampling is for: an index that is returned passed the filters and has a probability,
and an entry that passed them is selected by as many draws as it has probability. -/
structure SamplesInside (sampler : Sampler R) (memory : SamplerMemory) (logits : List R) (draw : R) :
    Prop where
  inside : ∀ id, sampler.sampleChecked memory logits draw = .ok id →
    0 < sampler.probability logits id ∧ sampler.Kept logits id
  returns : sampler.Granted logits memory → logits.length ≤ 2 ^ 32 →
    ∃ id, sampler.sampleChecked memory logits draw = .ok id
  interval : sampler.Granted logits memory → ∀ i, sampler.Kept logits i → i < 2 ^ 32 →
    IsInterval (sampler.draws memory logits i) (sampler.probability logits i)

section draws

variable (hexp : ∀ v : R, 0 < F32Exp.exp v) (hne : logits ≠ [])
  (htemperature : 0 < sampler.temperature)
include hexp hne htemperature

theorem isInterval_draws (hgranted : sampler.Granted logits memory) (hi : i < logits.length)
    (hindex : i < 2 ^ 32) : IsInterval (sampler.draws memory logits i) (sampler.probability logits i) := by
  have hend : sampler.massBefore logits i + sampler.probability logits i =
      sampler.massBefore logits (i + 1) := (sum_range_succ _ _).symm
  have hstart : 0 ≤ sampler.massBefore logits i := sum_nonneg fun j _ => probability_nonneg hexp hne j
  have htotal : sampler.massBefore logits (i + 1) ≤ 1 := by
    rw [← sum_probability sampler hexp hne]
    exact massBefore_mono hexp hne hi
  refine ⟨sampler.massBefore logits i, fun draw hdraw => ?_, fun draw hdraw => ?_⟩
  · rw [hend] at hdraw
    refine ⟨hstart.trans hdraw.1.le, hdraw.2.trans_le htotal, ?_⟩
    refine sampleChecked_eq_ok hexp hne htemperature hgranted hi hindex (fun j hj => ?_) hdraw.2.le
    exact (massBefore_mono hexp hne hj).trans_lt hdraw.1
  · obtain ⟨h0, h1, hok⟩ := hdraw
    obtain ⟨-, hbelow, hreach⟩ := selected_of_ok hexp hne htemperature h1 hok
    refine ⟨?_, hend.symm ▸ hreach⟩
    cases i with
    | zero => exact h0
    | succ j => exact (hbelow j (Nat.lt_succ_self j)).le

/-- The draw zero selects the first entry, whatever its probability. -/
theorem sampleChecked_zero (hgranted : sampler.Granted logits memory) :
    sampler.sampleChecked memory logits 0 = .ok 0 := by
  have hreach : (0 : R) ≤ sampler.massBefore logits (0 + 1) :=
    sum_nonneg fun j _ => probability_nonneg hexp hne j
  exact sampleChecked_eq_ok hexp hne htemperature hgranted (List.length_pos_of_ne_nil hne) (by decide)
    (fun j hj => absurd hj (Nat.not_lt_zero j)) hreach

/-- A positive draw selects an entry with a probability. -/
theorem probability_pos_of_ok {draw : R} (h0 : 0 < draw) (h1 : draw < 1) {id : Nat}
    (h : sampler.sampleChecked memory logits draw = .ok id) : 0 < sampler.probability logits id := by
  obtain ⟨-, hbelow, hreach⟩ := selected_of_ok hexp hne htemperature h1 h
  have hend : sampler.massBefore logits (id + 1) =
      sampler.massBefore logits id + sampler.probability logits id := sum_range_succ _ _
  have hstart : sampler.massBefore logits id < draw := by
    cases id with
    | zero => exact h0
    | succ j => exact hbelow j (Nat.lt_succ_self j)
  rw [hend] at hreach
  exact pos_of_lt_add_right (hstart.trans_le hreach)

/-- Sampling stays inside the filtered set, except that the draw zero selects the first entry
also where a filter dropped it. -/
theorem samplesInside_iff {draw : R} (h0 : 0 ≤ draw) (h1 : draw < 1) :
    sampler.SamplesInside memory logits draw ↔
      (sampler.Granted logits memory → draw = 0 → sampler.FirstPasses logits) := by
  constructor
  · rintro h hgranted rfl
    have hzero := h.inside 0 (sampleChecked_zero hexp hne htemperature hgranted)
    exact (kept_zero_iff hexp hne htemperature).mp hzero.2
  · intro h
    refine ⟨fun id hid => ?_, fun hgranted hlength => ?_, fun hgranted i hi hindex => ?_⟩
    · have hselected := selected_of_ok hexp hne htemperature h1 hid
      have hgranted := granted_of_ok hne htemperature hid
      have hpositive : 0 < sampler.probability logits id := by
        rcases h0.lt_or_eq with hpos | hzero
        · exact probability_pos_of_ok hexp hne htemperature hpos h1 hid
        · obtain rfl := hzero
          rw [sampleChecked_zero hexp hne htemperature hgranted] at hid
          cases hid
          refine (probability_pos_iff hexp hne hselected.1).mpr ?_
          exact (kept_zero_iff hexp hne htemperature).mpr (h hgranted rfl)
      exact ⟨hpositive, (probability_pos_iff hexp hne hselected.1).mp hpositive⟩
    · obtain ⟨i, hi, hbelow, hreach⟩ := exists_selected sampler hexp hne h1
      exact ⟨i, sampleChecked_eq_ok hexp hne htemperature hgranted hi (hi.trans_le hlength) hbelow hreach⟩
    · exact isInterval_draws hexp hne htemperature hgranted hi.lt hindex

end draws

end results

/-! ## The draw zero -/

/-- The sampler of the source's test of top-k. -/
def topOne : Sampler ℝ where
  temperature := 1
  topK := some 1
  topP := none

def topOneLogits : List ℝ := [1, (5 : ℕ), (2 : ℕ)]

theorem samplesInside_iff_topOne :
    (∀ v : ℝ, 0 < F32Exp.exp v) ∧ topOneLogits ≠ [] ∧ 0 < topOne.temperature ∧ (0 : ℝ) ≤ 1 / 2 ∧
      (1 / 2 : ℝ) < 1 ∧ (topOne.SamplesInside .enough topOneLogits (1 / 2) ↔
        (topOne.Granted topOneLogits .enough → (1 / 2 : ℝ) = 0 → topOne.FirstPasses topOneLogits)) := by
  have htemperature : 0 < topOne.temperature := one_pos
  have hne : topOneLogits ≠ [] := List.cons_ne_nil _ _
  refine ⟨Real.exp_pos, hne, htemperature, by norm_num, by norm_num, ?_⟩
  exact samplesInside_iff Real.exp_pos hne htemperature (by norm_num) (by norm_num)

/-- With the draw zero, top-k of one returns the first logit, which is not the greatest. -/
theorem not_samplesInside_topOne : ¬topOne.SamplesInside .enough topOneLogits 0 := by
  intro h
  have htemperature : 0 < topOne.temperature := one_pos
  have hgranted : topOne.Granted topOneLogits .enough := ⟨rfl, fun _ _ _ _ => rfl, fun _ _ _ _ => rfl⟩
  have hzero := (h.inside 0 (sampleChecked_zero Real.exp_pos (List.cons_ne_nil _ _) htemperature
    hgranted)).2.top 1 rfl one_pos (by decide)
  have hbefore : Before (topOne.value topOneLogits) 1 0 := by
    refine .inl ?_
    show (1 : ℝ) / 1 < (5 : ℕ) / 1
    norm_num
  have hrank := rank_lt_rank (n := topOneLogits.length) (by decide) hbefore
  have hlt := (mem_first.mp hzero).2
  omega

end Sampler
end Ramforge
