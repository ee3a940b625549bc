/-
Counted loops over buffers: `for i in 0..n`, indexing, and the writes of a loop.

A counted loop is read off by an invariant indexed by the number of rounds that
are over.  `forRange` is the loop of a function that cannot fail and
`Exec.forRange` the loop of one that can.
-/
import Ramforge.Rust.Exec
import Ramforge.Rust.Rows

namespace Rust

variable {α β : Type}

/-- `for i in 0..n { .. }` over the variables `b` that the body assigns. -/
def forRange (n : Nat) (f : Nat → β → β) (b : β) : β := (List.range n).foldl (fun b i => f i b) b

theorem forRange_succ (n : Nat) (f : Nat → β → β) (b : β) :
    forRange (n + 1) f b = f n (forRange n f b) := by
  simp [forRange, List.range_succ]

/-- The loop rule: `I i` holds when `i` rounds are over. -/
theorem forRange_rule {I : Nat → β → Prop} {n : Nat} {f : Nat → β → β} {b : β} (h0 : I 0 b)
    (hstep : ∀ i < n, ∀ b, I i b → I (i + 1) (f i b)) : I n (forRange n f b) := by
  induction n with
  | zero => exact h0
  | succ n ih =>
    rw [forRange_succ]
    apply hstep n (Nat.lt_succ_self n)
    exact ih fun i hi => hstep i (Nat.lt_succ_of_lt hi)

@[simp] theorem length_forRange_set (n base : Nat) (f : Nat → α) (out : List α) :
    (forRange n (fun l out => out.set (base + l) (f l)) out).length = out.length := by
  induction n with
  | zero => rfl
  | succ n ih => rw [forRange_succ, List.length_set, ih]

/-- The places that `for l in 0..n { out[base + l] = f(l) }` writes, and all others. -/
theorem getElem?_forRange_set (n base : Nat) (f : Nat → α) (out : List α) (k : Nat) :
    (forRange n (fun l out => out.set (base + l) (f l)) out)[k]? =
      if base ≤ k ∧ k < base + n ∧ k < out.length then some (f (k - base)) else out[k]? := by
  induction n with
  | zero =>
    rw [if_neg (by omega)]
    rfl
  | succ n ih =>
    rw [forRange_succ, List.getElem?_set, ih, length_forRange_set]
    by_cases hk : base + n = k
    · subst hk
      by_cases hout : base + n < out.length
      · rw [if_pos rfl, if_pos hout, if_pos (by omega), Nat.add_sub_cancel_left]
      · rw [if_pos rfl, if_neg hout, if_neg (by omega), List.getElem?_eq_none (by omega)]
    · rw [if_neg hk]
      by_cases hlow : base ≤ k ∧ k < base + n ∧ k < out.length
      · rw [if_pos hlow, if_pos (by omega)]
      · rw [if_neg hlow, if_neg (by omega)]

/-- The buffer `xs` when its first `i` places are written. -/
def filled (v : Nat → α) (xs : List α) (i : Nat) : List α := (List.range i).map v ++ xs.drop i

theorem filled_zero (v : Nat → α) (xs : List α) : filled v xs 0 = xs := rfl

theorem filled_of_length {v : Nat → α} {xs : List α} {n : Nat} (h : xs.length = n) :
    filled v xs n = (List.range n).map v := by
  rw [filled, List.drop_eq_nil_of_le (Nat.le_of_eq h), List.append_nil]

theorem set_filled {v : Nat → α} {xs : List α} {i : Nat} (h : i < xs.length) :
    (filled v xs i).set i (v i) = filled v xs (i + 1) := by
  have hlen : ((List.range i).map v).length = i := by simp
  rw [filled, filled, List.set_append_right _ _ (Nat.le_of_eq hlen), hlen, Nat.sub_self,
    List.drop_eq_getElem_cons h, List.set_cons_zero, List.range_succ, List.map_append]
  simp

theorem length_filled {v : Nat → α} {xs : List α} {i : Nat} (h : i ≤ xs.length) :
    (filled v xs i).length = xs.length := by
  rw [filled, List.length_append, List.length_map, List.length_range, List.length_drop]
  omega

/-- The first place that is not written yet. -/
theorem getD_filled (v : Nat → α) (xs : List α) (i : Nat) (d : α) :
    (filled v xs i).getD i d = xs.getD i d := by
  rw [filled, List.getD_eq_getElem?_getD, List.getElem?_append_right (by simp), List.length_map,
    List.length_range, Nat.sub_self, List.getElem?_drop, List.getD_eq_getElem?_getD, Nat.add_zero]

/-- The number of pieces of `xs.chunks(w)`.  Piece `i` is `Rows.row w xs i`. -/
def chunkCount (w : Nat) (xs : List α) : Nat := (xs.length + w - 1) / w

theorem le_chunkCount {w n : Nat} {xs : List α} (hw : 0 < w) (h : n * w ≤ xs.length) :
    n ≤ chunkCount w xs := by
  rw [chunkCount, Nat.le_div_iff_mul_le hw]
  omega

namespace Exec

variable {σ ε : Type}

/-- `xs[i]`, which panics outside `xs`. -/
def index (xs : List α) (i : Nat) : Exec σ ε α := expect xs[i]? "index out of bounds"

/-- `xs[i] = value`, which panics outside `xs`. -/
def store (i : Nat) (value : α) : Exec (List α) ε Unit := fun xs =>
  if i < xs.length then (.ok (), xs.set i value) else (.panic "index out of bounds", xs)

/-- An access outside the object a raw pointer points to.  It is no unwinding
panic: nothing may be concluded from how the call ends. -/
def undefinedBehavior : String := "undefined behavior"

/-- A load or a slice through a raw pointer into `xs`. -/
def rawSlice (xs : List α) (lo hi : Nat) : Exec σ ε (List α) := expect (slice xs lo hi) undefinedBehavior

/-- A call on the places from `lo` to `hi`, through a slice made from raw parts. -/
def onWindow (lo hi : Nat) (m : Exec (List α) ε Unit) : Exec (List α) ε Unit := fun xs =>
  match slice xs lo hi with
  | none => (.panic undefinedBehavior, xs)
  | some window => ((m window).1, xs.take lo ++ (m window).2 ++ xs.drop hi)

/-- A call on `&mut xs[lo..hi]`, which panics outside `xs`. -/
def onSlice (lo hi : Nat) (m : Exec (List α) ε Unit) : Exec (List α) ε Unit := fun xs =>
  match slice xs lo hi with
  | none => (.panic "range end index out of range", xs)
  | some window => ((m window).1, xs.take lo ++ (m window).2 ++ xs.drop hi)

/-- `for i in 0..n { .. }` with a body that may fail. -/
def forRange (n : Nat) (f : Nat → β → Exec σ ε β) (b : β) : Exec σ ε β :=
  (List.range n).foldlM (fun b i => f i b) b

/-- A call on a local variable, which the caller gets back. -/
def onLocal {τ α : Type} (b : τ) (m : Exec τ ε α) : Exec σ ε (α × τ) := fun s =>
  match m b with
  | (.ok a, b') => (.ok (a, b'), s)
  | (.err e, _) => (.err e, s)
  | (.panic p, _) => (.panic p, s)

theorem onLocal_of_ok {τ α : Type} {b b' : τ} {m : Exec τ ε α} {a : α} (h : m b = (.ok a, b')) :
    (onLocal b m : Exec σ ε (α × τ)) = pure (a, b') := by
  funext s
  rw [onLocal, h]
  rfl

theorem index_of_getElem? {xs : List α} {i : Nat} {a : α} (h : xs[i]? = some a) :
    (index xs i : Exec σ ε α) = pure a := by
  rw [index, h, expect_some]

theorem index_of_lt {xs : List α} {i : Nat} (h : i < xs.length) (d : α) :
    (index xs i : Exec σ ε α) = pure (xs.getD i d) := by
  apply index_of_getElem?
  rw [List.getD_eq_getElem?_getD, List.getElem?_eq_getElem h, Option.getD_some]

theorem store_of_lt {xs : List α} {i : Nat} (h : i < xs.length) (value : α) :
    (store i value : Exec (List α) ε Unit) xs = (.ok (), xs.set i value) :=
  if_pos h

theorem rawSlice_of_le {xs : List α} {lo hi : Nat} (hle : lo ≤ hi) (hhi : hi ≤ xs.length) :
    (rawSlice xs lo hi : Exec σ ε (List α)) = pure ((xs.drop lo).take (hi - lo)) := by
  rw [rawSlice, slice_eq_some hle hhi, expect_some]

theorem forRange_succ (n : Nat) (f : Nat → β → Exec σ ε β) (b : β) :
    forRange (n + 1) f b = forRange n f b >>= f n := by
  rw [forRange, List.range_succ, List.foldlM_append]
  apply bind_congr
  intro b'
  simp

/-- A loop whose every round succeeds: `g i` and `t i` are the variables and the
state when `i` rounds are over. -/
theorem forRange_run {n : Nat} {f : Nat → β → Exec σ ε β} (g : Nat → β) (t : Nat → σ)
    (h : ∀ i < n, f i (g i) (t i) = (.ok (g (i + 1)), t (i + 1))) :
    forRange n f (g 0) (t 0) = (.ok (g n), t n) := by
  induction n with
  | zero => rfl
  | succ n ih =>
    rw [forRange_succ, bind_of_ok (ih fun i hi => h i (Nat.lt_succ_of_lt hi))]
    exact h n (Nat.lt_succ_self n)

/-- The loop rule for a call: `I i` holds of the variables and the state when `i`
rounds are over, and every round succeeds. -/
theorem forRange_invariant {I : Nat → β → σ → Prop} {n : Nat} {f : Nat → β → Exec σ ε β} {b : β} {s : σ}
    (h0 : I 0 b s)
    (hstep : ∀ i < n, ∀ b s, I i b s → ∃ b' s', f i b s = (.ok b', s') ∧ I (i + 1) b' s') :
    ∃ b' s', forRange n f b s = (.ok b', s') ∧ I n b' s' := by
  induction n with
  | zero => exact ⟨b, s, rfl, h0⟩
  | succ n ih =>
    obtain ⟨b₁, s₁, hrun, hI⟩ := ih fun i hi => hstep i (Nat.lt_succ_of_lt hi)
    obtain ⟨b₂, s₂, hlast, hI'⟩ := hstep n (Nat.lt_succ_self n) b₁ s₁ hI
    refine ⟨b₂, s₂, ?_, hI'⟩
    rw [forRange_succ, bind_of_ok hrun]
    exact hlast

/-- A loop that writes place `i` in round `i`. -/
theorem forRange_fill {n : Nat} {f : Nat → Unit → Exec (List α) ε Unit} {v : Nat → α} {xs : List α}
    (hlen : xs.length = n)
    (h : ∀ i < n, ∀ ys : List α, ys.length = n → f i () ys = (.ok (), ys.set i (v i))) :
    forRange n f () xs = (.ok (), (List.range n).map v) := by
  have hloop := forRange_run (n := n) (f := f) (fun _ => ()) (filled v xs) ?_
  · rw [filled_zero, filled_of_length hlen] at hloop
    exact hloop
  · intro i hi
    have hfilled : (filled v xs i).length = n := (length_filled (by omega)).trans hlen
    rw [h i hi _ hfilled, set_filled (by omega)]

/-- A loop that changes place `i` in round `i`. -/
theorem forRange_update {n : Nat} {f : Nat → Unit → Exec (List α) ε Unit} {u : Nat → α → α} {xs : List α}
    (d : α) (hlen : xs.length = n)
    (h : ∀ i < n, ∀ ys : List α, ys.length = n → f i () ys = (.ok (), ys.set i (u i (ys.getD i d)))) :
    forRange n f () xs = (.ok (), (List.range n).map fun i => u i (xs.getD i d)) := by
  have hloop := forRange_run (n := n) (f := f) (fun _ => ())
    (filled (fun i => u i (xs.getD i d)) xs) ?_
  · rw [filled_zero, filled_of_length hlen] at hloop
    exact hloop
  · intro i hi
    have hfilled : (filled (fun i => u i (xs.getD i d)) xs i).length = n :=
      (length_filled (by omega)).trans hlen
    rw [h i hi _ hfilled, getD_filled, set_filled (by omega)]

theorem onSlice_run {before window after : List α} {lo hi : Nat} {m : Exec (List α) ε Unit}
    (hlo : before.length = lo) (hhi : before.length + window.length = hi) :
    onSlice lo hi m (before ++ window ++ after) =
      ((m window).1, before ++ (m window).2 ++ after) := by
  subst hlo
  subst hhi
  have hslice : slice (before ++ window ++ after) before.length (before.length + window.length) =
      some window := by
    rw [slice_eq_some (Nat.le_add_right _ _) (by simp), List.append_assoc, List.drop_left,
      Nat.add_sub_cancel_left, List.take_left]
  have htake : (before ++ window ++ after).take before.length = before := by
    rw [List.append_assoc, List.take_left]
  have hdrop : (before ++ window ++ after).drop (before.length + window.length) = after := by
    rw [← List.length_append, List.drop_left]
  rw [onSlice, hslice, htake, hdrop]

/-- A loop that rewrites row `i` in round `i`. -/
theorem forRange_rows {n w : Nat} {m : Exec (List α) ε Unit} {g : List α → List α} {xs : List α}
    (hlen : xs.length = n * w) (h : ∀ ys : List α, ys.length = w → m ys = (.ok (), g ys)) 
    (hg : ∀ ys : List α, ys.length = w → (g ys).length = w) :
    forRange n (fun i _ => onSlice (i * w) ((i + 1) * w) m) () xs =
      (.ok (), (List.range n).flatMap fun i => g (Rows.row w xs i)) := by
  have hrow : ∀ i < n, (Rows.row w xs i).length = w := fun i hi =>
    Rows.length_row (by rw [hlen]; exact Nat.mul_le_mul_right w hi)
  have hloop := forRange_run (n := n) (f := fun i _ => onSlice (ε := ε) (i * w) ((i + 1) * w) m)
    (fun _ => ())
    (fun i => ((List.range i).flatMap fun j => g (Rows.row w xs j)) ++ xs.drop (i * w)) ?_
  · have hend : xs.drop (n * w) = [] := List.drop_eq_nil_of_le (Nat.le_of_eq hlen)
    rw [List.range_zero, List.flatMap_nil, Nat.zero_mul, List.drop_zero, List.nil_append, hend,
      List.append_nil] at hloop
    exact hloop
  · intro i hi
    have hbefore : ((List.range i).flatMap fun j => g (Rows.row w xs j)).length = i * w :=
      Rows.length_flatMap fun j hj => hg _ (hrow j (Nat.lt_trans hj hi))
    have hsplit : xs.drop (i * w) = Rows.row w xs i ++ xs.drop ((i + 1) * w) := by
      rw [Rows.row, Nat.succ_mul, ← List.drop_drop, List.take_append_drop]
    have hwindow : ((List.range i).flatMap fun j => g (Rows.row w xs j)).length +
        (Rows.row w xs i).length = (i + 1) * w := by
      rw [hbefore, hrow i hi, Nat.succ_mul]
    rw [hsplit, ← List.append_assoc, onSlice_run hbefore hwindow, h _ (hrow i hi), List.range_succ,
      List.flatMap_append, List.flatMap_singleton]

end Exec
end Rust
