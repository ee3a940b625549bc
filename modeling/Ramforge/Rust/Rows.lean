/-
Slices, and a flat buffer read as rows of a fixed width.
-/
import Mathlib.Tactic

namespace Rust

variable {α : Type}

/-- `&xs[lo..hi]`; `none` where the index panics. -/
def slice (xs : List α) (lo hi : Nat) : Option (List α) :=
  if lo ≤ hi ∧ hi ≤ xs.length then some ((xs.drop lo).take (hi - lo)) else none

/-- `xs[lo..hi].copy_from_slice(src)`; `none` where it panics. -/
def copyInto (xs : List α) (lo hi : Nat) (src : List α) : Option (List α) :=
  if lo ≤ hi ∧ hi ≤ xs.length ∧ src.length = hi - lo then
    some (xs.take lo ++ src ++ xs.drop hi)
  else none

theorem slice_eq_some {xs : List α} {lo hi : Nat} (hle : lo ≤ hi) (hhi : hi ≤ xs.length) :
    slice xs lo hi = some ((xs.drop lo).take (hi - lo)) := if_pos ⟨hle, hhi⟩

theorem slice_eq_none {xs : List α} {lo hi : Nat} (h : xs.length < hi) :
    slice xs lo hi = none := if_neg fun hb => Nat.not_lt.mpr hb.2 h

theorem copyInto_eq_some {xs src : List α} {lo hi : Nat} (hle : lo ≤ hi) (hhi : hi ≤ xs.length)
    (hsrc : src.length = hi - lo) :
    copyInto xs lo hi src = some (xs.take lo ++ src ++ xs.drop hi) := if_pos ⟨hle, hhi, hsrc⟩

theorem getD_drop_take {xs : List α} {lo n j : Nat} (hj : j < n) (d : α) :
    ((xs.drop lo).take n).getD j d = xs.getD (lo + j) d := by
  rw [List.getD_eq_getElem?_getD, List.getD_eq_getElem?_getD, List.getElem?_take_of_lt hj,
    List.getElem?_drop]

theorem take_two {xs : List α} (h : 2 ≤ xs.length) (d : α) :
    xs.take 2 = [xs.getD 0 d, xs.getD 1 d] := by
  rcases xs with _ | ⟨a, _ | ⟨b, xs⟩⟩
  · simp at h
  · simp at h
  · rfl

namespace Rows

/-- Row `p` of a buffer of rows of width `w`. -/
def row (w : Nat) (xs : List α) (p : Nat) : List α := (xs.drop (p * w)).take w

variable {w p q n : Nat} {xs ys src : List α} {z : α}

theorem length_row (h : (p + 1) * w ≤ xs.length) : (row w xs p).length = w := by
  rw [Nat.succ_mul] at h
  rw [row, List.length_take, List.length_drop]
  omega

theorem getD_row {j : Nat} (hj : j < w) (d : α) : (row w xs p).getD j d = xs.getD (p * w + j) d :=
  getD_drop_take hj d

/-- The first rows of a buffer, one after another, are its beginning. -/
theorem take_eq_rows (xs : List α) (w n : Nat) :
    xs.take (n * w) = (List.range n).flatMap (row w xs) := by
  induction n with
  | zero => simp
  | succ n ih =>
    rw [Nat.succ_mul, List.take_add, ih, List.range_succ, List.flatMap_append]
    simp [row]

theorem row_drop (xs : List α) (w k p : Nat) : row w (xs.drop (k * w)) p = row w xs (k + p) := by
  rw [row, row, List.drop_drop, Nat.add_mul]

/-- A row of the `n` rows from row `p` on. -/
theorem row_take_drop {j : Nat} (hj : j < n) :
    row w ((xs.drop (p * w)).take (n * w)) j = row w xs (p + j) := by
  have hle : (j + 1) * w ≤ n * w := Nat.mul_le_mul_right w hj
  rw [Nat.succ_mul] at hle
  rw [row, row, List.drop_take, List.take_take, List.drop_drop, ← Nat.add_mul,
    Nat.min_eq_left (by omega)]

/-- A row of a row, for rows of `n` shorter rows. -/
theorem row_row {m j : Nat} (hj : j < n) : row w (row (n * w) xs m) j = row w xs (m * n + j) := by
  have hflat : row (n * w) xs m = (xs.drop (m * n * w)).take (n * w) := by rw [row, Nat.mul_assoc]
  rw [hflat, row_take_drop hj]

/-- A slice between row boundaries is the rows between them. -/
theorem slice_rows {lo hi : Nat} (hle : lo ≤ hi) (hhi : hi * w ≤ xs.length) :
    slice xs (lo * w) (hi * w) = some ((List.range (hi - lo)).flatMap fun p => row w xs (lo + p)) := by
  have hrow : row w (xs.drop (lo * w)) = fun p => row w xs (lo + p) := funext (row_drop xs w lo)
  rw [slice_eq_some (Nat.mul_le_mul_right w hle) hhi, ← Nat.sub_mul, take_eq_rows, hrow]

theorem row_append_left (h : (p + 1) * w ≤ xs.length) : row w (xs ++ ys) p = row w xs p := by
  rw [Nat.succ_mul] at h
  rw [row, row, List.drop_append_of_le_length (by omega), List.take_append_of_le_length]
  rw [List.length_drop]
  omega

theorem row_append_right (h : xs.length = n * w) : row w (xs ++ ys) (n + p) = row w ys p := by
  rw [row, row, List.drop_append, h, Nat.add_mul, List.drop_eq_nil_of_le (by omega),
    Nat.add_sub_cancel_left, List.nil_append]

theorem row_replicate (h : p < n) : row w (List.replicate (n * w) z) p = List.replicate w z := by
  have hle : (p + 1) * w ≤ n * w := Nat.mul_le_mul_right w h
  rw [Nat.succ_mul] at hle
  rw [row, List.drop_replicate, List.take_replicate, Nat.min_eq_left (by omega)]

/-- The buffer with row `p` written over. -/
theorem row_write (hlen : (p + 1) * w ≤ xs.length) (hsrc : src.length = w) (q : Nat) :
    row w (xs.take (p * w) ++ src ++ xs.drop (p * w + w)) q =
      if q = p then src else row w xs q := by
  rw [Nat.succ_mul] at hlen
  have htake : (xs.take (p * w)).length = p * w := by
    rw [List.length_take]
    omega
  have hsplit : xs = xs.take (p * w) ++ xs.drop (p * w) := (List.take_append_drop _ _).symm
  rcases Nat.lt_trichotomy q p with hlt | rfl | hgt
  · have hq : (q + 1) * w ≤ (xs.take (p * w)).length := by
      rw [htake]
      exact Nat.mul_le_mul_right w hlt
    rw [if_neg (Nat.ne_of_lt hlt), List.append_assoc, row_append_left hq]
    conv_rhs => rw [hsplit]
    rw [row_append_left hq]
  · rw [if_pos rfl, List.append_assoc]
    have h0 : row w (xs.take (q * w) ++ (src ++ xs.drop (q * w + w))) (q + 0) =
        row w (src ++ xs.drop (q * w + w)) 0 := row_append_right htake
    rw [Nat.add_zero] at h0
    rw [h0, row, Nat.zero_mul, List.drop_zero, List.take_append_of_le_length (by omega),
      List.take_of_length_le (by omega)]
  · obtain ⟨d, rfl⟩ : ∃ d, q = p + 1 + d := ⟨q - (p + 1), by omega⟩
    have hpre : (xs.take (p * w) ++ src).length = (p + 1) * w := by
      rw [List.length_append, htake, hsrc, Nat.succ_mul]
    rw [if_neg (by omega), row_append_right hpre, ← Nat.succ_mul]
    exact row_drop xs w (p + 1) d

/-! ## Buffers made of rows -/

theorem length_flatMap {f : Nat → List α} (hf : ∀ p < n, (f p).length = w) :
    ((List.range n).flatMap f).length = n * w := by
  induction n with
  | zero => rw [Nat.zero_mul]; rfl
  | succ n ih =>
    rw [List.range_succ, List.flatMap_append, List.length_append, ih fun p hp => hf p (by omega),
      List.flatMap_singleton, hf n (by omega), Nat.succ_mul]

theorem row_flatMap {f : Nat → List α} (hf : ∀ p < n, (f p).length = w) (hp : p < n) :
    row w ((List.range n).flatMap f) p = f p := by
  induction n with
  | zero => exact absurd hp (Nat.not_lt_zero p)
  | succ n ih =>
    have hlen : ((List.range n).flatMap f).length = n * w := length_flatMap fun p hp => hf p (by omega)
    rw [List.range_succ, List.flatMap_append, List.flatMap_singleton]
    rcases Nat.lt_succ_iff_lt_or_eq.mp hp with hlt | rfl
    · rw [row_append_left (by rw [hlen]; exact Nat.mul_le_mul_right w hlt)]
      exact ih (fun p hp => hf p (by omega)) hlt
    · have hrow : row w (_ ++ f p) (p + 0) = row w (f p) 0 := row_append_right hlen
      rw [Nat.add_zero] at hrow
      rw [hrow, row, Nat.zero_mul, List.drop_zero, List.take_of_length_le (hf p hp).le]

theorem slice_row (h : (p + 1) * w ≤ xs.length) : slice xs (p * w) ((p + 1) * w) = some (row w xs p) := by
  rw [slice_eq_some (Nat.mul_le_mul_right w (Nat.le_succ p)) h, Nat.succ_mul,
    Nat.add_sub_cancel_left, row]

end Rows
end Rust
