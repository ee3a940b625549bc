/-
Rows of decoded blocks: what a row decoder leaves in its output.
-/
import Ramforge.Core.QuantRows

namespace Ramforge
namespace Quant

open Rust Rust.Exec

variable {R : Type}

/-- Every block of enough bytes decodes, to the width of the format. -/
structure Format.Decodes (f : Format R) : Prop where
  qk_pos : 0 < f.qk
  size_pos : 0 < f.blockSize
  decode : ∀ {bytes : List UInt8}, f.blockSize ≤ bytes.length → ∀ {out : List R},
    out.length = f.qk → ∃ deq, f.decode bytes out = .ok deq ∧ deq.length = f.qk

theorem rowChecks_run {f : Format R} {bytes : List UInt8} {n : Nat} (hqk : 0 < f.qk)
    (hbytes : n * f.blockSize ≤ bytes.length) (hlt : bytes.length < u64Bound) (out : List R) :
    rowChecks f bytes (n * f.qk) out = (.ok (), out) := by
  have hmul : wrappingMul n f.blockSize = n * f.blockSize := wrappingMul_of_lt (by omega)
  rw [rowChecks, Nat.mul_div_cancel _ hqk, hmul, failIf_bind_run, if_neg (by simp)]
  rw [failIf, if_neg (by omega)]
  rfl

theorem copyFromSlice_run {lo hi : Nat} {src out : List R} (hle : lo ≤ hi) (hhi : hi ≤ out.length)
    (hsrc : src.length = hi - lo) :
    copyFromSlice lo hi src out = (.ok (), out.take lo ++ src ++ out.drop hi) := by
  rw [copyFromSlice, self_bind_run, copyInto_eq_some hle hhi hsrc, expect_bind_run]
  rfl

/-! ## The values of a row -/

variable [Zero R] {f : Format R} {bytes : List UInt8} {n : Nat}

namespace Format

/-- The values of block `i` of a row. -/
def blockValues (f : Format R) (bytes : List UInt8) (i : Nat) : List R :=
  match f.decode (Rows.row f.blockSize bytes i) (List.replicate f.qk 0) with
  | .ok deq => deq
  | .error _ => []

/-- The values of the first `n` blocks of a row. -/
def decoded (f : Format R) (bytes : List UInt8) (n : Nat) : List R :=
  (List.range n).flatMap (f.blockValues bytes)

namespace Decodes

theorem decode_row (hf : f.Decodes) {i : Nat} (h : (i + 1) * f.blockSize ≤ bytes.length) :
    f.decode (Rows.row f.blockSize bytes i) (List.replicate f.qk 0) = .ok (f.blockValues bytes i) ∧
      (f.blockValues bytes i).length = f.qk := by
  have hrow : f.blockSize ≤ (Rows.row f.blockSize bytes i).length := by rw [Rows.length_row h]
  obtain ⟨deq, hdeq, hlen⟩ := hf.decode hrow (List.length_replicate (a := (0 : R)))
  have hvalues : f.blockValues bytes i = deq := by rw [blockValues, hdeq]
  rw [hvalues]
  exact ⟨hdeq, hlen⟩

theorem length_blockValues (hf : f.Decodes) (h : n * f.blockSize ≤ bytes.length) {i : Nat} (hi : i < n) :
    (f.blockValues bytes i).length = f.qk := by
  have hblock : (i + 1) * f.blockSize ≤ n * f.blockSize := Nat.mul_le_mul_right _ hi
  exact (hf.decode_row (by omega)).2

theorem length_decoded (hf : f.Decodes) (h : n * f.blockSize ≤ bytes.length) :
    (f.decoded bytes n).length = n * f.qk := by
  induction n with
  | zero => simp [decoded]
  | succ n ih =>
    have hsucc : (n + 1) * f.blockSize = n * f.blockSize + f.blockSize := Nat.succ_mul _ _
    have hlast := hf.length_blockValues h (Nat.lt_succ_self n)
    rw [decoded, List.range_succ, List.flatMap_append, List.length_append, ← decoded, ih (by omega)]
    simp [hlast, Nat.succ_mul]

end Decodes

theorem decoded_succ (f : Format R) (bytes : List UInt8) (n : Nat) :
    f.decoded bytes (n + 1) = f.decoded bytes n ++ f.blockValues bytes n := by
  rw [decoded, List.range_succ, List.flatMap_append]
  simp [decoded]

theorem decoded_add (f : Format R) (bytes : List UInt8) (m n : Nat) :
    f.decoded bytes (m + n) =
      f.decoded bytes m ++ (List.range n).flatMap fun j => f.blockValues bytes (m + j) := by
  rw [decoded, List.range_add, List.flatMap_append, List.flatMap_map]
  rfl

theorem decoded_row (f : Format R) (bytes : List UInt8) (n i : Nat) :
    f.decoded (Rows.row (n * f.blockSize) bytes i) n =
      (List.range n).flatMap fun j => f.blockValues bytes (i * n + j) := by
  apply List.flatMap_congr
  intro j hj
  rw [blockValues, blockValues, Rows.row_row (List.mem_range.mp hj)]

/-- The values of row `i` of a matrix of rows of `n` blocks. -/
theorem row_decoded (hf : f.Decodes) {m i : Nat} (hi : i < m) (h : m * (n * f.blockSize) ≤ bytes.length) :
    Rows.row (n * f.qk) (f.decoded bytes (m * n)) i =
      f.decoded (Rows.row (n * f.blockSize) bytes i) n := by
  obtain ⟨k, rfl⟩ : ∃ k, m = i + (1 + k) := ⟨m - (i + 1), by omega⟩
  have hblocks : (i + (1 + k)) * n = i * n + (n + k * n) := by
    rw [Nat.add_mul, Nat.add_mul, Nat.one_mul]
  have hprefix : (f.decoded bytes (i * n)).length = i * (n * f.qk) := by
    rw [hf.length_decoded, Nat.mul_assoc]
    rw [← Nat.mul_assoc] at h
    exact Nat.le_trans (Nat.mul_le_mul_right _ (by omega)) h
  have hrow : (f.decoded (Rows.row (n * f.blockSize) bytes i) n).length = n * f.qk := by
    apply hf.length_decoded
    rw [Rows.length_row]
    exact Nat.le_trans (Nat.mul_le_mul_right _ (by omega)) h
  rw [hblocks, decoded_add, List.range_add, List.flatMap_append, ← decoded_row, Rows.row,
    List.drop_left' hprefix, List.take_left' hrow]

end Format

/-- Rows decode block by block. -/
theorem dequantizeRow_run (hf : f.Decodes) (hbytes : n * f.blockSize ≤ bytes.length)
    (hlt : bytes.length < u64Bound) {out : List R} (hout : out.length = n * f.qk) :
    dequantizeRow f bytes (n * f.qk) out = (.ok (), f.decoded bytes n) := by
  have hrounds : min (n * f.qk / f.qk) (chunkCount f.blockSize bytes) = n := by
    rw [Nat.mul_div_cancel _ hf.qk_pos]
    exact Nat.min_eq_left (le_chunkCount hf.size_pos hbytes)
  rw [dequantizeRow, bind_of_ok (rowChecks_run hf.qk_pos hbytes hlt out), hrounds]
  have hloop := forRange_run (n := n) (f := fun i _ => dequantizeBlock f bytes i) (fun _ => ())
    (fun i => f.decoded bytes i ++ out.drop (i * f.qk)) ?_
  · have hdrop : out.drop (n * f.qk) = [] := List.drop_eq_nil_of_le (by omega)
    rw [hdrop, List.append_nil, Nat.zero_mul, List.drop_zero] at hloop
    exact hloop
  · intro i hi
    have hblock : (i + 1) * f.blockSize ≤ n * f.blockSize := Nat.mul_le_mul_right _ hi
    have hout' : (i + 1) * f.qk ≤ n * f.qk := Nat.mul_le_mul_right _ hi
    have hsucc : (i + 1) * f.qk = i * f.qk + f.qk := Nat.succ_mul _ _
    have hsize : (i + 1) * f.blockSize = i * f.blockSize + f.blockSize := Nat.succ_mul _ _
    have hfit : (i + 1) * f.blockSize ≤ bytes.length := by omega
    have hbefore : i * f.blockSize ≤ bytes.length := by omega
    obtain ⟨hdecode, hlen⟩ := hf.decode_row hfit
    have hlow := hf.length_decoded hbefore
    rw [dequantizeBlock, hdecode, ofResult_ok_bind_run, copyFromSlice_run (by omega)]
    · rw [List.take_left' hlow, Format.decoded_succ]
      simp [List.drop_append, hlow, hsucc]
    · rw [List.length_append, hlow, List.length_drop]
      omega
    · omega

end Quant
end Ramforge
