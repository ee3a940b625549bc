/-
The Q4_0 format: the values of a block, and the fused product with a block.

The decoder writes the low halves of the bytes before the high halves.  The
fused product takes both halves of a byte in one round.
-/
import Ramforge.Core.QuantPacking
import Ramforge.Core.QuantRows
import Ramforge.Rust.Dot

namespace Ramforge
namespace Quant

open Rust Rust.Exec Finset

namespace BlockQ4_0

section decode

variable {R : Type} [F32 R]

def low (byte : UInt8) : Int := (byte &&& 0x0F).toNat - 8

def high (byte : UInt8) : Int := (byte >>> 4).toNat - 8

def scaleOf (bytes : List UInt8) : R := f16ToF32 (u16FromLe [bytes.getD 0 0, bytes.getD 1 0])

theorem fromBytes_eq {bytes : List UInt8} (h : 18 ≤ bytes.length) :
    (fromBytes bytes : Except DataSourceError (BlockQ4_0 R)) =
      .ok { d := scaleOf bytes, qs := arrayAt bytes 2 16 (by omega) } := by
  have hd : (readF16Le (bytes.take 2) : Except DataSourceError R) = _ :=
    readF16Le_at (by omega : 0 + 2 ≤ bytes.length)
  rw [fromBytes, dif_neg (by omega), hd]
  rfl

variable [Mul R]

theorem decode_eq {bytes : List UInt8} (h : 18 ≤ bytes.length) {out : List R} (hout : out.length = 32) :
    ∃ deq : List R, Format.q4_0.decode bytes out = .ok deq ∧ deq.length = 32 ∧
      ∀ j < 16, deq[j]? = some (asF32 (low (bytes.getD (2 + j) 0)) * scaleOf bytes) ∧
        deq[16 + j]? = some (asF32 (high (bytes.getD (2 + j) 0)) * scaleOf bytes) := by
  have hfrom : (fromBytes bytes : Except DataSourceError (BlockQ4_0 R)) = _ := fromBytes_eq h
  refine ⟨_, congrArg (Except.map _) hfrom, ?_⟩
  let b : BlockQ4_0 R := { d := scaleOf bytes, qs := arrayAt bytes 2 16 (by omega) }
  obtain ⟨hlen, hval⟩ := getElem?_forRange_halves (f := fun j => asF32 (low (entry b.qs j)) * b.d)
    (g := fun j => asF32 (high (entry b.qs j)) * b.d) hout
  refine ⟨hlen, fun j hj => ?_⟩
  rw [← entry_arrayAt (by omega : 2 + 16 ≤ bytes.length) hj]
  exact hval j hj

end decode

end BlockQ4_0

section dot

variable {σ R : Type} [CommRing R] [F32 R]

theorem q4_0BlockDot_run {row : List UInt8} {x : List R} {i : Nat} (hrow : (i + 1) * 18 ≤ row.length)
    (hx : (i + 1) * 32 ≤ x.length) {deq : List R}
    (hdeq : Format.q4_0.decode (Rows.row 18 row i) (List.replicate 32 0) = .ok deq)
    (sum : R) (s : σ) :
    q4_0BlockDot row x { sum, xOffset := i * 32, off := i * 18 } s =
      (.ok { sum := sum + dot deq (Rows.row 32 x i), xOffset := (i + 1) * 32,
             off := (i + 1) * 18 }, s) := by
  have hblock : 18 ≤ (Rows.row 18 row i).length := by rw [Rows.length_row hrow]
  obtain ⟨deq', hdeq', hlen, hval⟩ := BlockQ4_0.decode_eq (R := R) hblock
    (List.length_replicate (a := (0 : R)))
  obtain rfl : deq' = deq := Except.ok.inj (hdeq'.symm.trans hdeq)
  have hbyte : ∀ k < 18, (Rows.row 18 row i).getD k 0 = row.getD (i * 18 + k) 0 :=
    fun k hk => Rows.getD_row hk 0
  have hxval : ∀ k < 32, (Rows.row 32 x i).getD k 0 = x.getD (i * 32 + k) 0 :=
    fun k hk => Rows.getD_row hk 0
  have hdot : dot deq' (Rows.row 32 x i) =
      ∑ k ∈ range 16, (deq'.getD k 0 * x.getD (i * 32 + k) 0 +
        deq'.getD (16 + k) 0 * x.getD (i * 32 + 16 + k) 0) := by
    rw [dot_eq_sum hlen (Rows.length_row hx), (by rfl : 32 = 16 + 16), sum_range_add,
      ← sum_add_distrib]
    apply sum_congr rfl
    intro k hk
    have hk16 := mem_range.mp hk
    rw [hxval k (by omega), hxval (16 + k) (by omega), Nat.add_assoc]
  have hd : f16ToF32 (u16FromLe [row.getD (i * 18) 0, row.getD (i * 18 + 1) 0]) =
      (BlockQ4_0.scaleOf (Rows.row 18 row i) : R) := by
    rw [BlockQ4_0.scaleOf, hbyte 0 (by omega), hbyte 1 (by omega)]
    rfl
  have hlanes := forRange_run (n := 16)
    (f := q4_0LaneDot row x (BlockQ4_0.scaleOf (Rows.row 18 row i)) (i * 18 + 2) (i * 32))
    (fun j => sum + ∑ k ∈ range j, (deq'.getD k 0 * x.getD (i * 32 + k) 0 +
        deq'.getD (16 + k) 0 * x.getD (i * 32 + 16 + k) 0)) (fun _ => s) ?_
  · rw [range_zero, sum_empty, add_zero, ← hdot] at hlanes
    simp only [q4_0BlockDot]
    rw [index_of_lt (by omega) 0, index_of_lt (by omega) 0, pure_bind_run, pure_bind_run, hd,
      bind_of_ok hlanes]
    have hx32 : i * 32 + qk4_0 = (i + 1) * 32 := (Nat.succ_mul i 32).symm
    have hoff : i * 18 + 2 + 16 = (i + 1) * 18 := by omega
    rw [pure_run, hx32, hoff]
  · intro j hj
    obtain ⟨hlow, hhigh⟩ := hval j hj
    rw [q4_0LaneDot, index_of_lt (by omega) 0, index_of_lt (by omega) 0, index_of_lt (by omega) 0,
      pure_bind_run, pure_bind_run, pure_bind_run, pure_run, sum_range_succ,
      List.getD_eq_getElem?_getD (l := deq'), hlow, List.getD_eq_getElem?_getD (l := deq'), hhigh,
      Option.getD_some, Option.getD_some, hbyte _ (by omega), ← Nat.add_assoc, ← add_assoc,
      ← add_assoc]
    rfl

end dot

end Quant
end Ramforge
