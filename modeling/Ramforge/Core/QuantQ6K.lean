/-
The Q6_K format: the values of a block, and the fused product with a block.

A block is two halves of four quarters of 32 lanes.  The fused product takes the
four quarters of a lane in one round.
-/
import Ramforge.Core.QuantPacking
import Ramforge.Core.QuantRows
import Ramforge.Rust.Dot

namespace Ramforge
namespace Quant

open Rust Rust.Exec Finset

namespace BlockQ6K

section decode

variable {R : Type} [F32 R]

def scaleOf (bytes : List UInt8) : R := f16ToF32 (u16FromLe [bytes.getD 208 0, bytes.getD 209 0])

/-- The code of lane `l` in quarter `q` of half `h`. -/
def code (bytes : List UInt8) (h l : Nat) : Nat → UInt8
  | 0 => (bytes.getD (h * 64 + l) 0 &&& (0xF : UInt8)) |||
      ((bytes.getD (128 + (h * 32 + l)) 0 &&& 3) <<< 4)
  | 1 => (bytes.getD (h * 64 + 32 + l) 0 &&& (0xF : UInt8)) |||
      ((bytes.getD (128 + (h * 32 + l)) 0 >>> 2 &&& 3) <<< 4)
  | 2 => (bytes.getD (h * 64 + l) 0 >>> 4) |||
      ((bytes.getD (128 + (h * 32 + l)) 0 >>> 4 &&& (3 : UInt8)) <<< 4)
  | _ => (bytes.getD (h * 64 + 32 + l) 0 >>> 4) |||
      ((bytes.getD (128 + (h * 32 + l)) 0 >>> 6 &&& (3 : UInt8)) <<< 4)

def scale (bytes : List UInt8) (h l q : Nat) : Int :=
  (bytes.getD (192 + (h * 8 + l / 16 + 2 * q)) 0).toInt8.toInt

/-- The fields of the block in `bytes`. -/
structure Reads (b : BlockQ6K R) (bytes : List UInt8) : Prop where
  ql : ∀ k < 128, entry b.ql k = bytes.getD k 0
  qh : ∀ k < 64, entry b.qh k = bytes.getD (128 + k) 0
  scales : ∀ k < 16, entry b.scales k = (bytes.getD (192 + k) 0).toInt8
  d : b.d = scaleOf bytes

theorem fromBytes_reads {bytes : List UInt8} (h : 210 ≤ bytes.length) :
    ∃ b : BlockQ6K R, fromBytes bytes = .ok b ∧ Reads b bytes := by
  refine ⟨{ ql := arrayAt bytes 0 128 (by omega), qh := arrayAt bytes 128 64 (by omega),
            scales := (arrayAt bytes 192 16 (by omega)).map UInt8.toInt8, d := scaleOf bytes }, ?_, ?_⟩
  · rw [fromBytes, dif_neg (by omega), readF16Le_at (by omega)]
    rfl
  · constructor
    · intro k hk
      rw [entry_arrayAt (by omega) hk, Nat.zero_add]
    · intro k hk
      rw [entry_arrayAt (by omega) hk]
    · intro k hk
      rw [entry_map UInt8.toInt8 (arrayAt bytes 192 16 _) hk, entry_arrayAt (by omega) hk]
    · rfl

variable [Mul R]

/-- The value of lane `l` in quarter `q` of half `h`. -/
def value (bytes : List UInt8) (h l q : Nat) : R :=
  scaleOf bytes * asF32 (scale bytes h l q) * asF32 ((code bytes h l q).toNat - 32)

theorem lane_eq {b : BlockQ6K R} {bytes : List UInt8} (hb : Reads b bytes) {h l : Nat} (hh : h < 2)
    (hl : l < 32) {c : Cursor R}
    (hc : c.qlOff = h * 64 ∧ c.qhOff = h * 32 ∧ c.scOff = h * 8) (out : List R) :
    b.lane c l out = (((out.set (c.yPos + l) (value bytes h l 0)).set (c.yPos + l + 32)
      (value bytes h l 1)).set (c.yPos + l + 64) (value bytes h l 2)).set (c.yPos + l + 96)
      (value bytes h l 3) := by
  obtain ⟨hql, hqh, hsc⟩ := hc
  simp only [lane]
  rw [hql, hqh, hsc, hb.d, hb.ql _ (by omega), hb.ql _ (by omega), hb.qh _ (by omega),
    hb.scales _ (by omega), hb.scales _ (by omega), hb.scales _ (by omega), hb.scales _ (by omega)]
  rfl

theorem half_run {b : BlockQ6K R} {bytes : List UInt8} (hb : Reads b bytes) {h : Nat} (hh : h < 2)
    {c : Cursor R} (hout : c.out.length = 256)
    (hc : c.qlOff = h * 64 ∧ c.qhOff = h * 32 ∧ c.scOff = h * 8) (hy : c.yPos = h * 128) :
    (b.half c).out.length = 256 ∧ (∀ k < h * 128, (b.half c).out[k]? = c.out[k]?) ∧
      ∀ q < 4, ∀ l < 32, (b.half c).out[h * 128 + q * 32 + l]? = some (value bytes h l q) := by
  have hhalf : (b.half c).out = Rust.forRange 32 (b.lane c) c.out := by rw [half]
  have hloop := forRange_rule (n := 32) (f := b.lane c) (b := c.out)
    (I := fun m out => out.length = 256 ∧ (∀ k < h * 128, out[k]? = c.out[k]?) ∧
      ∀ q < 4, ∀ l < m, out[h * 128 + q * 32 + l]? = some (value bytes h l q)) ?_ ?_
  · rw [hhalf]
    exact hloop
  · exact ⟨hout, fun _ _ => rfl, fun _ _ _ hl => absurd hl (Nat.not_lt_zero _)⟩
  · rintro m hm out ⟨hlen, hlow, hdone⟩
    rw [lane_eq hb hh hm hc, hy]
    refine ⟨by simp [hlen], fun k hk => ?_, fun q hq l hl => ?_⟩
    · rw [List.getElem?_set_ne (by omega), List.getElem?_set_ne (by omega),
        List.getElem?_set_ne (by omega), List.getElem?_set_ne (by omega)]
      exact hlow k hk
    · rcases Nat.lt_succ_iff_lt_or_eq.mp hl with hlt | rfl
      · rw [List.getElem?_set_ne (by omega), List.getElem?_set_ne (by omega),
          List.getElem?_set_ne (by omega), List.getElem?_set_ne (by omega)]
        exact hdone q hq l hlt
      · simp only [List.getElem?_set, List.length_set, hlen]
        interval_cases q
        · rw [if_neg (by omega), if_neg (by omega), if_neg (by omega), if_pos (by omega), if_pos (by omega)]
        · rw [if_neg (by omega), if_neg (by omega), if_pos (by omega), if_pos (by omega)]
        · rw [if_neg (by omega), if_pos (by omega), if_pos (by omega)]
        · rw [if_pos (by omega), if_pos (by omega)]

theorem decode_eq {bytes : List UInt8} (hb : 210 ≤ bytes.length) {out : List R}
    (hout : out.length = 256) :
    ∃ deq : List R, Format.q6K.decode bytes out = .ok deq ∧ deq.length = 256 ∧
      ∀ h < 2, ∀ q < 4, ∀ l < 32, deq[h * 128 + q * 32 + l]? = some (value bytes h l q) := by
  obtain ⟨b, hfrom, hreads⟩ := fromBytes_reads (R := R) hb
  refine ⟨_, congrArg (Except.map _) hfrom, ?_⟩
  have hloop := forRange_rule (n := 2) (f := fun _ c => b.half c)
    (b := { out, yPos := 0, qlOff := 0, qhOff := 0, scOff := 0 })
    (I := fun m c => c.out.length = 256 ∧ c.yPos = m * 128 ∧
      (c.qlOff = m * 64 ∧ c.qhOff = m * 32 ∧ c.scOff = m * 8) ∧
      ∀ h < m, ∀ q < 4, ∀ l < 32, c.out[h * 128 + q * 32 + l]? = some (value bytes h l q)) ?_ ?_
  · exact ⟨hloop.1, hloop.2.2.2⟩
  · exact ⟨hout, rfl, ⟨rfl, rfl, rfl⟩, fun _ hh => absurd hh (Nat.not_lt_zero _)⟩
  · rintro m hm c ⟨hlen, hy, hc, hdone⟩
    obtain ⟨hlen', hlow, hnew⟩ := half_run hreads hm hlen hc hy
    obtain ⟨hql, hqh, hsc⟩ := hc
    refine ⟨hlen', ?_, ⟨?_, ?_, ?_⟩, fun h hh q hq l hl => ?_⟩
    · show c.yPos + 128 = _
      omega
    · show c.qlOff + 64 = _
      omega
    · show c.qhOff + 32 = _
      omega
    · show c.scOff + 8 = _
      omega
    · rcases Nat.lt_succ_iff_lt_or_eq.mp hh with hlt | rfl
      · rw [hlow _ (by omega)]
        exact hdone h hlt q hq l hl
      · exact hnew q hq l hl

end decode

end BlockQ6K

section dot

variable {σ R : Type} [CommRing R] [F32 R]

namespace BlockQ6K

/-- The four products of lane `l` of half `h` of block `i`. -/
def laneSum (bytes : List UInt8) (x : List R) (i h l : Nat) : R :=
  value bytes h l 0 * x.getD (i * 256 + h * 128 + l) 0 +
    value bytes h l 1 * x.getD (i * 256 + h * 128 + l + 32) 0 +
    value bytes h l 2 * x.getD (i * 256 + h * 128 + l + 64) 0 +
    value bytes h l 3 * x.getD (i * 256 + h * 128 + l + 96) 0

end BlockQ6K

open BlockQ6K in
theorem q6KLaneDot_run {row : List UInt8} {x : List R} {i h l : Nat} (hrow : (i + 1) * 210 ≤ row.length)
    (hx : (i + 1) * 256 ≤ x.length) (hh : h < 2) (hl : l < 32) (sum₀ sum : R) (s : σ) :
    q6KLaneDot ((row.drop (i * 210)).take 128) ((row.drop (i * 210 + 128)).take 64)
        ((row.drop (i * 210 + 192)).take 16) (scaleOf (Rows.row 210 row i)) x
        { sum := sum₀, xOffset := i * 256 + h * 128, qlOff := h * 64, qhOff := h * 32,
          scOffBase := h * 8 } l sum s =
      (.ok (sum + laneSum (Rows.row 210 row i) x i h l), s) := by
  have hlen : ∀ {lo n : Nat}, lo + n ≤ row.length → ((row.drop lo).take n).length = n := by
    intro lo n hle
    rw [List.length_take, List.length_drop]
    omega
  have hb : ∀ {lo n k : Nat}, lo + n ≤ 210 → k < n →
      ((row.drop (i * 210 + lo)).take n).getD k 0 = (Rows.row 210 row i).getD (lo + k) 0 := by
    intro lo n k hlo hk
    rw [getD_drop_take hk, Rows.getD_row (by omega), Nat.add_assoc]
  have hql : ∀ {k : Nat}, k < 128 →
      (index ((row.drop (i * 210)).take 128) k : Exec σ DataSourceError UInt8) =
        pure ((Rows.row 210 row i).getD k 0) := by
    intro k hk
    rw [index_of_lt (by rw [hlen (by omega)]; exact hk) 0, ← Nat.add_zero (i * 210),
      hb (by omega) hk, Nat.zero_add]
  have hqh : ∀ {k : Nat}, k < 64 →
      (index ((row.drop (i * 210 + 128)).take 64) k : Exec σ DataSourceError UInt8) =
        pure ((Rows.row 210 row i).getD (128 + k) 0) := by
    intro k hk
    rw [index_of_lt (by rw [hlen (by omega)]; exact hk) 0, hb (by omega) hk]
  have hsc : ∀ {k : Nat}, k < 16 →
      (index ((row.drop (i * 210 + 192)).take 16) k : Exec σ DataSourceError UInt8) =
        pure ((Rows.row 210 row i).getD (192 + k) 0) := by
    intro k hk
    rw [index_of_lt (by rw [hlen (by omega)]; exact hk) 0, hb (by omega) hk]
  simp only [q6KLaneDot]
  rw [hqh (by omega), hql (by omega), hql (by omega), hsc (by omega), hsc (by omega),
    hsc (by omega), hsc (by omega), index_of_lt (by omega) 0, index_of_lt (by omega) 0,
    index_of_lt (by omega) 0, index_of_lt (by omega) 0]
  simp only [pure_bind_run, pure_run, laneSum, value, scale, code, Nat.mul_zero, Nat.add_zero,
    Nat.mul_one]
  congr 2
  ring

open BlockQ6K in
theorem q6KHalfDot_run {row : List UInt8} {x : List R} {i h : Nat} (hrow : (i + 1) * 210 ≤ row.length)
    (hx : (i + 1) * 256 ≤ x.length) (hh : h < 2) (sum : R) (s : σ) :
    q6KHalfDot ((row.drop (i * 210)).take 128) ((row.drop (i * 210 + 128)).take 64)
        ((row.drop (i * 210 + 192)).take 16) (scaleOf (Rows.row 210 row i)) x
        { sum, xOffset := i * 256 + h * 128, qlOff := h * 64, qhOff := h * 32,
          scOffBase := h * 8 } s =
      (.ok { sum := sum + ∑ l ∈ range 32, laneSum (Rows.row 210 row i) x i h l,
             xOffset := i * 256 + (h + 1) * 128, qlOff := (h + 1) * 64, qhOff := (h + 1) * 32,
             scOffBase := (h + 1) * 8 }, s) := by
  have hlanes := forRange_run (n := 32)
    (f := q6KLaneDot ((row.drop (i * 210)).take 128) ((row.drop (i * 210 + 128)).take 64)
        ((row.drop (i * 210 + 192)).take 16) (scaleOf (Rows.row 210 row i)) x
        { sum, xOffset := i * 256 + h * 128, qlOff := h * 64, qhOff := h * 32,
          scOffBase := h * 8 })
    (fun j => sum + ∑ l ∈ range j, laneSum (Rows.row 210 row i) x i h l) (fun _ => s) ?_
  · rw [range_zero, sum_empty, add_zero] at hlanes
    simp only [q6KHalfDot]
    rw [bind_of_ok hlanes, pure_run, Nat.succ_mul, Nat.succ_mul, Nat.succ_mul, Nat.succ_mul,
      ← Nat.add_assoc]
  · intro l hl
    rw [q6KLaneDot_run hrow hx hh hl, sum_range_succ, add_assoc]

open BlockQ6K in
/-- The products of a block, half by half and lane by lane. -/
theorem q6K_dot_eq {row : List UInt8} {x deq : List R} {i : Nat} (hx : (i + 1) * 256 ≤ x.length)
    (hlen : deq.length = 256) (hval : ∀ h < 2, ∀ q < 4, ∀ l < 32,
      deq[h * 128 + q * 32 + l]? = some (value (Rows.row 210 row i) h l q)) :
    dot deq (Rows.row 256 x i) =
      ∑ h ∈ range 2, ∑ l ∈ range 32, laneSum (Rows.row 210 row i) x i h l := by
  have hterm : ∀ h < 2, ∀ q < 4, ∀ l < 32,
      deq.getD (h * 128 + q * 32 + l) 0 * (Rows.row 256 x i).getD (h * 128 + q * 32 + l) 0 =
        value (Rows.row 210 row i) h l q * x.getD (i * 256 + h * 128 + l + q * 32) 0 := by
    intro h hh q hq l hl
    have hplace : i * 256 + (h * 128 + q * 32 + l) = i * 256 + h * 128 + l + q * 32 := by omega
    rw [List.getD_eq_getElem?_getD (l := deq), hval h hh q hq l hl, Option.getD_some,
      Rows.getD_row (by omega), hplace]
  have hhalf : ∀ h < 2, ∑ k ∈ range 128, deq.getD (h * 128 + k) 0 *
      (Rows.row 256 x i).getD (h * 128 + k) 0 =
        ∑ l ∈ range 32, laneSum (Rows.row 210 row i) x i h l := by
    intro h hh
    rw [(by rfl : 128 = 32 + 32 + 32 + 32), sum_range_add, sum_range_add, sum_range_add,
      ← sum_add_distrib, ← sum_add_distrib, ← sum_add_distrib]
    apply sum_congr rfl
    intro l hl
    have hl32 := mem_range.mp hl
    have h0 := hterm h hh 0 (by omega) l hl32
    have h1 := hterm h hh 1 (by omega) l hl32
    have h2 := hterm h hh 2 (by omega) l hl32
    have h3 := hterm h hh 3 (by omega) l hl32
    simp only [Nat.zero_mul, Nat.one_mul, Nat.add_zero, Nat.reduceMul, ← Nat.add_assoc,
      Nat.reduceAdd] at h0 h1 h2 h3 ⊢
    rw [laneSum, h0, h1, h2, h3]
  have h0 := hhalf 0 (by omega)
  have h1 := hhalf 1 (by omega)
  simp only [Nat.zero_mul, Nat.one_mul, Nat.zero_add] at h0 h1
  rw [dot_eq_sum hlen (Rows.length_row hx), (by rfl : 256 = 128 + 128), sum_range_add, h0, h1,
    sum_range_succ _ 1, sum_range_one]

open BlockQ6K in
theorem q6KBlockDot_run {row : List UInt8} {x : List R} {i : Nat} (hrow : (i + 1) * 210 ≤ row.length)
    (hx : (i + 1) * 256 ≤ x.length) {deq : List R}
    (hdeq : Format.q6K.decode (Rows.row 210 row i) (List.replicate 256 0) = .ok deq)
    (sum : R) (s : σ) :
    q6KBlockDot row x { sum, xOffset := i * 256, off := i * 210 } s =
      (.ok { sum := sum + dot deq (Rows.row 256 x i), xOffset := (i + 1) * 256,
             off := (i + 1) * 210 }, s) := by
  have hblock : 210 ≤ (Rows.row 210 row i).length := by rw [Rows.length_row hrow]
  obtain ⟨deq', hdeq', hlen, hval⟩ := BlockQ6K.decode_eq (R := R) hblock
    (List.length_replicate (a := (0 : R)))
  obtain rfl : deq' = deq := Except.ok.inj (hdeq'.symm.trans hdeq)
  have hd : f16ToF32 (u16FromLe [row.getD (i * 210 + 208) 0, row.getD (i * 210 + 209) 0]) =
      (scaleOf (Rows.row 210 row i) : R) := by
    rw [scaleOf, Rows.getD_row (by omega), Rows.getD_row (by omega)]
  have hhalves := forRange_run (n := 2)
    (f := fun _ h => q6KHalfDot ((row.drop (i * 210)).take 128) ((row.drop (i * 210 + 128)).take 64)
      ((row.drop (i * 210 + 192)).take 16) (scaleOf (Rows.row 210 row i) : R) x h)
    (fun h => { sum := sum + ∑ h' ∈ range h, ∑ l ∈ range 32, laneSum (Rows.row 210 row i) x i h' l,
                xOffset := i * 256 + h * 128, qlOff := h * 64, qhOff := h * 32,
                scOffBase := h * 8 }) (fun _ => s) ?_
  · rw [← q6K_dot_eq hx hlen hval, range_zero, sum_empty, add_zero] at hhalves
    have hql : slice row (i * 210) (i * 210 + 128) = _ := slice_eq_some (by omega) (by omega)
    have hqh : slice row (i * 210 + 128) (i * 210 + 192) = _ := slice_eq_some (by omega) (by omega)
    have hsc : slice row (i * 210 + 192) (i * 210 + 208) = _ := slice_eq_some (by omega) (by omega)
    have h128 : i * 210 + 128 - i * 210 = 128 := by omega
    have h64 : i * 210 + 192 - (i * 210 + 128) = 64 := by omega
    have h16 : i * 210 + 208 - (i * 210 + 192) = 16 := by omega
    rw [h128] at hql
    rw [h64] at hqh
    rw [h16] at hsc
    have hx256 : i * 256 + 2 * 128 = (i + 1) * 256 := by omega
    have hoff : i * 210 + blockSizeQ6K = (i + 1) * 210 := (Nat.succ_mul i 210).symm
    simp only [q6KBlockDot]
    rw [failIf_bind_run, hoff, if_neg (by omega), hql, hqh, hsc, expect_some, expect_some,
      expect_some, pure_bind_run, pure_bind_run, pure_bind_run, index_of_lt (by omega) 0,
      index_of_lt (by omega) 0, pure_bind_run, pure_bind_run, hd]
    rw [Nat.zero_mul, Nat.add_zero (i * 256), hx256] at hhalves
    have htwo : qkK / 128 = 2 := rfl
    rw [htwo, bind_of_ok hhalves, pure_run]
  · intro h hh
    rw [q6KHalfDot_run hrow hx hh, sum_range_succ _ h, add_assoc]

end dot

end Quant
end Ramforge
