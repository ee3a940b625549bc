/-
The layouts of Q4_0, Q5_0, Q2_K, Q4_K and Q6_K: the decoders undo the packing.

In each layout the bytes are those of the reference quantizer, field by field.
-/
import Ramforge.Core.QuantPacking
import Ramforge.Core.QuantQ40
import Ramforge.Core.QuantQ6K

namespace Ramforge
namespace Quant

open Rust

/-! ## Fields of packed bytes -/

theorem toNat_ofNat_of_lt {n : Nat} (h : n < 256) : (UInt8.ofNat n).toNat = n := by
  rw [UInt8.toNat_ofNat']
  exact Nat.mod_eq_of_lt h

/-- The two halves of a byte. -/
theorem nibbles_ofNat {a b : Nat} (ha : a < 16) (hb : b < 16) :
    (UInt8.ofNat (a + 16 * b) &&& 0xF).toNat = a ∧ (UInt8.ofNat (a + 16 * b) >>> 4).toNat = b := by
  rw [toNat_and_low, toNat_shiftRight_four, nibble, nibble, toNat_ofNat_of_lt (by omega)]
  omega

/-- A field below a higher one. -/
theorem or_shifted {a b k : Nat} (ha : a < 2 ^ k) : a ||| b * 2 ^ k = a + b * 2 ^ k := by
  rw [Nat.or_comm, ← Nat.shiftLeft_eq, ← Nat.shiftLeft_add_eq_or_of_lt ha, Nat.shiftLeft_eq,
    Nat.add_comm]

/-- A code out of its low half and its high bits. -/
theorem join_halves (code : Nat) : code % 16 ||| code / 16 * 2 ^ 4 = code := by
  have hlow : code % 16 < 2 ^ 4 := Nat.mod_lt _ (by decide)
  rw [or_shifted hlow]
  omega

/-- Four fields of two bits in a number. -/
theorem crumb_of_four {f : Nat → Nat} (hf : ∀ q < 4, f q < 4) {q : Nat} (hq : q < 4) :
    (f 0 + 4 * f 1 + 16 * f 2 + 64 * f 3) / 2 ^ (2 * q) % 4 = f q := by
  have h0 := hf 0 (by decide)
  have h1 := hf 1 (by decide)
  have h2 := hf 2 (by decide)
  have h3 := hf 3 (by decide)
  interval_cases q
  · show _ / 1 % 4 = _
    omega
  · show _ / 4 % 4 = _
    omega
  · show _ / 16 % 4 = _
    omega
  · show _ / 64 % 4 = _
    omega

theorem four_crumbs_lt {f : Nat → Nat} (hf : ∀ q < 4, f q < 4) :
    f 0 + 4 * f 1 + 16 * f 2 + 64 * f 3 < 256 := by
  have h0 := hf 0 (by decide)
  have h1 := hf 1 (by decide)
  have h2 := hf 2 (by decide)
  have h3 := hf 3 (by decide)
  omega

theorem asF32_rat (value : Int) : (asF32 value : ℚ) = value := rfl

/-! ## Q4_0 -/

namespace BlockQ4_0

structure Parts where
  d : UInt16
  codes : Fin 32 → Fin 16

/-- The scale, then sixteen bytes of two codes that are sixteen places apart. -/
def byte (p : Parts) (k : Nat) : UInt8 :=
  if k < 2 then byteOf p.d.toNat k
  else UInt8.ofNat (codeAt p.codes (k - 2) + 16 * codeAt p.codes (16 + (k - 2)))

def packing : Packing Parts where
  format := .q4_0
  byte := byte
  value p e := f16ToF32 p.d * ((codeAt p.codes e : ℚ) - 8)

theorem byte_code (p : Parts) (j : Nat) :
    byte p (2 + j) = UInt8.ofNat (codeAt p.codes j + 16 * codeAt p.codes (16 + j)) := by
  rw [byte, if_neg (by omega), Nat.add_sub_cancel_left]

theorem scaleOf_pack (p : Parts) : (scaleOf (packing.pack p) : ℚ) = f16ToF32 p.d := by
  have hbyte : ∀ k < 2, (packing.pack p).getD k 0 = byteOf p.d.toNat k := by
    intro k hk
    rw [packing.getD_pack p (Nat.lt_of_lt_of_le hk (by decide))]
    exact if_pos hk
  rw [scaleOf, hbyte 0 (by decide), hbyte 1 (by decide), u16FromLe_byteOf]

theorem inverse : packing.Inverse where
  qk_pos := by decide
  size_pos := by decide
  decode := by
    intro bytes hbytes out hout
    obtain ⟨deq, hdeq, hlength, -⟩ := decode_eq (R := ℚ) hbytes hout
    exact ⟨deq, hdeq, hlength⟩
  unpack := by
    intro p out hout
    have hlength : 18 ≤ (packing.pack p).length := Nat.le_of_eq (packing.length_pack p).symm
    obtain ⟨deq, hdeq, hwidth, hvalues⟩ := decode_eq (R := ℚ) hlength hout
    have hcode : ∀ j < 16, (packing.pack p).getD (2 + j) 0 =
        UInt8.ofNat (codeAt p.codes j + 16 * codeAt p.codes (16 + j)) := by
      intro j hj
      rw [packing.getD_pack p (by show 2 + j < 18; omega)]
      exact byte_code p j
    refine hdeq.trans (congrArg Except.ok (Packing.eq_values hwidth fun e he => ?_))
    have he : e < 32 := he
    by_cases hlow : e < 16
    · obtain ⟨hfirst, -⟩ := nibbles_ofNat (codeAt_lt p.codes he) (codeAt_lt p.codes (by omega : 16 + e < 32))
      rw [(hvalues e hlow).1, hcode e hlow, low, hfirst, scaleOf_pack]
      exact congrArg some (by simp [asF32_rat, packing, mul_comm])
    · obtain ⟨j, rfl⟩ : ∃ j, e = 16 + j := ⟨e - 16, by omega⟩
      obtain ⟨-, hsecond⟩ := nibbles_ofNat (codeAt_lt p.codes (by omega : j < 32)) (codeAt_lt p.codes he)
      rw [(hvalues j (by omega)).2, hcode j (by omega), high, hsecond, scaleOf_pack]
      exact congrArg some (by simp [asF32_rat, packing, mul_comm])

end BlockQ4_0

/-! ## Q5_0 -/

namespace BlockQ5_0

structure Parts where
  d : UInt16
  codes : Fin 32 → Fin 32

/-- The high bits of the codes, the first one lowest. -/
def highBits (p : Parts) : Nat := Nat.ofBits fun e : Fin 32 => decide (16 ≤ (p.codes e).val)

/-- The scale, four bytes of high bits, then sixteen bytes of the low halves of two codes. -/
def byte (p : Parts) (k : Nat) : UInt8 :=
  if k < 2 then byteOf p.d.toNat k
  else if k < 6 then byteOf (highBits p) (k - 2)
  else UInt8.ofNat (codeAt p.codes (k - 6) % 16 + 16 * (codeAt p.codes (16 + (k - 6)) % 16))

def packing : Packing Parts where
  format := .q5_0
  byte := byte
  value p e := f16ToF32 p.d * ((codeAt p.codes e : ℚ) - 16)

section decode

variable {R : Type} [F32 R]

/-- The two codes of byte `j`. -/
def low (qh : UInt32) (byte : UInt8) (j : Nat) : Int :=
  ((byte &&& (0x0F : UInt8)) ||| (((qh >>> j.toUInt32) <<< 4) &&& 0x10).toUInt8).toNat - 16

def high (qh : UInt32) (byte : UInt8) (j : Nat) : Int :=
  ((byte >>> 4) ||| ((qh >>> (j + 12).toUInt32) &&& 0x10).toUInt8).toNat - 16

theorem fromBytes_eq {bytes : List UInt8} (h : 22 ≤ bytes.length) :
    (fromBytes bytes : Except DataSourceError (BlockQ5_0 R)) =
      .ok { d := f16ToF32 (u16FromLe [bytes.getD 0 0, bytes.getD 1 0]),
            qh := arrayAt bytes 2 4 (by omega), qs := arrayAt bytes 6 16 (by omega) } := by
  have hd : (readF16Le (bytes.take 2) : Except DataSourceError R) = _ :=
    readF16Le_at (by omega : 0 + 2 ≤ bytes.length)
  rw [fromBytes, dif_neg (by omega), hd]
  rfl

variable [Mul R]

theorem decode_eq {bytes : List UInt8} (h : 22 ≤ bytes.length) {out : List R} (hout : out.length = 32) :
    ∃ deq : List R, Format.q5_0.decode bytes out = .ok deq ∧ deq.length = 32 ∧
      ∀ j < 16,
        deq[j]? = some (asF32 (low (u32FromLe [bytes.getD 2 0, bytes.getD 3 0, bytes.getD 4 0,
          bytes.getD 5 0]) (bytes.getD (6 + j) 0) j) *
            f16ToF32 (u16FromLe [bytes.getD 0 0, bytes.getD 1 0])) ∧
        deq[16 + j]? = some (asF32 (high (u32FromLe [bytes.getD 2 0, bytes.getD 3 0, bytes.getD 4 0,
          bytes.getD 5 0]) (bytes.getD (6 + j) 0) j) *
            f16ToF32 (u16FromLe [bytes.getD 0 0, bytes.getD 1 0])) := by
  have hfrom : (fromBytes bytes : Except DataSourceError (BlockQ5_0 R)) = _ := fromBytes_eq h
  have hqh : (arrayAt bytes 2 4 (by omega)).toList =
      [bytes.getD 2 0, bytes.getD 3 0, bytes.getD 4 0, bytes.getD 5 0] := by
    have hget : ∀ k (hk : k < bytes.length), bytes.getD k 0 = bytes[k] := fun k hk => by
      rw [List.getD_eq_getElem?_getD, List.getElem?_eq_getElem hk, Option.getD_some]
    rw [arrayAt, Vector.toList_ofFn, hget 2 (by omega), hget 3 (by omega), hget 4 (by omega),
      hget 5 (by omega)]
    simp [List.ofFn_succ]
  refine ⟨_, congrArg (Except.map _) hfrom, ?_⟩
  let b : BlockQ5_0 R :=
    { d := f16ToF32 (u16FromLe [bytes.getD 0 0, bytes.getD 1 0]), qh := arrayAt bytes 2 4 (by omega),
      qs := arrayAt bytes 6 16 (by omega) }
  obtain ⟨hlen, hval⟩ := getElem?_forRange_halves
    (f := fun j => asF32 (low (u32FromLe b.qh.toList) (entry b.qs j) j) * b.d)
    (g := fun j => asF32 (high (u32FromLe b.qh.toList) (entry b.qs j) j) * b.d) hout
  refine ⟨hlen, fun j hj => ?_⟩
  rw [← entry_arrayAt (by omega : 6 + 16 ≤ bytes.length) hj, ← hqh]
  exact hval j hj

end decode

theorem toNat_toUInt32 {j : Nat} (hj : j < 32) : j.toUInt32.toNat % 32 = j := by
  have hmod : j.toUInt32.toNat = j % 2 ^ 32 := UInt32.toNat_ofNat'
  rw [hmod]
  omega

/-- The high bit that the decoder puts above the low half of byte `j`. -/
theorem toNat_high_low (qh : UInt32) {j : Nat} (hj : j < 32) :
    ((((qh >>> j.toUInt32) <<< 4) &&& 0x10).toUInt8).toNat = qh.toNat / 2 ^ j % 2 * 2 ^ 4 := by
  have hshift : ((qh >>> j.toUInt32) <<< 4).toNat = qh.toNat / 2 ^ j * 2 ^ 4 % 2 ^ 32 := by
    rw [UInt32.toNat_shiftLeft, UInt32.toNat_shiftRight, toNat_toUInt32 hj, Nat.shiftRight_eq_div_pow,
      Nat.shiftLeft_eq]
    rfl
  have hmask : (((qh >>> j.toUInt32) <<< 4) &&& 0x10).toNat = qh.toNat / 2 ^ j % 2 * 2 ^ 4 := by
    rw [UInt32.toNat_and, hshift]
    show _ &&& 2 ^ 4 = _
    rw [Nat.and_two_pow, Nat.toNat_testBit]
    omega
  rw [UInt32.toNat_toUInt8, hmask]
  omega

/-- And the one above the high half. -/
theorem toNat_high_high (qh : UInt32) {j : Nat} (hj : j < 16) :
    (((qh >>> (j + 12).toUInt32) &&& 0x10).toUInt8).toNat = qh.toNat / 2 ^ (16 + j) % 2 * 2 ^ 4 := by
  have hmask : ((qh >>> (j + 12).toUInt32) &&& 0x10).toNat = qh.toNat / 2 ^ (16 + j) % 2 * 2 ^ 4 := by
    have hplace : j + 12 + 4 = 16 + j := by omega
    rw [UInt32.toNat_and, UInt32.toNat_shiftRight, toNat_toUInt32 (by omega : j + 12 < 32),
      Nat.shiftRight_eq_div_pow]
    show _ &&& 2 ^ 4 = _
    rw [Nat.and_two_pow, Nat.toNat_testBit, Nat.div_div_eq_div_mul, ← Nat.pow_add, hplace]
  rw [UInt32.toNat_toUInt8, hmask]
  omega

theorem highBits_div (p : Parts) {e : Nat} (he : e < 32) :
    highBits p / 2 ^ e % 2 = codeAt p.codes e / 16 := by
  have hlt := codeAt_lt p.codes he
  have hbit := Nat.testBit_ofBits_lt (fun e : Fin 32 => decide (16 ≤ (p.codes e).val)) e he
  have hcode : codeAt p.codes e = (p.codes ⟨e, he⟩).val := dif_pos he
  rw [← Nat.toNat_testBit, highBits, hbit, ← hcode]
  by_cases h : 16 ≤ codeAt p.codes e
  · rw [decide_eq_true h]
    show 1 = _
    omega
  · rw [decide_eq_false h]
    show 0 = _
    omega

theorem getD_pack_head (p : Parts) :
    u16FromLe [(packing.pack p).getD 0 0, (packing.pack p).getD 1 0] = p.d := by
  have hbyte : ∀ k < 2, (packing.pack p).getD k 0 = byteOf p.d.toNat k := by
    intro k hk
    rw [packing.getD_pack p (Nat.lt_of_lt_of_le hk (by decide))]
    exact if_pos hk
  rw [hbyte 0 (by decide), hbyte 1 (by decide), u16FromLe_byteOf]

theorem getD_pack_high (p : Parts) :
    (u32FromLe [(packing.pack p).getD 2 0, (packing.pack p).getD 3 0, (packing.pack p).getD 4 0,
      (packing.pack p).getD 5 0]).toNat = highBits p := by
  have hbyte : ∀ k < 4, (packing.pack p).getD (2 + k) 0 = byteOf (highBits p) k := by
    intro k hk
    rw [packing.getD_pack p (by show 2 + k < 22; omega)]
    show byte p (2 + k) = _
    rw [byte, if_neg (by omega), if_pos (by omega), Nat.add_sub_cancel_left]
  rw [hbyte 0 (by decide), hbyte 1 (by decide), hbyte 2 (by decide), hbyte 3 (by decide)]
  exact u32FromLe_byteOf (Nat.ofBits_lt_two_pow _)

theorem inverse : packing.Inverse where
  qk_pos := by decide
  size_pos := by decide
  decode := by
    intro bytes hbytes out hout
    obtain ⟨deq, hdeq, hlength, -⟩ := decode_eq (R := ℚ) hbytes hout
    exact ⟨deq, hdeq, hlength⟩
  unpack := by
    intro p out hout
    have hlength : 22 ≤ (packing.pack p).length := Nat.le_of_eq (packing.length_pack p).symm
    obtain ⟨deq, hdeq, hwidth, hvalues⟩ := decode_eq (R := ℚ) hlength hout
    have hbyte : ∀ j < 16, (packing.pack p).getD (6 + j) 0 =
        UInt8.ofNat (codeAt p.codes j % 16 + 16 * (codeAt p.codes (16 + j) % 16)) := by
      intro j hj
      rw [packing.getD_pack p (by show 6 + j < 22; omega)]
      show byte p (6 + j) = _
      rw [byte, if_neg (by omega), if_neg (by omega), Nat.add_sub_cancel_left]
    refine hdeq.trans (congrArg Except.ok (Packing.eq_values hwidth fun e he => ?_))
    have he : e < 32 := he
    by_cases hlow : e < 16
    · obtain ⟨hfirst, -⟩ := nibbles_ofNat (Nat.mod_lt (codeAt p.codes e) (by decide : 0 < 16))
        (Nat.mod_lt (codeAt p.codes (16 + e)) (by decide : 0 < 16))
      rw [(hvalues e hlow).1, hbyte e hlow, getD_pack_head, low, UInt8.toNat_or, hfirst,
        toNat_high_low _ he, getD_pack_high, highBits_div p he,
        join_halves]
      exact congrArg some (by simp [asF32_rat, packing, mul_comm])
    · obtain ⟨j, rfl⟩ : ∃ j, e = 16 + j := ⟨e - 16, by omega⟩
      obtain ⟨-, hsecond⟩ := nibbles_ofNat (Nat.mod_lt (codeAt p.codes j) (by decide : 0 < 16))
        (Nat.mod_lt (codeAt p.codes (16 + j)) (by decide : 0 < 16))
      rw [(hvalues j (by omega)).2, hbyte j (by omega), getD_pack_head, high, UInt8.toNat_or, hsecond,
        toNat_high_high _ (by omega), getD_pack_high, highBits_div p he,
        join_halves]
      exact congrArg some (by simp [asF32_rat, packing, mul_comm])

end BlockQ5_0

/-! ## Q6_K -/

/-- The two bits of a byte from bit `r` on. -/
theorem toNat_crumb (x : UInt8) {r : UInt8} (hr : r.toNat < 8) :
    (x >>> r &&& (3 : UInt8)).toNat = x.toNat / 2 ^ r.toNat % 4 := by
  rw [UInt8.toNat_and, UInt8.toNat_shiftRight, Nat.mod_eq_of_lt hr, Nat.shiftRight_eq_div_pow]
  exact Nat.and_two_pow_sub_one_eq_mod _ 2

/-- And put above a low half. -/
theorem toNat_crumb_high (x : UInt8) {r : UInt8} (hr : r.toNat < 8) :
    ((x >>> r &&& (3 : UInt8)) <<< 4).toNat = x.toNat / 2 ^ r.toNat % 4 * 2 ^ 4 := by
  have hlt : x.toNat / 2 ^ r.toNat % 4 < 4 := Nat.mod_lt _ (by decide)
  rw [UInt8.toNat_shiftLeft, toNat_crumb x hr, Nat.shiftLeft_eq]
  exact Nat.mod_eq_of_lt (by show _ * 2 ^ 4 < 2 ^ 8; omega)

namespace BlockQ6K

structure Parts where
  d : UInt16
  scales : Fin 16 → Int8
  codes : Fin 256 → Fin 64

def scaleAt (p : Parts) (i : Nat) : Int8 := if h : i < 16 then p.scales ⟨i, h⟩ else 0

/-- The low halves of two codes that are 64 places apart, the high bits of four codes that are
32 places apart, the scales of the blocks of sixteen, and the scale. -/
def byte (p : Parts) (k : Nat) : UInt8 :=
  if k < 128 then
    UInt8.ofNat (codeAt p.codes (128 * (k / 64) + k % 64) % 16 +
      16 * (codeAt p.codes (128 * (k / 64) + 64 + k % 64) % 16))
  else if k < 192 then
    let first := 128 * ((k - 128) / 32) + (k - 128) % 32
    UInt8.ofNat (codeAt p.codes first / 16 + 4 * (codeAt p.codes (first + 32) / 16) +
      16 * (codeAt p.codes (first + 64) / 16) + 64 * (codeAt p.codes (first + 96) / 16))
  else if k < 208 then (scaleAt p (k - 192)).toUInt8
  else byteOf p.d.toNat (k - 208)

def packing : Packing Parts where
  format := .q6K
  byte := byte
  value p e := f16ToF32 p.d * ((scaleAt p (e / 16)).toInt : ℚ) * ((codeAt p.codes e : ℚ) - 32)

theorem getD_pack (p : Parts) {k : Nat} (hk : k < 210) : (packing.pack p).getD k 0 = byte p k :=
  packing.getD_pack p hk

theorem scaleOf_pack (p : Parts) : (scaleOf (packing.pack p) : ℚ) = f16ToF32 p.d := by
  rw [scaleOf, getD_pack p (by decide), getD_pack p (by decide)]
  show f16ToF32 (u16FromLe [byteOf p.d.toNat 0, byteOf p.d.toNat 1]) = _
  rw [u16FromLe_byteOf]

theorem scale_pack (p : Parts) {h l q : Nat} (hh : h < 2) (hl : l < 32) (hq : q < 4) :
    scale (packing.pack p) h l q = (scaleAt p (8 * h + 2 * q + l / 16)).toInt := by
  have hplace : 192 + (h * 8 + l / 16 + 2 * q) - 192 = 8 * h + 2 * q + l / 16 := by omega
  rw [scale, getD_pack p (by omega), byte, if_neg (by omega), if_neg (by omega), if_pos (by omega),
    hplace, Int8.toInt8_toUInt8]

theorem low_pack (p : Parts) {h r : Nat} (hh : h < 2) (hr : r < 64) :
    (packing.pack p).getD (h * 64 + r) 0 =
      UInt8.ofNat (codeAt p.codes (128 * h + r) % 16 + 16 * (codeAt p.codes (128 * h + 64 + r) % 16)) := by
  have hdiv : (h * 64 + r) / 64 = h := by omega
  have hmod : (h * 64 + r) % 64 = r := by omega
  rw [getD_pack p (by omega), byte, if_pos (by omega), hdiv, hmod]

/-- The high bits of the code in quarter `q`. -/
def highOf (p : Parts) (first q : Nat) : Nat := codeAt p.codes (first + 32 * q) / 16

theorem highOf_lt (p : Parts) {first : Nat} (hfirst : first + 96 < 256) : ∀ q < 4, highOf p first q < 4 := by
  intro q hq
  have hcode := codeAt_lt p.codes (by omega : first + 32 * q < 256)
  rw [highOf]
  omega

theorem high_pack (p : Parts) {h l : Nat} (hh : h < 2) (hl : l < 32) :
    ((packing.pack p).getD (128 + (h * 32 + l)) 0).toNat =
      highOf p (128 * h + l) 0 + 4 * highOf p (128 * h + l) 1 + 16 * highOf p (128 * h + l) 2 +
        64 * highOf p (128 * h + l) 3 := by
  have hdiv : (128 + (h * 32 + l) - 128) / 32 = h := by omega
  have hmod : (128 + (h * 32 + l) - 128) % 32 = l := by omega
  have hfirst : 128 * h + l + 96 < 256 := by omega
  rw [getD_pack p (by omega), byte, if_neg (by omega), if_pos (by omega), hdiv, hmod]
  exact toNat_ofNat_of_lt (four_crumbs_lt (highOf_lt p hfirst))

theorem high_pack_quarter (p : Parts) {h l q : Nat} {r : UInt8} (hh : h < 2) (hl : l < 32) (hq : q < 4)
    (hr : r.toNat = 2 * q) :
    (((packing.pack p).getD (128 + (h * 32 + l)) 0 >>> r &&& (3 : UInt8)) <<< 4).toNat =
      codeAt p.codes (128 * h + l + 32 * q) / 16 * 2 ^ 4 := by
  rw [toNat_crumb_high _ (by omega), high_pack p hh hl, hr, crumb_of_four (highOf_lt p (by omega)) hq]
  rfl

/-- Each code comes out of its low half and its high bits. -/
theorem code_pack (p : Parts) {h l q : Nat} (hh : h < 2) (hl : l < 32) (hq : q < 4) :
    (code (packing.pack p) h l q).toNat = codeAt p.codes (128 * h + l + 32 * q) := by
  have hlow : ∀ r < 64,
      ((packing.pack p).getD (h * 64 + r) 0 &&& (0xF : UInt8)).toNat = codeAt p.codes (128 * h + r) % 16 ∧
      ((packing.pack p).getD (h * 64 + r) 0 >>> 4).toNat = codeAt p.codes (128 * h + 64 + r) % 16 := by
    intro r hr
    rw [low_pack p hh hr]
    exact nibbles_ofNat (Nat.mod_lt _ (by decide)) (Nat.mod_lt _ (by decide))
  have hcode : ∀ (half : UInt8) (r : UInt8) (q : Nat), q < 4 → r.toNat = 2 * q →
      half.toNat = codeAt p.codes (128 * h + l + 32 * q) % 16 →
      (half ||| (((packing.pack p).getD (128 + (h * 32 + l)) 0 >>> r &&& (3 : UInt8)) <<< 4)).toNat =
        codeAt p.codes (128 * h + l + 32 * q) := by
    intro half r q hq hr hhalf
    rw [UInt8.toNat_or, hhalf, high_pack_quarter p hh hl hq hr, join_halves]
  have hplaces : 128 * h + l + 32 * 1 = 128 * h + (32 + l) ∧
      128 * h + l + 32 * 2 = 128 * h + 64 + l ∧ 128 * h + l + 32 * 3 = 128 * h + 64 + (32 + l) := by omega
  have hpair : h * 64 + 32 + l = h * 64 + (32 + l) := Nat.add_assoc _ _ _
  interval_cases q
  · have hfirst := hcode _ 0 0 (by decide) rfl (hlow l (by omega)).1
    rw [UInt8.shiftRight_zero] at hfirst
    exact hfirst
  · rw [code, hpair]
    exact hcode _ 2 1 (by decide) rfl (hplaces.1 ▸ (hlow (32 + l) (by omega)).1)
  · rw [code]
    exact hcode _ 4 2 (by decide) rfl (hplaces.2.1 ▸ (hlow l (by omega)).2)
  · rw [code, hpair]
    exact hcode _ 6 3 (by decide) rfl (hplaces.2.2 ▸ (hlow (32 + l) (by omega)).2)
    all_goals decide

theorem inverse : packing.Inverse where
  qk_pos := by decide
  size_pos := by decide
  decode := by
    intro bytes hbytes out hout
    obtain ⟨deq, hdeq, hlength, -⟩ := decode_eq (R := ℚ) hbytes hout
    exact ⟨deq, hdeq, hlength⟩
  unpack := by
    intro p out hout
    have hlength : 210 ≤ (packing.pack p).length := Nat.le_of_eq (packing.length_pack p).symm
    obtain ⟨deq, hdeq, hwidth, hvalues⟩ := decode_eq (R := ℚ) hlength hout
    refine hdeq.trans (congrArg Except.ok (Packing.eq_values hwidth fun e he => ?_))
    have he : e < 256 := he
    obtain ⟨h, q, l, hh, hq, hl, rfl⟩ : ∃ h q l, h < 2 ∧ q < 4 ∧ l < 32 ∧ e = h * 128 + q * 32 + l :=
      ⟨e / 128, e / 32 % 4, e % 32, by omega, by omega, by omega, by omega⟩
    have hplace : h * 128 + q * 32 + l = 128 * h + l + 32 * q := by omega
    have hblock : (h * 128 + q * 32 + l) / 16 = 8 * h + 2 * q + l / 16 := by omega
    rw [hvalues h hh q hq l hl, value, scaleOf_pack, scale_pack p hh hl hq, code_pack p hh hl hq]
    show _ = some (f16ToF32 p.d * ((scaleAt p ((h * 128 + q * 32 + l) / 16)).toInt : ℚ) *
      ((codeAt p.codes (h * 128 + q * 32 + l) : ℚ) - 32))
    rw [hblock, hplace, asF32_rat, asF32_rat]
    simp

end BlockQ6K

end Quant
end Ramforge
