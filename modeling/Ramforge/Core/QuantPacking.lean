/-
What the block formats share: the fields of a byte, the arrays of a block, and
free terms, the arithmetic that shows which numbers an output is made of.
-/
import Mathlib.Data.Nat.Bitwise
import Ramforge.Core.Quant
import Ramforge.Core.QuantRowRun

namespace Ramforge
namespace Quant

open Rust

variable {R : Type} [F32 R]

theorem entry_arrayAt {bytes : List UInt8} {lo n i : Nat} (h : lo + n ≤ bytes.length) (hi : i < n) :
    entry (arrayAt bytes lo n h) i = bytes.getD (lo + i) 0 := by
  have hlt : lo + i < bytes.length := by omega
  simp [entry, arrayAt, hi, hlt]

theorem entry_map {α β : Type} [Inhabited α] [Inhabited β] {n i : Nat} (f : α → β)
    (xs : Vector α n) (hi : i < n) : entry (xs.map f) i = f (entry xs i) := by
  simp [entry, hi]

theorem readF16Le_of_le {bytes : List UInt8} (h : 2 ≤ bytes.length) :
    (readF16Le bytes : Except DataSourceError R) = .ok (f16ToF32 (u16FromLe (bytes.take 2))) :=
  if_neg (by omega)

theorem drop_take_two {bytes : List UInt8} {lo : Nat} (h : lo + 2 ≤ bytes.length) :
    (bytes.drop lo).take 2 = [bytes.getD lo 0, bytes.getD (lo + 1) 0] := by
  have hdrop : 2 ≤ (bytes.drop lo).length := by
    rw [List.length_drop]
    omega
  rw [take_two hdrop 0]
  simp only [List.getD_eq_getElem?_getD, List.getElem?_drop, Nat.add_zero]

/-- A half-precision number at a place. -/
theorem readF16Le_at {bytes : List UInt8} {lo : Nat} (h : lo + 2 ≤ bytes.length) :
    (readF16Le ((bytes.drop lo).take 2) : Except DataSourceError R) =
      .ok (f16ToF32 (u16FromLe [bytes.getD lo 0, bytes.getD (lo + 1) 0])) := by
  rw [drop_take_two h]
  rfl

omit [F32 R] in
/-- A loop that fills the two halves of a block side by side. -/
theorem getElem?_forRange_halves {f g : Nat → R} {out : List R} (hout : out.length = 32) :
    (forRange 16 (fun j out => (out.set j (f j)).set (16 + j) (g j)) out).length = 32 ∧
      ∀ j < 16,
        (forRange 16 (fun j out => (out.set j (f j)).set (16 + j) (g j)) out)[j]? = some (f j) ∧
        (forRange 16 (fun j out => (out.set j (f j)).set (16 + j) (g j)) out)[16 + j]? =
          some (g j) := by
  refine forRange_rule (I := fun m (deq : List R) => deq.length = 32 ∧ ∀ j < m,
    deq[j]? = some (f j) ∧ deq[16 + j]? = some (g j))
    ⟨hout, fun _ hj => absurd hj (Nat.not_lt_zero _)⟩ ?_
  rintro m hm deq ⟨hlen, hval⟩
  refine ⟨by simp [hlen], fun j hj => ?_⟩
  simp only [List.getElem?_set, List.length_set, hlen]
  rcases Nat.lt_succ_iff_lt_or_eq.mp hj with hlt | rfl
  · rw [if_neg (by omega), if_neg (by omega), if_neg (by omega), if_neg (by omega)]
    exact hval j hlt
  · rw [if_neg (by omega), if_pos rfl, if_pos (by omega), if_pos rfl, if_pos (by omega)]
    exact ⟨rfl, rfl⟩

/-! ## Fields of a byte -/

/-- Half `h` of a byte, the low half first. -/
def nibble (byte : UInt8) (h : Nat) : Nat := byte.toNat / 16 ^ h % 16

def bit (byte : UInt8) (k : Nat) : Nat := byte.toNat / 2 ^ k % 2

/-- The two bits of a byte from bit `2 * k` on. -/
def crumb (byte : UInt8) (k : Nat) : Nat := byte.toNat / 4 ^ k % 4

variable (byte : UInt8)

theorem toNat_and_low : (byte &&& 0xF).toNat = nibble byte 0 := by
  show byte.toNat &&& 2 ^ 4 - 1 = byte.toNat / 16 ^ 0 % 16
  rw [Nat.and_two_pow_sub_one_eq_mod, Nat.pow_zero, Nat.div_one]

theorem toNat_shiftRight_four : (byte >>> 4).toNat = nibble byte 1 := by
  have hlt := byte.toNat_lt
  show byte.toNat >>> 4 = byte.toNat / 16 ^ 1 % 16
  have hdiv : byte.toNat / 16 ^ 1 < 16 := by omega
  rw [Nat.shiftRight_eq_div_pow, Nat.mod_eq_of_lt hdiv]
  rfl

theorem nibble_lt (h : Nat) : nibble byte h < 16 := Nat.mod_lt _ (by decide)

theorem bit_lt (k : Nat) : bit byte k < 2 := Nat.mod_lt _ (by decide)

theorem and_mask_ne_zero {k : Nat} (hk : k < 8) :
    byte &&& UInt8.ofNat (2 ^ k) ≠ 0 ↔ bit byte k = 1 := by
  have hmask : (UInt8.ofNat (2 ^ k)).toNat = 2 ^ k := by
    interval_cases k <;> rfl
  have hbit : (byte &&& UInt8.ofNat (2 ^ k)).toNat = bit byte k * 2 ^ k := by
    rw [UInt8.toNat_and, hmask, Nat.and_two_pow, Nat.toNat_testBit, bit]
  have hpos := Nat.two_pow_pos k
  have hlt := bit_lt byte k
  rw [ne_eq, ← UInt8.toNat_inj, hbit]
  show ¬bit byte k * 2 ^ k = 0 ↔ bit byte k = 1
  rw [Nat.mul_eq_zero]
  omega

/-- A byte is its eight bits. -/
theorem eq_of_bit {a b : UInt8} (h : ∀ k < 8, bit a k = bit b k) : a = b := by
  have ha := a.toNat_lt
  have hb := b.toNat_lt
  rw [← UInt8.toNat_inj]
  apply Nat.eq_of_testBit_eq
  intro k
  rcases Nat.lt_or_ge k 8 with hk | hk
  · have hbit := h k hk
    rw [bit, bit, ← Nat.toNat_testBit, ← Nat.toNat_testBit] at hbit
    cases hx : a.toNat.testBit k <;> cases hy : b.toNat.testBit k <;> simp [hx, hy] at hbit ⊢
  · have hpow : 2 ^ 8 ≤ 2 ^ k := Nat.pow_le_pow_right (by decide) hk
    rw [Nat.testBit_lt_two_pow (by omega), Nat.testBit_lt_two_pow (by omega)]

/-- A byte is its two halves. -/
theorem eq_of_nibble {a b : UInt8} (h0 : nibble a 0 = nibble b 0) (h1 : nibble a 1 = nibble b 1) :
    a = b := by
  have ha := a.toNat_lt
  have hb := b.toNat_lt
  rw [← UInt8.toNat_inj]
  simp only [nibble, Nat.pow_zero, Nat.pow_one] at h0 h1
  omega

/-! ## Free terms -/

/-- Numbers as the expressions that make them. -/
inductive Term where
  | fromBits (bits : UInt32)
  | ofInt (value : Int)
  | zero
  | add (a b : Term)
  | sub (a b : Term)
  | mul (a b : Term)
deriving DecidableEq

instance : F32 Term := ⟨.fromBits, .ofInt⟩

instance : Zero Term := ⟨.zero⟩

instance : Add Term := ⟨.add⟩

instance : Sub Term := ⟨.sub⟩

instance : Mul Term := ⟨.mul⟩

end Quant
end Ramforge

/-!
Packed blocks: the bytes that a layout gives to codes, scales and minima, and the row
decoders on rows of packed blocks.
-/

namespace Ramforge
namespace Quant

open Rust

/-- Number `i` of `n` numbers below `m`, and 0 behind them. -/
def codeAt {n m : Nat} (codes : Fin n → Fin m) (i : Nat) : Nat :=
  if h : i < n then (codes ⟨i, h⟩).val else 0

theorem codeAt_lt {n m : Nat} (codes : Fin n → Fin m) {i : Nat} (h : i < n) : codeAt codes i < m := by
  rw [codeAt, dif_pos h]
  exact (codes ⟨i, h⟩).isLt

/-- Byte `k` of a little-endian number. -/
def byteOf (value k : Nat) : UInt8 := UInt8.ofNat (value / 256 ^ k)

theorem u16FromLe_byteOf (d : UInt16) : u16FromLe [byteOf d.toNat 0, byteOf d.toNat 1] = d := by
  have hbytes := LittleEndian.ofBytes_toBytes (w := 2) (n := d.toNat) d.toNat_lt
  have hlist : LittleEndian.toBytes 2 d.toNat = [byteOf d.toNat 0, byteOf d.toNat 1] := by
    simp [LittleEndian.toBytes, byteOf]
  rw [u16FromLe, ← hlist, hbytes, UInt16.ofNat_toNat]

theorem u32FromLe_byteOf {value : Nat} (h : value < 2 ^ 32) :
    (u32FromLe [byteOf value 0, byteOf value 1, byteOf value 2, byteOf value 3]).toNat = value := by
  have hbytes := LittleEndian.ofBytes_toBytes (w := 4) (n := value) h
  have hlist : LittleEndian.toBytes 4 value =
      [byteOf value 0, byteOf value 1, byteOf value 2, byteOf value 3] := by
    simp [LittleEndian.toBytes, byteOf, Nat.div_div_eq_div_mul]
  rw [u32FromLe, ← hlist, hbytes, UInt32.toNat_ofNat']
  exact Nat.mod_eq_of_lt h

/-! ## Layouts -/

/-- A block format with its layout: what a block holds, the bytes that it is packed to and
the values that they stand for. -/
structure Packing (Parts : Type) where
  format : Format ℚ
  byte : Parts → Nat → UInt8
  value : Parts → Nat → ℚ

namespace Packing

variable {Parts : Type}

def pack (p : Packing Parts) (parts : Parts) : List UInt8 :=
  (List.range p.format.blockSize).map (p.byte parts)

def values (p : Packing Parts) (parts : Parts) : List ℚ := (List.range p.format.qk).map (p.value parts)

/-- The decoder gives the values of a packed block. -/
structure Inverse (p : Packing Parts) : Prop extends p.format.Decodes where
  unpack : ∀ (parts : Parts) (out : List ℚ), out.length = p.format.qk →
    p.format.decode (p.pack parts) out = .ok (p.values parts)

section block

variable (p : Packing Parts)

@[simp] theorem length_pack (parts : Parts) : (p.pack parts).length = p.format.blockSize := by
  rw [pack, List.length_map, List.length_range]

@[simp] theorem length_values (parts : Parts) : (p.values parts).length = p.format.qk := by
  rw [values, List.length_map, List.length_range]

theorem getD_pack (parts : Parts) {i : Nat} (h : i < p.format.blockSize) :
    (p.pack parts).getD i 0 = p.byte parts i := by
  rw [pack, List.getD_eq_getElem?_getD, List.getElem?_map, List.getElem?_range h]
  rfl

theorem getElem?_values (parts : Parts) {e : Nat} (h : e < p.format.qk) :
    (p.values parts)[e]? = some (p.value parts e) := by
  rw [values, List.getElem?_map, List.getElem?_range h]
  rfl

end block

variable {p : Packing Parts}

/-- A decoded block is the values, where it has each of them. -/
theorem eq_values {parts : Parts} {deq : List ℚ} (hlength : deq.length = p.format.qk)
    (h : ∀ e < p.format.qk, deq[e]? = some (p.value parts e)) : deq = p.values parts := by
  refine List.ext_getElem? fun e => ?_
  by_cases he : e < p.format.qk
  · rw [h e he, p.getElem?_values parts he]
  · rw [List.getElem?_eq_none (by omega), List.getElem?_eq_none (by rw [length_values]; omega)]

/-! ## Rows -/

theorem length_flatMap {α β : Type} {width : Nat} {f : α → List β} (xs : List α)
    (h : ∀ x, (f x).length = width) : (xs.flatMap f).length = xs.length * width := by
  induction xs with
  | nil => simp
  | cons x rest ih => rw [List.flatMap_cons, List.length_append, h, ih, List.length_cons, Nat.succ_mul]; omega

theorem flatMap_eq_range {α β : Type} {f : α → List β} (xs : List α) :
    xs.flatMap f = (List.range xs.length).flatMap fun i => (xs[i]?.map f).getD [] := by
  induction xs with
  | nil => rfl
  | cons x rest ih =>
    rw [List.flatMap_cons, ih, List.length_cons, List.range_succ_eq_map, List.flatMap_cons,
      List.flatMap_map]
    rfl

theorem row_flatMap {α β : Type} {width : Nat} {f : α → List β} {xs : List α}
    (h : ∀ x, (f x).length = width) {i : Nat} {x : α} (hi : xs[i]? = some x) :
    Rows.row width (xs.flatMap f) i = f x := by
  induction xs generalizing i with
  | nil => cases hi
  | cons y rest ih =>
    cases i with
    | zero =>
      cases hi
      rw [Rows.row, Nat.zero_mul, List.drop_zero, List.flatMap_cons, List.take_left' (h _)]
    | succ i =>
      have hrow := ih hi
      rw [Rows.row] at hrow ⊢
      rw [List.flatMap_cons, Nat.succ_mul, Nat.add_comm, ← List.drop_drop, List.drop_left' (h _), hrow]

/-- The blocks of any row are decoded one by one, each to its own outputs. -/
theorem dequantizeRow_blocks (hp : p.Inverse) {bytes : List UInt8} {n : Nat}
    (hbytes : n * p.format.blockSize ≤ bytes.length) (hlt : bytes.length < u64Bound) {out : List ℚ}
    (hout : out.length = n * p.format.qk) :
    ∃ values, dequantizeRow p.format bytes (n * p.format.qk) out = (.ok (), values) ∧
      values.length = n * p.format.qk ∧
      ∀ i < n, p.format.decode (Rows.row p.format.blockSize bytes i)
        (List.replicate p.format.qk 0) = .ok (Rows.row p.format.qk values i) := by
  have hdecodes := hp.toDecodes
  refine ⟨_, dequantizeRow_run hdecodes hbytes hlt hout, hdecodes.length_decoded hbytes, fun i hi => ?_⟩
  have hblock : (i + 1) * p.format.blockSize ≤ n * p.format.blockSize := Nat.mul_le_mul_right _ hi
  have hrow := Format.row_decoded hdecodes (n := 1) hi (by rw [Nat.one_mul]; exact hbytes)
  have hone := Format.decoded_row p.format bytes 1 i
  rw [Nat.mul_one, Nat.one_mul, Nat.one_mul] at hrow
  rw [Nat.one_mul] at hone
  rw [hrow, hone, (hdecodes.decode_row (by omega)).1]
  simp

/-- A row of packed blocks is decoded to their values. -/
theorem dequantizeRow_pack (hp : p.Inverse) (blocks : List Parts)
    (hlt : blocks.length * p.format.blockSize < u64Bound) {out : List ℚ}
    (hout : out.length = blocks.length * p.format.qk) :
    dequantizeRow p.format (blocks.flatMap p.pack) (blocks.length * p.format.qk) out =
      (.ok (), blocks.flatMap p.values) := by
  have hdecodes := hp.toDecodes
  have hbytes := length_flatMap blocks p.length_pack
  rw [dequantizeRow_run hdecodes (Nat.le_of_eq hbytes.symm) (by rw [hbytes]; exact hlt) hout,
    Format.decoded, flatMap_eq_range (f := p.values) blocks]
  refine congrArg (Prod.mk _) (List.flatMap_congr fun i hi => ?_)
  have hi := List.mem_range.mp hi
  have hget := List.getElem?_eq_getElem hi
  have hunpack := hp.unpack blocks[i] _ (List.length_replicate (a := (0 : ℚ)))
  rw [Format.blockValues, row_flatMap p.length_pack hget, hunpack, hget]
  rfl

end Packing
end Quant
end Ramforge
