/-
Q5_K blocks: the values a block decodes to, and the codes they are made of.

The layout puts the high bit of the value at place `64 * g + 32 * h + l` into bit
`2 * g + h` of byte `l` of `qh`.  The decoder takes it from byte `8 * g + l / 8`.
-/
import Ramforge.Core.QuantPacking

namespace Ramforge
namespace Quant

open Rust

namespace BlockQ5K

section values

variable {R : Type} [F32 R]

theorem fromBytes_eq {bytes : List UInt8} (h : 176 ≤ bytes.length) :
    (fromBytes bytes : Except DataSourceError (BlockQ5K R)) =
      .ok { d := f16ToF32 (u16FromLe ((bytes.take 2).take 2)),
            dmin := f16ToF32 (u16FromLe (((bytes.drop 2).take 2).take 2)),
            scales := arrayAt bytes 4 12 (by omega), qh := arrayAt bytes 16 32 (by omega),
            qs := arrayAt bytes 48 128 (by omega) } := by
  have h1 : 2 ≤ (bytes.take 2).length := by
    rw [List.length_take]
    omega
  have h2 : 2 ≤ ((bytes.drop 2).take 2).length := by
    rw [List.length_take, List.length_drop]
    omega
  rw [fromBytes, dif_neg (by omega), readF16Le_of_le h1, readF16Le_of_le h2]
  rfl

variable [Mul R] [Sub R] (b : BlockQ5K R)

/-- The masks of group `g`: `u1` and `u2` after `g` shifts by two. -/
def mask1 (g : Nat) : UInt8 := UInt8.ofNat (4 ^ g)

def mask2 (g : Nat) : UInt8 := UInt8.ofNat (2 * 4 ^ g)

/-- The values that group `g` writes to its two halves. -/
def value1 (g l : Nat) : R :=
  b.d * asF32 (b.getScaleMin (2 * g)).1.toNat *
      asF32 ((entry b.qs (32 * g + l) &&& 0xF) + b.high (32 * g) l (mask1 g)).toNat -
    b.dmin * asF32 (b.getScaleMin (2 * g)).2.toNat

def value2 (g l : Nat) : R :=
  b.d * asF32 (b.getScaleMin (2 * g + 1)).1.toNat *
      asF32 ((entry b.qs (32 * g + l) >>> 4) + b.high (32 * g) l (mask2 g)).toNat -
    b.dmin * asF32 (b.getScaleMin (2 * g + 1)).2.toNat

structure After (g : Nat) (c : Cursor R) : Prop where
  length : c.out.length = 256
  yIdx : c.yIdx = 64 * g
  is : c.is = 2 * g
  qOffset : c.qOffset = 32 * g
  u1 : c.u1 = mask1 g
  u2 : c.u2 = mask2 g
  written : ∀ i < g, ∀ l < 32, c.out[64 * i + l]? = some (b.value1 i l) ∧
    c.out[64 * i + 32 + l]? = some (b.value2 i l)

theorem after_group {g : Nat} (hg : g < 4) {c : Cursor R} (h : After b g c) :
    After b (g + 1) (b.group c) := by
  have hmask : mask1 g <<< 2 = mask1 (g + 1) ∧ mask2 g <<< 2 = mask2 (g + 1) := by
    interval_cases g <;> decide
  refine ⟨?_, ?_, ?_, ?_, ?_, ?_, ?_⟩
  · simp only [group, length_forRange_set, h.length]
  · simp only [group, h.yIdx]; omega
  · simp only [group, h.is]; omega
  · simp only [group, h.qOffset]; omega
  · simp only [group, h.u1, hmask.1]
  · simp only [group, h.u2, hmask.2]
  · intro i hi l hl
    simp only [group, getElem?_forRange_set, length_forRange_set, h.yIdx, h.is, h.qOffset, h.u1,
      h.u2, h.length]
    rcases Nat.lt_succ_iff_lt_or_eq.mp hi with hlt | rfl
    · obtain ⟨h1, h2⟩ := h.written i hlt l hl
      refine ⟨?_, ?_⟩
      · rw [if_neg (by omega), if_neg (by omega), h1]
      · rw [if_neg (by omega), if_neg (by omega), h2]
    · refine ⟨?_, ?_⟩
      · rw [if_neg (by omega), if_pos (by omega), Nat.add_sub_cancel_left]
        rfl
      · rw [if_pos (by omega), Nat.add_sub_cancel_left]
        rfl

theorem after_start {out : List R} (h : out.length = 256) :
    After b 0 { out, yIdx := 0, is := 0, qOffset := 0, u1 := 1, u2 := 2 } :=
  ⟨h, rfl, rfl, rfl, rfl, rfl, fun _ hi => absurd hi (Nat.not_lt_zero _)⟩

theorem after_dequantize {out : List R} (h : out.length = 256) {g l : Nat} (hg : g < 4)
    (hl : l < 32) :
    (b.dequantize out)[64 * g + l]? = some (b.value1 g l) ∧
      (b.dequantize out)[64 * g + 32 + l]? = some (b.value2 g l) :=
  (forRange_rule (after_start b h) fun _ hi _ => after_group b hi).written g hg l hl
end values

/-! ## Codes -/

/-- Value `i` of the block is made of the code `q`, in every arithmetic. -/
def HasCode (bytes : List UInt8) (i q : Nat) : Prop :=
  ∀ (R : Type) [F32 R] [Mul R] [Sub R] (b : BlockQ5K R) (out : List R),
    fromBytes bytes = .ok b → out.length = 256 →
      (b.dequantize out)[i]? =
        some (b.d * asF32 (b.getScaleMin (i / 32)).1.toNat * asF32 q -
          b.dmin * asF32 (b.getScaleMin (i / 32)).2.toNat)

def qhByte (bytes : List UInt8) (k : Nat) : UInt8 := bytes.getD (16 + k) 0

def qsByte (bytes : List UInt8) (k : Nat) : UInt8 := bytes.getD (48 + k) 0

/-- The code at place `64 * g + 32 * h + l`, with its high bit from byte `k` of `qh`. -/
def code (bytes : List UInt8) (g h l k : Nat) : Nat :=
  nibble (qsByte bytes (32 * g + l)) h + 16 * bit (qhByte bytes k) (2 * g + h)

/-- The codes of the block layout. -/
def FollowsLayout (bytes : List UInt8) : Prop :=
  ∀ g < 4, ∀ h < 2, ∀ l < 32, HasCode bytes (64 * g + 32 * h + l) (code bytes g h l l)

section codes

variable {R : Type} [F32 R]

theorem entries {bytes : List UInt8} (hlen : 176 ≤ bytes.length) {b : BlockQ5K R}
    (h : fromBytes bytes = .ok b) :
    (∀ k < 32, entry b.qh k = qhByte bytes k) ∧ ∀ k < 128, entry b.qs k = qsByte bytes k := by
  rw [fromBytes_eq hlen] at h
  obtain rfl := Except.ok.inj h
  exact ⟨fun k hk => entry_arrayAt (by omega) hk, fun k hk => entry_arrayAt (by omega) hk⟩

omit [F32 R] in
theorem toNat_high (b : BlockQ5K R) (qOffset l : Nat) {k : Nat} (hk : k < 8) :
    (b.high qOffset l (UInt8.ofNat (2 ^ k))).toNat =
      16 * bit (entry b.qh (qOffset / 4 + l / 8)) k := by
  have hlt := bit_lt (entry b.qh (qOffset / 4 + l / 8)) k
  have hmask := and_mask_ne_zero (entry b.qh (qOffset / 4 + l / 8)) hk
  rw [high]
  split
  · rename_i hset
    rw [hmask.mp hset]
    rfl
  · rename_i hclear
    have hzero : bit (entry b.qh (qOffset / 4 + l / 8)) k = 0 := by
      rw [hmask] at hclear
      omega
    rw [hzero]
    rfl

/-- A nibble and a high bit add up without a carry out of the byte. -/
theorem toNat_add_high {q u : UInt8} {n c : Nat} (hq : q.toNat = n) (hu : u.toNat = 16 * c)
    (hn : n < 16) (hc : c < 2) : (q + u).toNat = n + 16 * c := by
  rw [UInt8.toNat_add, hq, hu, Nat.mod_eq_of_lt]
  omega

end codes

/-- The decoder takes the high bit of the value `l` of group `g` from byte `8 * g + l / 8`. -/
theorem hasCode {bytes : List UInt8} (hlen : 176 ≤ bytes.length) {g h l : Nat} (hg : g < 4)
    (hh : h < 2) (hl : l < 32) :
    HasCode bytes (64 * g + 32 * h + l) (code bytes g h l (8 * g + l / 8)) := by
  intro R _ _ _ b out hb hout
  obtain ⟨hqh, hqs⟩ := entries hlen hb
  obtain ⟨h1, h2⟩ := after_dequantize b hout hg hl
  have hplace : 32 * g / 4 + l / 8 = 8 * g + l / 8 := by omega
  have hnibble := nibble_lt (entry b.qs (32 * g + l))
  have hbit := bit_lt (entry b.qh (8 * g + l / 8))
  have hi : (64 * g + 32 * h + l) / 32 = 2 * g + h := by omega
  rw [hi, code, ← hqh _ (by omega), ← hqs _ (by omega)]
  rcases (by omega : h = 0 ∨ h = 1) with rfl | rfl
  · have hmask : mask1 g = UInt8.ofNat (2 ^ (2 * g)) := by rw [mask1, Nat.pow_mul]
    have hhigh := b.toNat_high (32 * g) l (by omega : 2 * g < 8)
    rw [hplace] at hhigh
    rw [Nat.mul_zero, Nat.add_zero, Nat.add_zero, h1, value1, hmask,
      toNat_add_high (toNat_and_low _) hhigh (hnibble 0) (hbit (2 * g))]
  · have hmask : mask2 g = UInt8.ofNat (2 ^ (2 * g + 1)) := by
      rw [mask2, Nat.pow_succ, Nat.pow_mul, Nat.mul_comm]
    have hhigh := b.toNat_high (32 * g) l (by omega : 2 * g + 1 < 8)
    rw [hplace] at hhigh
    rw [Nat.mul_one, h2, value2, hmask,
      toNat_add_high (toNat_shiftRight_four _) hhigh (hnibble 1) (hbit (2 * g + 1))]

theorem hasCode_unique {bytes : List UInt8} (hlen : 176 ≤ bytes.length) {i q q' : Nat}
    (hq : HasCode bytes i q) (hq' : HasCode bytes i q') : q = q' := by
  have hout : (List.replicate 256 Term.zero).length = 256 := List.length_replicate
  have h := (hq Term _ _ (fromBytes_eq hlen) hout).symm.trans (hq' Term _ _ (fromBytes_eq hlen) hout)
  injection h with h
  injection h with h _
  injection h with _ h
  injection h with h
  exact Int.ofNat.inj h

/-- The codes that the decoder reads. -/
theorem hasCode_iff {bytes : List UInt8} (hlen : 176 ≤ bytes.length) {g h l : Nat} (hg : g < 4)
    (hh : h < 2) (hl : l < 32) (q : Nat) :
    HasCode bytes (64 * g + 32 * h + l) q ↔ q = code bytes g h l (8 * g + l / 8) := by
  constructor
  · intro hq
    exact hasCode_unique hlen hq (hasCode hlen hg hh hl)
  · rintro rfl
    exact hasCode hlen hg hh hl

theorem followsLayout_iff_qh (block : Vector UInt8 176) :
    FollowsLayout block.toList ↔ ∀ l < 32, qhByte block.toList l = qhByte block.toList 0 := by
  have hlen : 176 ≤ block.toList.length := by rw [Vector.length_toList]
  constructor
  · intro hfollows
    have hbits : ∀ k < 8, ∀ l < 32,
        bit (qhByte block.toList (8 * (k / 2) + l / 8)) k = bit (qhByte block.toList l) k := by
      intro k hk l hl
      have hread := hasCode hlen (by omega : k / 2 < 4) (by omega : k % 2 < 2) hl
      have hsame := hasCode_unique hlen hread (hfollows _ (by omega) _ (by omega) l hl)
      have hk2 : 2 * (k / 2) + k % 2 = k := by omega
      rw [code, code, hk2] at hsame
      omega
    -- Reading a place twice leads to byte `9 * (k / 2)`, whatever the place was.
    have hone : ∀ k < 8, ∀ l < 32,
        bit (qhByte block.toList l) k = bit (qhByte block.toList (9 * (k / 2))) k := by
      intro k hk l hl
      have htwice := hbits k hk (8 * (k / 2) + l / 8) (by omega)
      have hplace : 8 * (k / 2) + (8 * (k / 2) + l / 8) / 8 = 9 * (k / 2) := by omega
      rw [hplace] at htwice
      rw [← hbits k hk l hl, htwice]
    intro l hl
    apply eq_of_bit
    intro k hk
    rw [hone k hk l hl, hone k hk 0 (by omega)]
  · intro hsame g hg h hh l hl
    have hread := hasCode hlen hg hh hl
    have hbyte : qhByte block.toList (8 * g + l / 8) = qhByte block.toList l := by
      rw [hsame _ (by omega), hsame l hl]
    rw [code, hbyte] at hread
    exact hread

/-- Blocks that follow the layout and have the same codes have the same quants. -/
theorem quants_eq_of_codes {block block' : Vector UInt8 176} (hfollows : FollowsLayout block.toList)
    (hfollows' : FollowsLayout block'.toList)
    (hcodes : ∀ i < 256, ∀ q, HasCode block.toList i q → HasCode block'.toList i q) :
    (∀ k < 32, qhByte block.toList k = qhByte block'.toList k) ∧
      ∀ k < 128, qsByte block.toList k = qsByte block'.toList k := by
  have hlen : 176 ≤ block'.toList.length := by rw [Vector.length_toList]
  have hsame : ∀ g < 4, ∀ h < 2, ∀ l < 32,
      code block.toList g h l l = code block'.toList g h l l := by
    intro g hg h hh l hl
    have hcode := hcodes _ (by omega) _ (hfollows g hg h hh l hl)
    exact hasCode_unique hlen hcode (hfollows' g hg h hh l hl)
  constructor
  · intro k hk
    apply eq_of_bit
    intro j hj
    have hcode := hsame (j / 2) (by omega) (j % 2) (by omega) k hk
    have hj2 : 2 * (j / 2) + j % 2 = j := by omega
    have hn := nibble_lt (qsByte block.toList (32 * (j / 2) + k)) (j % 2)
    have hn' := nibble_lt (qsByte block'.toList (32 * (j / 2) + k)) (j % 2)
    rw [code, code, hj2] at hcode
    omega
  · intro k hk
    have hhalf : ∀ h < 2, nibble (qsByte block.toList k) h = nibble (qsByte block'.toList k) h := by
      intro h hh
      have hcode := hsame (k / 32) (by omega) h hh (k % 32) (by omega)
      have hk2 : 32 * (k / 32) + k % 32 = k := by omega
      have hn := nibble_lt (qsByte block.toList k) h
      have hn' := nibble_lt (qsByte block'.toList k) h
      rw [code, code, hk2] at hcode
      omega
    exact eq_of_nibble (hhalf 0 (by omega)) (hhalf 1 (by omega))

/-- The decoder follows the layout on exactly the blocks whose bytes of high bits are all
the same, and on these the codes determine the quants. -/
theorem highBits_followLayout_iff (block : Vector UInt8 176) :
    (FollowsLayout block.toList ↔ ∀ l < 32, qhByte block.toList l = qhByte block.toList 0) ∧
    ∀ block' : Vector UInt8 176, FollowsLayout block.toList → FollowsLayout block'.toList →
      (∀ i < 256, ∀ q, HasCode block.toList i q → HasCode block'.toList i q) →
      (∀ k < 32, qhByte block.toList k = qhByte block'.toList k) ∧
        ∀ k < 128, qsByte block.toList k = qsByte block'.toList k :=
  ⟨followsLayout_iff_qh block, fun _ => quants_eq_of_codes⟩

/-- A block of zeros but for byte `k` of `qh`, which is one. -/
def oneHighBit (k : Nat) : Vector UInt8 176 := Vector.ofFn fun i => if i.val = 16 + k then 1 else 0

theorem qhByte_oneHighBit {k j : Nat} (hj : j < 32) :
    qhByte (oneHighBit k).toList j = if j = k then 1 else 0 := by
  have hlt : 16 + j < 176 := by omega
  have hk : 16 + j = 16 + k ↔ j = k := by omega
  simp [qhByte, oneHighBit, List.getD, hlt]

theorem qsByte_oneHighBit {k j : Nat} (hk : k < 32) (hj : j < 128) :
    qsByte (oneHighBit k).toList j = 0 := by
  have hlt : 48 + j < 176 := by omega
  have hne : ¬48 + j = 16 + k := by omega
  simp [qsByte, oneHighBit, List.getD, hlt, hne]

/-- Bit 0 of `qh[0]` is the high bit of eight values, and bit 0 of `qh[4]` of none. -/
theorem oneHighBit_not_followsLayout :
    ¬FollowsLayout (oneHighBit 0).toList ∧
      (∀ l < 8, HasCode (oneHighBit 0).toList l 16) ∧
      oneHighBit 4 ≠ oneHighBit 5 ∧
      ∀ i < 256, ∀ q, HasCode (oneHighBit 4).toList i q ↔ HasCode (oneHighBit 5).toList i q := by
  have hlen : ∀ block : Vector UInt8 176, 176 ≤ block.toList.length := by
    intro block
    rw [Vector.length_toList]
  refine ⟨?_, ?_, ?_, ?_⟩
  · rw [followsLayout_iff_qh]
    intro hsame
    have hne := hsame 1 (by omega)
    rw [qhByte_oneHighBit (by omega), qhByte_oneHighBit (by omega)] at hne
    exact absurd hne (by decide)
  · intro l hl
    have hcode : code (oneHighBit 0).toList 0 0 l (8 * 0 + l / 8) = 16 := by
      have hbyte : 8 * 0 + l / 8 = 0 := by omega
      rw [code, hbyte, qhByte_oneHighBit (by omega), qsByte_oneHighBit (by omega) (by omega)]
      rfl
    have h := (hasCode_iff (hlen (oneHighBit 0)) (by omega : 0 < 4) (by omega : 0 < 2)
      (by omega : l < 32) 16).mpr hcode.symm
    have hplace : 64 * 0 + 32 * 0 + l = l := by omega
    rwa [hplace] at h
  · intro heq
    have hne := congrArg (fun block : Vector UInt8 176 => qhByte block.toList 4) heq
    change qhByte (oneHighBit 4).toList 4 = qhByte (oneHighBit 5).toList 4 at hne
    rw [qhByte_oneHighBit (by omega), qhByte_oneHighBit (by omega)] at hne
    exact absurd hne (by decide)
  · -- No group reads byte 4 or byte 5: group `g` reads the bytes from `8 * g` to `8 * g + 3`.
    have hcode : ∀ g < 4, ∀ h < 2, ∀ l < 32,
        code (oneHighBit 4).toList g h l (8 * g + l / 8) =
          code (oneHighBit 5).toList g h l (8 * g + l / 8) := by
      intro g hg h hh l hl
      rw [code, code, qhByte_oneHighBit (by omega), qhByte_oneHighBit (by omega),
        qsByte_oneHighBit (by omega) (by omega), qsByte_oneHighBit (by omega) (by omega),
        if_neg (by omega), if_neg (by omega)]
    intro i hi q
    have hplace : 64 * (i / 64) + 32 * (i / 32 % 2) + i % 32 = i := by omega
    rw [← hplace, hasCode_iff (hlen _) (by omega) (by omega) (by omega),
      hasCode_iff (hlen _) (by omega) (by omega) (by omega),
      hcode _ (by omega) _ (by omega) _ (by omega)]

end BlockQ5K
end Quant
end Ramforge
