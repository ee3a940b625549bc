/-
Q3_K blocks: the values a block decodes to, their scales and their codes.

The layout gives scale number `s` to the values `16 * s .. 16 * s + 15`.  The
decoder's inner loop runs over `j < 4` in both halves of the block and takes the
scales `j` and `j + 4` each time.
-/
import Ramforge.Core.QuantPacking

namespace Ramforge
namespace Quant

open Rust

namespace BlockQ3K

/-- The scale that the decoder multiplies the values `16 * s .. 16 * s + 15` with. -/
def scalePlace (s : Nat) : Nat := s / 2 % 4 + 4 * (s % 2)

section values

variable {R : Type} [F32 R]

theorem fromBytes_eq {bytes : List UInt8} (h : 110 ≤ bytes.length) :
    (fromBytes bytes : Except DataSourceError (BlockQ3K R)) =
      .ok { d := f16ToF32 (u16FromLe (((bytes.drop 108).take 2).take 2)),
            hmask := arrayAt bytes 0 32 (by omega), qs := arrayAt bytes 32 64 (by omega),
            scales := arrayAt bytes 96 12 (by omega) } := by
  have h1 : 2 ≤ ((bytes.drop 108).take 2).length := by
    rw [List.length_take, List.length_drop]
    omega
  rw [fromBytes, dif_neg (by omega), readF16Le_of_le h1]
  rfl

variable [Mul R] (b : BlockQ3K R)

def scale (j : Nat) : Int := ((b.scalesI8)[j]?.getD 0).toInt - 32

/-- The mask of round `r`: `m` after `r` shifts by one. -/
def mask (r : Nat) : UInt8 := UInt8.ofNat (2 ^ r)

/-- The quant of the value `16 * s + l`. -/
def quant (s l : Nat) : Int :=
  (((entry b.qs (32 * (s / 8) + 16 * (s % 2) + l) >>> UInt8.ofNat (2 * (s / 2 % 4))) &&& 3).toNat : Int) -
    if entry b.hmask (16 * (s % 2) + l) &&& mask (s / 2) ≠ 0 then 0 else 4

def value (s l : Nat) : R := b.d * asF32 (b.scale (scalePlace s)) * asF32 (b.quant s l)

/-- The cursor when `s` runs of sixteen values are over, `r` of the eight rounds. -/
structure After (s : Nat) (c : Cursor R) : Prop where
  length : c.out.length = 256
  yIdx : c.yIdx = 16 * s
  written : ∀ i < s, ∀ l < 16, c.out[16 * i + l]? = some (b.value i l)

/-- The cursor in half `h` of the block when `j` of its four rounds are over. -/
structure InHalf (h j : Nat) (c : Cursor R) : Prop extends After b (2 * (4 * h + j)) c where
  qOffset : c.qOffset = 32 * h
  shift : c.shift = UInt8.ofNat (2 * j)
  m : c.m = mask (4 * h + j)

@[simp] theorem run_qOffset (j base : Nat) (c : Cursor R) :
    (b.run j base c).qOffset = c.qOffset := by rw [run]

@[simp] theorem run_shift (j base : Nat) (c : Cursor R) : (b.run j base c).shift = c.shift := by
  rw [run]

@[simp] theorem run_m (j base : Nat) (c : Cursor R) : (b.run j base c).m = c.m := by rw [run]

theorem after_run {s j base : Nat} {c : Cursor R} (hs : s < 16) (h : After b s c)
    (hj : j = scalePlace s) (hbase : base = 16 * (s % 2)) (hq : c.qOffset = 32 * (s / 8))
    (hshift : c.shift = UInt8.ofNat (2 * (s / 2 % 4))) (hm : c.m = mask (s / 2)) :
    After b (s + 1) (b.run j base c) := by
  refine ⟨?_, ?_, ?_⟩
  · simp only [run, length_forRange_set, h.length]
  · simp only [run, h.yIdx]
    omega
  · intro i hi l hl
    simp only [run, getElem?_forRange_set, h.yIdx, h.length, hshift, hm, hq, hj, hbase]
    rcases Nat.lt_succ_iff_lt_or_eq.mp hi with hlt | rfl
    · rw [if_neg (by omega), h.written i hlt l hl]
    · rw [if_pos (by omega), Nat.add_sub_cancel_left]
      rfl

theorem inHalf_round {h j : Nat} (hh : h < 2) (hj : j < 4) {c : Cursor R} (hc : InHalf b h j c) :
    InHalf b h (j + 1) (b.round j c) := by
  have hfirst : After b (2 * (4 * h + j) + 1) (b.run j 0 c) := by
    have hshift : c.shift = UInt8.ofNat (2 * (2 * (4 * h + j) / 2 % 4)) := by
      rw [hc.shift]
      congr 2
      omega
    have hm : c.m = mask (2 * (4 * h + j) / 2) := by
      rw [hc.m]
      congr 1
      omega
    have hplace : j = scalePlace (2 * (4 * h + j)) := by
      show j = 2 * (4 * h + j) / 2 % 4 + 4 * (2 * (4 * h + j) % 2)
      omega
    have hq : c.qOffset = 32 * (2 * (4 * h + j) / 8) := by
      rw [hc.qOffset]
      omega
    exact b.after_run (by omega) hc.toAfter hplace (by omega) hq hshift hm
  have hsecond : After b (2 * (4 * h + j) + 1 + 1) (b.run (j + 4) 16 (b.run j 0 c)) := by
    have hshift : (b.run j 0 c).shift = UInt8.ofNat (2 * ((2 * (4 * h + j) + 1) / 2 % 4)) := by
      rw [run_shift, hc.shift]
      congr 2
      omega
    have hm : (b.run j 0 c).m = mask ((2 * (4 * h + j) + 1) / 2) := by
      rw [run_m, hc.m]
      congr 1
      omega
    have hplace : j + 4 = scalePlace (2 * (4 * h + j) + 1) := by
      show j + 4 = (2 * (4 * h + j) + 1) / 2 % 4 + 4 * ((2 * (4 * h + j) + 1) % 2)
      omega
    have hq : (b.run j 0 c).qOffset = 32 * ((2 * (4 * h + j) + 1) / 8) := by
      rw [run_qOffset, hc.qOffset]
      omega
    exact b.after_run (by omega) hfirst hplace (by omega) hq hshift hm
  have hshift : UInt8.ofNat (2 * j) + 2 = UInt8.ofNat (2 * (j + 1)) := by
    interval_cases j <;> rfl
  have hmask : mask (4 * h + j) <<< 1 = mask (4 * h + (j + 1)) := by
    interval_cases h <;> interval_cases j <;> rfl
  refine ⟨⟨?_, ?_, ?_⟩, ?_, ?_, ?_⟩
  · simp only [round, hsecond.length]
  · simp only [round, hsecond.yIdx]
    omega
  · simp only [round]
    exact hsecond.written
  · simp only [round, run_qOffset, hc.qOffset]
  · simp only [round, run_shift, hc.shift, hshift]
  · simp only [round, run_m, hc.m, hmask]

/-- The cursor between halves. -/
structure AtHalf (h : Nat) (c : Cursor R) : Prop extends After b (8 * h) c where
  qOffset : c.qOffset = 32 * h
  m : c.m = mask (4 * h)

theorem atHalf_half {h : Nat} (hh : h < 2) {c : Cursor R} (hc : AtHalf b h c) :
    AtHalf b (h + 1) (b.half c) := by
  have hstart : InHalf b h 0 { c with shift := 0 } := by
    refine ⟨⟨hc.length, ?_, ?_⟩, hc.qOffset, rfl, hc.m⟩
    · show c.yIdx = _
      rw [hc.yIdx]
      omega
    · intro i hi
      exact hc.written i (by omega)
  have hend : InHalf b h 4 (forRange 4 b.round { c with shift := 0 }) :=
    forRange_rule hstart fun _ hj _ => b.inHalf_round hh hj
  refine ⟨⟨?_, ?_, ?_⟩, ?_, ?_⟩
  · simp only [half, hend.length]
  · simp only [half, hend.yIdx]
    omega
  · intro i hi
    simp only [half]
    exact hend.written i (by omega)
  · simp only [half, hend.qOffset]
    omega
  · simp only [half, hend.m]
    rfl

theorem atHalf_start {out : List R} (hout : out.length = 256) :
    AtHalf b 0 { out, yIdx := 0, qOffset := 0, shift := 0, m := 1 } :=
  ⟨⟨hout, rfl, fun _ hi => absurd hi (Nat.not_lt_zero _)⟩, rfl, rfl⟩

theorem getElem?_dequantize {out : List R} (hout : out.length = 256) {s l : Nat} (hs : s < 16)
    (hl : l < 16) : (b.dequantize out)[16 * s + l]? = some (b.value s l) := by
  have hend : AtHalf b 2 (forRange 2 (fun _ c => b.half c)
      { out, yIdx := 0, qOffset := 0, shift := 0, m := 1 }) :=
    forRange_rule (b.atHalf_start hout) fun _ hh _ => b.atHalf_half hh
  exact hend.written s hs l hl

end values
/-! ## Unpacked scales -/

/-- Byte `k` of a word. -/
def laneOf (v : UInt32) (k : Nat) : UInt8 := UInt8.ofNat (v.toNat / 256 ^ k)

theorem testBit_laneOf (v : UInt32) (k : Nat) {i : Nat} (hi : i < 8) :
    (laneOf v k).toNat.testBit i = v.toNat.testBit (8 * k + i) := by
  have hpow : 256 ^ k = 2 ^ (8 * k) := by rw [Nat.pow_mul]
  rw [laneOf, UInt8.toNat_ofNat', hpow, ← Nat.shiftRight_eq_div_pow, Nat.testBit_mod_two_pow,
    Nat.testBit_shiftRight]
  simp [hi]

theorem testBit_kmask2 {k i : Nat} (hk : k < 4) (hi : i < 8) :
    kmask2.toNat.testBit (8 * k + i) = decide (i < 4) := by
  interval_cases k <;> interval_cases i <;> rfl

theorem testBit_kmask1 {k i : Nat} (hk : k < 4) (hi : i < 8) :
    kmask1.toNat.testBit (8 * k + i) = decide (i < 2) := by
  interval_cases k <;> interval_cases i <;> rfl

/-- Byte `k` of an unpacked word: four bits of `v` and two of `u`. -/
theorem testBit_unpack (v u : UInt32) {k i : Nat} (hk : k < 4) (hi : i < 8) :
    ((v &&& kmask2) ||| ((u &&& kmask1) <<< 4)).toNat.testBit (8 * k + i) =
      if i < 4 then v.toNat.testBit (8 * k + i)
      else if i < 6 then u.toNat.testBit (8 * k + (i - 4)) else false := by
  have hshift : ((u &&& kmask1) <<< 4).toNat = (u.toNat &&& kmask1.toNat) <<< 4 % 2 ^ 32 := rfl
  have hplace : 8 * k + i < 32 := by omega
  rw [UInt32.toNat_or, UInt32.toNat_and, hshift, Nat.testBit_or, Nat.testBit_and,
    testBit_kmask2 hk hi, Nat.testBit_mod_two_pow, Nat.testBit_shiftLeft, Nat.testBit_and]
  rcases Nat.lt_or_ge i 4 with hlow | hhigh
  · rw [if_pos hlow]
    cases k with
    | zero => simp [hlow]
    | succ k =>
      have hsub : 8 * (k + 1) + i - 4 = 8 * k + (i + 4) := by omega
      have hmask := testBit_kmask1 (by omega : k < 4) (by omega : i + 4 < 8)
      rw [hsub, hmask]
      simp [hlow]
  · have hsub : 8 * k + i - 4 = 8 * k + (i - 4) := by omega
    have hmask := testBit_kmask1 hk (by omega : i - 4 < 8)
    have hge : 8 * k + i ≥ 4 := by omega
    rw [if_neg (by omega), hsub, hmask]
    by_cases h6 : i < 6
    · have h2 : i - 4 < 2 := by omega
      simp [h6, h2, hplace, hge]
      omega
    · have h2 : ¬i - 4 < 2 := by omega
      simp [h6, h2]
      omega

theorem toNat_laneOf_unpack (v u : UInt32) {k : Nat} (hk : k < 4) :
    (laneOf ((v &&& kmask2) ||| ((u &&& kmask1) <<< 4)) k).toNat =
      v.toNat / 256 ^ k % 16 + 16 * (u.toNat / 256 ^ k % 4) := by
  have hpow : 256 ^ k = 2 ^ (8 * k) := by rw [Nat.pow_mul]
  have hlow : v.toNat / 256 ^ k % 2 ^ 4 < 2 ^ 4 := Nat.mod_lt _ (by decide)
  have hsum : v.toNat / 256 ^ k % 16 + 16 * (u.toNat / 256 ^ k % 4) =
      2 ^ 4 * (u.toNat / 256 ^ k % 2 ^ 2) + v.toNat / 256 ^ k % 2 ^ 4 := by omega
  rw [hsum]
  apply Nat.eq_of_testBit_eq
  intro i
  rw [Nat.testBit_two_pow_mul_add _ hlow, hpow, ← Nat.shiftRight_eq_div_pow,
    ← Nat.shiftRight_eq_div_pow, Nat.testBit_mod_two_pow, Nat.testBit_mod_two_pow,
    Nat.testBit_shiftRight, Nat.testBit_shiftRight]
  rcases Nat.lt_or_ge i 8 with hi | hi
  · rw [testBit_laneOf _ _ hi, testBit_unpack v u hk hi]
    by_cases h4 : i < 4
    · simp [h4]
    · by_cases h6 : i < 6
      · have h2 : i - 4 < 2 := by omega
        simp [h4, h6, h2]
      · have h2 : ¬i - 4 < 2 := by omega
        simp [h4, h6, h2]
  · have hbyte := (laneOf ((v &&& kmask2) ||| ((u &&& kmask1) <<< 4)) k).toNat_lt
    have hpow : 2 ^ 8 ≤ 2 ^ i := Nat.pow_le_pow_right (by decide) hi
    have h4 : ¬i < 4 := by omega
    have h2 : ¬i - 4 < 2 := by omega
    rw [Nat.testBit_lt_two_pow (by omega)]
    simp [h4, h2]


theorem getElem?_flatMap_u32ToLe (ws : List UInt32) (a : Nat) {k : Nat} (hk : k < 4) :
    (ws.flatMap u32ToLe)[4 * a + k]? = ws[a]?.map fun w => laneOf w k := by
  induction ws generalizing a with
  | nil => rfl
  | cons w ws ih =>
    have hlen : (u32ToLe w).length = 4 := LittleEndian.length_toBytes 4 _
    rw [List.flatMap_cons]
    cases a with
    | zero =>
      rw [List.getElem?_append_left (by omega), Nat.mul_zero, Nat.zero_add]
      exact LittleEndian.getElem?_toBytes hk
    | succ a =>
      have hplace : 4 * (a + 1) + k - (u32ToLe w).length = 4 * a + k := by omega
      rw [List.getElem?_append_right (by omega), hplace, ih, List.getElem?_cons_succ]

section scales

variable {R : Type} (b : BlockQ3K R)

theorem word_div (i : Nat) {k : Nat} (hk : k < 4) :
    (b.word i).toNat / 256 ^ k % 256 = (entry b.scales (4 * i + k)).toNat := by
  have hlt := LittleEndian.ofBytes_lt [entry b.scales (i * 4), entry b.scales (i * 4 + 1),
    entry b.scales (i * 4 + 2), entry b.scales (i * 4 + 3)]
  have hpow : 256 ^ [entry b.scales (i * 4), entry b.scales (i * 4 + 1),
    entry b.scales (i * 4 + 2), entry b.scales (i * 4 + 3)].length = 2 ^ 32 := by norm_num
  rw [hpow] at hlt
  rw [word, u32FromLe, UInt32.toNat_ofNat', Nat.mod_eq_of_lt hlt, LittleEndian.ofBytes_div,
    Nat.mul_comm i 4]
  interval_cases k <;> rfl

theorem nibble_word (i : Nat) {k h : Nat} (hk : k < 4) (hh : h < 2) :
    (b.word i).toNat / 16 ^ h / 256 ^ k % 16 = nibble (entry b.scales (4 * i + k)) h := by
  rw [nibble, ← b.word_div i hk, Nat.div_div_eq_div_mul, Nat.mul_comm, ← Nat.div_div_eq_div_mul]
  rcases (by omega : h = 0 ∨ h = 1) with rfl | rfl
  · rw [Nat.pow_zero, Nat.div_one, Nat.div_one]
    omega
  · rw [Nat.pow_one]
    omega

theorem crumb_word (i : Nat) {k j : Nat} (hk : k < 4) (hj : j < 4) :
    (b.word i).toNat / 4 ^ j / 256 ^ k % 4 = crumb (entry b.scales (4 * i + k)) j := by
  rw [crumb, ← b.word_div i hk, Nat.div_div_eq_div_mul, Nat.mul_comm, ← Nat.div_div_eq_div_mul]
  interval_cases j <;> omega

/-- Scale number `s` out of the twelve packed bytes. -/
def number (s : Nat) : Nat :=
  nibble (entry b.scales (s % 8)) (s / 8) + 16 * crumb (entry b.scales (8 + s % 4)) (s / 4)

theorem getElem?_scalesBytes {s : Nat} (hs : s < 16) :
    (b.scalesBytes)[s]?.map UInt8.toNat = some (b.number s) := by
  have hk : s % 4 < 4 := by omega
  have hshift : ∀ (w r : UInt32) (j : Nat), r.toNat = 2 * j → j < 4 →
      (w >>> r).toNat = w.toNat / 4 ^ j := by
    intro w r j hr hj
    rw [UInt32.toNat_shiftRight, hr, Nat.mod_eq_of_lt (by omega), Nat.shiftRight_eq_div_pow,
      Nat.pow_mul]
  have hplace : s = 4 * (s / 4) + s % 4 := by omega
  have hbytes := getElem?_flatMap_u32ToLe [
    (b.word 0 &&& kmask2) ||| (((b.word 2 >>> 0) &&& kmask1) <<< 4),
    (b.word 1 &&& kmask2) ||| (((b.word 2 >>> 2) &&& kmask1) <<< 4),
    ((b.word 0 >>> 4) &&& kmask2) ||| (((b.word 2 >>> 4) &&& kmask1) <<< 4),
    ((b.word 1 >>> 4) &&& kmask2) ||| (((b.word 2 >>> 6) &&& kmask1) <<< 4)] (s / 4) hk
  rw [← hplace] at hbytes
  change (b.scalesBytes)[s]? = _ at hbytes
  rw [hbytes, number, Option.map_map]
  rcases (by omega : s / 4 = 0 ∨ s / 4 = 1 ∨ s / 4 = 2 ∨ s / 4 = 3) with h | h | h | h
  · have h8 : s % 8 = 4 * 0 + s % 4 ∧ s / 8 = 0 := by omega
    rw [h, h8.1, h8.2, ← b.nibble_word 0 hk (by omega), ← b.crumb_word 2 hk (by omega)]
    show some (laneOf _ _).toNat = _
    rw [toNat_laneOf_unpack _ _ hk, hshift _ _ 0 rfl (by omega), Nat.pow_zero, Nat.pow_zero,
      Nat.div_one, Nat.div_one]
  · have h8 : s % 8 = 4 * 1 + s % 4 ∧ s / 8 = 0 := by omega
    rw [h, h8.1, h8.2, ← b.nibble_word 1 hk (by omega), ← b.crumb_word 2 hk (by omega)]
    show some (laneOf _ _).toNat = _
    rw [toNat_laneOf_unpack _ _ hk, hshift _ _ 1 rfl (by omega), Nat.pow_zero, Nat.div_one]
  · have h8 : s % 8 = 4 * 0 + s % 4 ∧ s / 8 = 1 := by omega
    rw [h, h8.1, h8.2, ← b.nibble_word 0 hk (by omega), ← b.crumb_word 2 hk (by omega)]
    show some (laneOf _ _).toNat = _
    rw [toNat_laneOf_unpack _ _ hk, hshift (b.word 0) _ 2 rfl (by omega),
      hshift (b.word 2) _ 2 rfl (by omega)]
    rfl
  · have h8 : s % 8 = 4 * 1 + s % 4 ∧ s / 8 = 1 := by omega
    rw [h, h8.1, h8.2, ← b.nibble_word 1 hk (by omega), ← b.crumb_word 2 hk (by omega)]
    show some (laneOf _ _).toNat = _
    rw [toNat_laneOf_unpack _ _ hk, hshift (b.word 1) _ 2 rfl (by omega),
      hshift (b.word 2) _ 3 rfl (by omega)]
    rfl

theorem number_lt (s : Nat) : b.number s < 64 := by
  have hn := nibble_lt (entry b.scales (s % 8)) (s / 8)
  have hc : crumb (entry b.scales (8 + s % 4)) (s / 4) < 4 := Nat.mod_lt _ (by decide)
  rw [number]
  omega

theorem scale_eq [F32 R] [Mul R] {s : Nat} (hs : s < 16) : b.scale s = (b.number s : Int) - 32 := by
  have hbyte := b.getElem?_scalesBytes hs
  have hlt := b.number_lt s
  cases hget : (b.scalesBytes)[s]? with
  | none =>
    rw [hget] at hbyte
    cases hbyte
  | some byte =>
    rw [hget] at hbyte
    have hnum : byte.toNat = b.number s := Option.some.inj hbyte
    have hint : byte.toInt8.toInt = (byte.toNat : Int) := by
      rw [← UInt8.ofNat_toNat (x := byte), UInt8.toInt8_ofNat', Int8.toInt_ofNat_of_lt (by omega),
        UInt8.ofNat_toNat]
    rw [scale, scalesI8, List.getElem?_map, hget]
    show byte.toInt8.toInt - 32 = _
    rw [hint, hnum]

end scales

/-! ## Values of the layout -/

/-- Value `i` of the block is `d` times `sc` times `q`, in every arithmetic. -/
def HasValue (bytes : List UInt8) (i : Nat) (sc q : Int) : Prop :=
  ∀ (R : Type) [F32 R] [Mul R] (b : BlockQ3K R) (out : List R),
    fromBytes bytes = .ok b → out.length = 256 →
      (b.dequantize out)[i]? = some (b.d * asF32 sc * asF32 q)

def hmaskByte (bytes : List UInt8) (k : Nat) : UInt8 := bytes.getD (0 + k) 0

def qsByte (bytes : List UInt8) (k : Nat) : UInt8 := bytes.getD (32 + k) 0

def scaleByte (bytes : List UInt8) (k : Nat) : UInt8 := bytes.getD (96 + k) 0

/-- The six-bit scale number `s`. -/
def scaleNumber (bytes : List UInt8) (s : Nat) : Nat :=
  nibble (scaleByte bytes (s % 8)) (s / 8) + 16 * crumb (scaleByte bytes (8 + s % 4)) (s / 4)

/-- The byte and the bit of `hmask` that belong to the value `16 * s + l`. -/
def hmaskPlace (s l : Nat) : Nat × Nat := (16 * (s % 2) + l, s / 2)

/-- The code of the value `16 * s + l`, with its offset taken off. -/
def code (bytes : List UInt8) (s l : Nat) : Int :=
  (crumb (qsByte bytes (32 * (s / 8) + 16 * (s % 2) + l)) (s / 2 % 4) : Int) -
    if bit (hmaskByte bytes (hmaskPlace s l).1) (hmaskPlace s l).2 = 1 then 0 else 4

def FollowsLayout (bytes : List UInt8) : Prop :=
  ∀ s < 16, ∀ l < 16, HasValue bytes (16 * s + l) ((scaleNumber bytes s : Int) - 32) (code bytes s l)

theorem toNat_shiftRight_and {c : Nat} (hc : c < 4) (byte : UInt8) :
    ((byte >>> UInt8.ofNat (2 * c)) &&& 3).toNat = crumb byte c := by
  have hshift : (UInt8.ofNat (2 * c)).toNat = 2 * c := by
    interval_cases c <;> rfl
  rw [UInt8.toNat_and, UInt8.toNat_shiftRight, hshift, Nat.mod_eq_of_lt (by omega),
    Nat.shiftRight_eq_div_pow, Nat.pow_mul]
  exact Nat.and_two_pow_sub_one_eq_mod _ 2

theorem entries {R : Type} [F32 R] {bytes : List UInt8} (hlen : 110 ≤ bytes.length)
    {b : BlockQ3K R} (h : fromBytes bytes = .ok b) :
    (∀ k < 32, entry b.hmask k = hmaskByte bytes k) ∧
      (∀ k < 64, entry b.qs k = qsByte bytes k) ∧
      ∀ k < 12, entry b.scales k = scaleByte bytes k := by
  rw [fromBytes_eq hlen] at h
  obtain rfl := Except.ok.inj h
  exact ⟨fun k hk => entry_arrayAt (by omega) hk, fun k hk => entry_arrayAt (by omega) hk,
    fun k hk => entry_arrayAt (by omega) hk⟩

/-- The decoder reads the codes of the layout and the scales of `scalePlace`. -/
theorem hasValue {bytes : List UInt8} (hlen : 110 ≤ bytes.length) {s l : Nat} (hs : s < 16)
    (hl : l < 16) :
    HasValue bytes (16 * s + l) ((scaleNumber bytes (scalePlace s) : Int) - 32)
      (code bytes s l) := by
  intro R _ _ b out hb hout
  obtain ⟨hhmask, hqs, hscales⟩ := entries hlen hb
  have hplace : scalePlace s < 16 := by
    rw [scalePlace]
    omega
  have hscale : b.scale (scalePlace s) = (scaleNumber bytes (scalePlace s) : Int) - 32 := by
    rw [b.scale_eq hplace, number, hscales _ (by omega), hscales _ (by omega)]
    rfl
  have hcode : b.quant s l = code bytes s l := by
    have hmask := and_mask_ne_zero (entry b.hmask (16 * (s % 2) + l)) (by omega : s / 2 < 8)
    rw [quant, mask, toNat_shiftRight_and (by omega), hqs _ (by omega), code, hmaskPlace,
      ← hhmask _ (by omega)]
    simp only [hmask]
  rw [b.getElem?_dequantize hout hs hl, value, hscale, hcode]

theorem hasValue_unique {bytes : List UInt8} (hlen : 110 ≤ bytes.length) {i : Nat}
    {sc q sc' q' : Int} (h : HasValue bytes i sc q) (h' : HasValue bytes i sc' q') :
    sc = sc' ∧ q = q' := by
  have hout : (List.replicate 256 Term.zero).length = 256 := List.length_replicate
  have hterm := (h Term _ _ (fromBytes_eq hlen) hout).symm.trans
    (h' Term _ _ (fromBytes_eq hlen) hout)
  injection hterm with hterm
  injection hterm with hleft hq
  injection hleft with _ hsc
  injection hsc with hsc
  injection hq with hq
  exact ⟨hsc, hq⟩

theorem followsLayout_iff_scales (block : Vector UInt8 110) :
    FollowsLayout block.toList ↔
      ∀ s < 16, scaleNumber block.toList (scalePlace s) = scaleNumber block.toList s := by
  have hlen : 110 ≤ block.toList.length := by rw [Vector.length_toList]
  constructor
  · intro hfollows s hs
    have hread := hasValue hlen hs (by omega : 0 < 16)
    have hsame := (hasValue_unique hlen hread (hfollows s hs 0 (by omega))).1
    omega
  · intro hsame s hs l hl
    have hread := hasValue hlen hs hl
    rwa [hsame s hs] at hread

/-- Every bit of `hmask` belongs to one value. -/
theorem hmaskPlace_unique {k j : Nat} (hk : k < 32) (hj : j < 8) :
    ∃! p : Nat × Nat, p.1 < 16 ∧ p.2 < 16 ∧ hmaskPlace p.1 p.2 = (k, j) := by
  refine ⟨(2 * j + k / 16, k % 16), ⟨?_, ?_, ?_⟩, ?_⟩
  · show 2 * j + k / 16 < 16
    omega
  · show k % 16 < 16
    omega
  · show (16 * ((2 * j + k / 16) % 2) + k % 16, (2 * j + k / 16) / 2) = (k, j)
    rw [Prod.mk.injEq]
    omega
  · rintro ⟨s, l⟩ ⟨hs, hl, hplace⟩
    change s < 16 at hs
    change l < 16 at hl
    change (16 * (s % 2) + l, s / 2) = (k, j) at hplace
    rw [Prod.mk.injEq] at hplace ⊢
    omega

/-- The decoder follows the layout on exactly the blocks in which the scales it takes are
those of the layout.  The codes are those of the layout in every block, and each bit of `hmask`
is in one of them. -/
theorem scales_followLayout_iff (block : Vector UInt8 110) :
    (FollowsLayout block.toList ↔
      ∀ s < 16, scaleNumber block.toList (s / 2 % 4 + 4 * (s % 2)) = scaleNumber block.toList s) ∧
    (∀ s < 16, ∀ l < 16, ∃ sc, HasValue block.toList (16 * s + l) sc (code block.toList s l)) ∧
    ∀ k < 32, ∀ j < 8, ∃! p : Nat × Nat, p.1 < 16 ∧ p.2 < 16 ∧ hmaskPlace p.1 p.2 = (k, j) := by
  refine ⟨followsLayout_iff_scales block, ?_, fun k hk j hj => hmaskPlace_unique hk hj⟩
  intro s hs l hl
  have hlen : 110 ≤ block.toList.length := by rw [Vector.length_toList]
  exact ⟨_, hasValue hlen hs hl⟩

/-- A block of zeros whose scale number 8 is one. -/
def oneScale : Vector UInt8 110 := Vector.ofFn fun i => if i.val = 96 then 16 else 0

/-- The values `128 .. 143` of the block are under scale number 0, and no value is under
scale number 8. -/
theorem oneScale_not_followsLayout :
    ¬FollowsLayout oneScale.toList ∧ scaleNumber oneScale.toList 8 = 1 ∧
      ∀ s < 16, ∀ l < 16, HasValue oneScale.toList (16 * s + l) (-32) (code oneScale.toList s l) := by
  have hlen : 110 ≤ oneScale.toList.length := by rw [Vector.length_toList]
  have hone : scaleNumber oneScale.toList 8 = 1 := by decide +kernel
  refine ⟨?_, hone, ?_⟩
  · intro hfollows
    have hsame := (followsLayout_iff_scales oneScale).mp hfollows 8 (by omega)
    rw [hone] at hsame
    exact absurd hsame (by decide +kernel)
  · have hzero : ∀ s < 16, scaleNumber oneScale.toList (scalePlace s) = 0 := by decide +kernel
    intro s hs l hl
    have hread := hasValue hlen hs hl
    rwa [hzero s hs] at hread

end BlockQ3K
end Quant
end Ramforge
