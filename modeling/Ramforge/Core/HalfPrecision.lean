/-
Half-precision numbers: what a two-byte pattern is, and what the decoders make of it.

The loop that normalizes a subnormal number counts from 0, where the exponent of the
first normal number is 1.
-/
import Ramforge.Core.QuantPacking
import Ramforge.Core.Tensor
import Ramforge.Rust.BinaryFloat

namespace Ramforge

open Rust Rust.FloatValue

/-- `f32::from_bits`, with the infinities and the patterns that are no number. -/
instance : F32 FloatValue := ⟨fun bits => ofBits 23 8 bits.toNat, fun value => .finite (value < 0) |value|⟩

namespace Half

open Quant

/-- The number of a binary16 pattern. -/
def value (bits : UInt16) : FloatValue := ofBits 10 5 bits.toNat

def sign (bits : UInt16) : Nat := bits.toNat / 2 ^ 15

def exponent (bits : UInt16) : Nat := bits.toNat / 2 ^ 10 % 2 ^ 5

def fraction (bits : UInt16) : Nat := bits.toNat % 2 ^ 10

/-- Too small for a normal number, and not zero. -/
def Subnormal (bits : UInt16) : Prop := exponent bits = 0 ∧ fraction bits ≠ 0

instance (bits : UInt16) : Decidable (Subnormal bits) := inferInstanceAs (Decidable (_ ∧ _))

variable (bits : UInt16)

theorem sign_lt : sign bits < 2 := by
  have := bits.toNat_lt
  unfold sign
  omega

theorem exponent_lt : exponent bits < 2 ^ 5 := Nat.mod_lt _ (by decide)

theorem fraction_lt : fraction bits < 2 ^ 10 := Nat.mod_lt _ (by decide)

theorem toNat_eq : bits.toNat = (sign bits * 2 ^ 5 + exponent bits) * 2 ^ 10 + fraction bits := by
  unfold sign exponent fraction
  omega

theorem value_eq :
    value bits = ofFields 10 5 (decide (sign bits = 1)) (exponent bits) (fraction bits) :=
  ofBits_of_fields (toNat_eq bits) (sign_lt bits) (exponent_lt bits) (fraction_lt bits)

theorem toNat_sign : ((bits >>> 15) &&& 1).toUInt32.toNat = sign bits := by
  have := sign_lt bits
  rw [UInt16.toNat_toUInt32, UInt16.toNat_and, UInt16.toNat_shiftRight]
  show bits.toNat >>> 15 &&& 1 = sign bits
  rw [Nat.and_one_is_mod, Nat.shiftRight_eq_div_pow]
  exact Nat.mod_eq_of_lt this

theorem toNat_exponent : ((bits >>> 10) &&& 0x1F).toUInt32.toNat = exponent bits := by
  rw [UInt16.toNat_toUInt32, UInt16.toNat_and, UInt16.toNat_shiftRight]
  show bits.toNat >>> 10 &&& 2 ^ 5 - 1 = exponent bits
  rw [Nat.and_two_pow_sub_one_eq_mod, Nat.shiftRight_eq_div_pow]
  rfl

theorem toNat_fraction : (bits &&& 0x3FF).toUInt32.toNat = fraction bits := by
  rw [UInt16.toNat_toUInt32, UInt16.toNat_and]
  show bits.toNat &&& 2 ^ 10 - 1 = fraction bits
  rw [Nat.and_two_pow_sub_one_eq_mod]
  rfl

/-! ## The pattern of a single-precision number -/

theorem toNat_shiftLeft {x : UInt32} {k : UInt32} (hk : k.toNat < 32)
    (h : x.toNat * 2 ^ k.toNat < 2 ^ 32) : (x <<< k).toNat = x.toNat * 2 ^ k.toNat := by
  rw [UInt32.toNat_shiftLeft, Nat.mod_eq_of_lt hk, Nat.shiftLeft_eq, Nat.mod_eq_of_lt h]

/-- The three fields do not meet. -/
theorem toNat_fields {s e f : UInt32} (hs : s.toNat < 2) (he : e.toNat < 2 ^ 8)
    (hf : f.toNat < 2 ^ 10) :
    ((s <<< 31) ||| (e <<< 23) ||| (f <<< 13)).toNat =
      (s.toNat * 2 ^ 8 + e.toNat) * 2 ^ 23 + f.toNat * 2 ^ 13 := by
  have hsign : (s <<< 31).toNat = s.toNat * 2 ^ 31 := toNat_shiftLeft (by decide) (by
    show s.toNat * 2 ^ 31 < 2 ^ 32
    omega)
  have hexponent : (e <<< 23).toNat = e.toNat * 2 ^ 23 := toNat_shiftLeft (by decide) (by
    show e.toNat * 2 ^ 23 < 2 ^ 32
    omega)
  have hfraction : (f <<< 13).toNat = f.toNat * 2 ^ 13 := toNat_shiftLeft (by decide) (by
    show f.toNat * 2 ^ 13 < 2 ^ 32
    omega)
  have hhigh : s.toNat * 2 ^ 31 ||| e.toNat * 2 ^ 23 = (s.toNat * 2 ^ 8 + e.toNat) * 2 ^ 23 := by
    rw [← Nat.shiftLeft_eq, ← Nat.shiftLeft_add_eq_or_of_lt (by omega), Nat.shiftLeft_eq]
    ring
  have hlow : (s.toNat * 2 ^ 8 + e.toNat) * 2 ^ 23 ||| f.toNat * 2 ^ 13 =
      (s.toNat * 2 ^ 8 + e.toNat) * 2 ^ 23 + f.toNat * 2 ^ 13 := by
    rw [← Nat.shiftLeft_eq _ 23, ← Nat.shiftLeft_add_eq_or_of_lt (by omega)]
  rw [UInt32.toNat_or, UInt32.toNat_or, hsign, hexponent, hfraction, hhigh, hlow]

/-- The single-precision number of the fields that the decoder puts together. -/
theorem single_fields {s e f : UInt32} (hs : s.toNat < 2) (he : e.toNat < 2 ^ 8)
    (hf : f.toNat < 2 ^ 10) :
    (F32.fromBits ((s <<< 31) ||| (e <<< 23) ||| (f <<< 13)) : FloatValue) =
      ofFields 23 8 (decide (s.toNat = 1)) e.toNat (f.toNat * 2 ^ 13) :=
  ofBits_of_fields (toNat_fields hs he hf) hs he (by omega)

/-! ## Subnormal numbers -/

theorem and_hidden {f : UInt32} (hf : f.toNat < 2 ^ 11) : f &&& 0x400 = 0 ↔ f.toNat < 2 ^ 10 := by
  rw [← UInt32.toNat_inj, UInt32.toNat_and]
  show f.toNat &&& 2 ^ 10 = 0 ↔ _
  rw [Nat.and_two_pow, Nat.toNat_testBit, Nat.mul_eq_zero]
  omega

/-- The rounds shift the fraction until its first bit is the hidden one. -/
theorem normalizeFrac_eq (n : Nat) {f e : UInt32} (hf : f.toNat < 2 ^ 11)
    (hn : 2 ^ 10 ≤ f.toNat * 2 ^ n) (he : e.toNat + n < 2 ^ 32) :
    ∃ k ≤ n, (normalizeFrac n f e).1.toNat = f.toNat * 2 ^ k ∧
      (normalizeFrac n f e).2.toNat = e.toNat + k ∧
      2 ^ 10 ≤ f.toNat * 2 ^ k ∧ f.toNat * 2 ^ k < 2 ^ 11 := by
  induction n generalizing f e with
  | zero => exact ⟨0, Nat.le_refl 0, (Nat.mul_one _).symm, rfl, hn, by omega⟩
  | succ n ih =>
    rw [normalizeFrac]
    by_cases hhidden : f &&& 0x400 = 0
    · have hlow := (and_hidden hf).mp hhidden
      have hshift : (f <<< 1).toNat = f.toNat * 2 := toNat_shiftLeft (by decide) (by
        show f.toNat * 2 ^ 1 < 2 ^ 32
        omega)
      have hcount : (e + 1).toNat = e.toNat + 1 := by
        rw [UInt32.toNat_add]
        exact Nat.mod_eq_of_lt (by show e.toNat + 1 < 2 ^ 32; omega)
      have hpow : ∀ j, f.toNat * 2 * 2 ^ j = f.toNat * 2 ^ (j + 1) := fun j => by ring
      obtain ⟨k, hk, hfirst, hsecond, hge, hlt⟩ := ih (f := f <<< 1) (e := e + 1) (by omega)
        (by rw [hshift, hpow]; exact hn) (by omega)
      rw [hshift, hpow] at hfirst hge hlt
      rw [if_pos hhidden]
      exact ⟨k + 1, by omega, hfirst, by omega, hge, hlt⟩
    · have hhigh := mt (and_hidden hf).mpr hhidden
      rw [if_neg hhidden]
      exact ⟨0, Nat.zero_le _, (Nat.mul_one _).symm, rfl, by omega, by omega⟩

theorem bias_half : bias 5 + 10 = 25 := rfl

theorem bias_single : bias 8 + 23 = 150 := rfl

theorem scaled_eq (m : ℕ) : ((m * 2 ^ 125 : ℕ) : ℚ) / 2 ^ 150 = m / 2 ^ 25 := by
  rw [Nat.cast_mul, Nat.cast_pow, Nat.cast_ofNat, div_eq_div_iff (by positivity) (by positivity)]
  ring

/-- A subnormal number is decoded to its half. -/
theorem decoded_subnormal (h : Subnormal bits) :
    (f16ToF32 bits : FloatValue) =
      .finite (decide (sign bits = 1)) (fraction bits / 2 ^ 25) := by
  obtain ⟨hexponent, hfraction⟩ := h
  have hlt := fraction_lt bits
  have hexp : ((bits >>> 10) &&& 0x1F).toUInt32 = 0 := by
    rw [← UInt32.toNat_inj, toNat_exponent]
    exact hexponent
  have hfrac : ((bits &&& 0x3FF).toUInt32) ≠ 0 := by
    rw [Ne, ← UInt32.toNat_inj, toNat_fraction]
    exact hfraction
  obtain ⟨k, hk, hf, he, hge, hle⟩ := normalizeFrac_eq 10 (f := (bits &&& 0x3FF).toUInt32) (e := 0)
    (by rw [toNat_fraction]; omega) (by rw [toNat_fraction]; omega) (by decide)
  rw [toNat_fraction] at hf hge hle
  have hlow : ((normalizeFrac 10 (bits &&& 0x3FF).toUInt32 0).1 &&& 0x3FF).toNat =
      fraction bits * 2 ^ k - 2 ^ 10 := by
    rw [UInt32.toNat_and, hf]
    show fraction bits * 2 ^ k &&& 2 ^ 10 - 1 = _
    rw [Nat.and_two_pow_sub_one_eq_mod]
    omega
  have hcount : (127 - 15 - (normalizeFrac 10 (bits &&& 0x3FF).toUInt32 0).2).toNat = 112 - k := by
    have he : (normalizeFrac 10 (bits &&& 0x3FF).toUInt32 0).2.toNat = k := by
      rw [he]
      exact Nat.zero_add k
    have hle : (normalizeFrac 10 (bits &&& 0x3FF).toUInt32 0).2 ≤ (112 : UInt32) := by
      rw [UInt32.le_iff_toNat_le, he]
      exact Nat.le_trans hk (by decide)
    show (112 - (normalizeFrac 10 (bits &&& 0x3FF).toUInt32 0).2).toNat = _
    rw [UInt32.toNat_sub_of_le _ _ hle, he]
    rfl
  have hmagnitude : (2 ^ 23 + (fraction bits * 2 ^ k - 2 ^ 10) * 2 ^ 13) * 2 ^ (112 - k) =
      fraction bits * 2 ^ 125 := by
    have hsum : 2 ^ 23 + (fraction bits * 2 ^ k - 2 ^ 10) * 2 ^ 13 = fraction bits * 2 ^ k * 2 ^ 13 := by
      omega
    calc (2 ^ 23 + (fraction bits * 2 ^ k - 2 ^ 10) * 2 ^ 13) * 2 ^ (112 - k)
        = fraction bits * 2 ^ (k + 13 + (112 - k)) := by
          rw [hsum, pow_add, pow_add]
          ring
      _ = fraction bits * 2 ^ 125 := by
          have : k + 13 + (112 - k) = 125 := by omega
          rw [this]
  rw [f16ToF32, f16ToF32Bits]
  simp only [hexp, if_true, if_neg hfrac]
  rw [single_fields (by rw [toNat_sign]; exact sign_lt bits) (by rw [hcount]; omega)
    (by rw [hlow]; omega), hcount, hlow, toNat_sign, ofFields_normal _ (by omega) (by omega), hmagnitude,
    bias_single]
  exact congrArg (FloatValue.finite _) (scaled_eq _)

/-! ## The other numbers -/

theorem exponent_eq_zero : ((bits >>> 10) &&& 0x1F).toUInt32 = 0 ↔ exponent bits = 0 := by
  rw [← UInt32.toNat_inj, toNat_exponent]
  rfl

theorem exponent_eq_max : ((bits >>> 10) &&& 0x1F).toUInt32 = 0x1F ↔ exponent bits = 31 := by
  rw [← UInt32.toNat_inj, toNat_exponent]
  rfl

theorem fraction_eq_zero : (bits &&& 0x3FF).toUInt32 = 0 ↔ fraction bits = 0 := by
  rw [← UInt32.toNat_inj, toNat_fraction]
  rfl

theorem decoded_zero (hexponent : exponent bits = 0) (hfraction : fraction bits = 0) :
    (f16ToF32 bits : FloatValue) = .finite (decide (sign bits = 1)) 0 := by
  have hsign : ((bits >>> 15) &&& 1).toUInt32.toNat < 2 := by
    rw [toNat_sign]
    exact sign_lt bits
  have hfields := single_fields (e := 0) (f := 0) hsign (by decide) (by decide)
  rw [UInt32.zero_shiftLeft, UInt32.zero_shiftLeft, UInt32.or_zero, UInt32.or_zero, toNat_sign] at hfields
  rw [f16ToF32, f16ToF32Bits]
  simp only [(exponent_eq_zero bits).mpr hexponent, (fraction_eq_zero bits).mpr hfraction, if_true]
  rw [hfields, ofFields, if_neg (by decide), if_pos (by decide)]
  norm_num

theorem decoded_max (hexponent : exponent bits = 31) :
    (f16ToF32 bits : FloatValue) =
      if fraction bits = 0 then .infinity (decide (sign bits = 1)) else .nan := by
  have hzero := mt (exponent_eq_zero bits).mp (by omega)
  have hmax := (exponent_eq_max bits).mpr hexponent
  rw [f16ToF32, f16ToF32Bits]
  dsimp only
  rw [if_neg hzero, if_pos hmax, single_fields (by rw [toNat_sign]; exact sign_lt bits) (by decide)
    (by rw [toNat_fraction]; exact fraction_lt bits), toNat_sign, toNat_fraction, ofFields,
    if_pos (by decide)]
  simp

theorem decoded_normal (hpos : exponent bits ≠ 0) (hlt : exponent bits ≠ 31) :
    (f16ToF32 bits : FloatValue) =
      .finite (decide (sign bits = 1)) (((2 ^ 10 + fraction bits) * 2 ^ exponent bits : ℕ) / 2 ^ 25) := by
  have hle := exponent_lt bits
  have hexponent : (((bits >>> 10) &&& 0x1F).toUInt32 + (127 - 15)).toNat = exponent bits + 112 := by
    rw [UInt32.toNat_add, toNat_exponent]
    exact Nat.mod_eq_of_lt (by show exponent bits + 112 < 2 ^ 32; omega)
  rw [f16ToF32, f16ToF32Bits]
  dsimp only
  rw [if_neg (mt (exponent_eq_zero bits).mp hpos), if_neg (mt (exponent_eq_max bits).mp hlt),
    single_fields (by rw [toNat_sign]; exact sign_lt bits) (by rw [hexponent]; omega)
    (by rw [toNat_fraction]; exact fraction_lt bits), hexponent, toNat_sign, toNat_fraction,
    ofFields_normal _ (by omega) (by omega), bias_single]
  have hscale : (2 ^ 23 + fraction bits * 2 ^ 13) * 2 ^ (exponent bits + 112) =
      (2 ^ 10 + fraction bits) * 2 ^ exponent bits * 2 ^ 125 := by
    rw [pow_add]
    ring
  rw [hscale, scaled_eq]

/-- A pattern is decoded to its number, but for the subnormal ones. -/
theorem decoded_iff : (f16ToF32 bits : FloatValue) = value bits ↔ ¬Subnormal bits := by
  have hbound : 2 ^ 5 - 1 = 31 := rfl
  rw [value_eq, ofFields, hbound]
  by_cases hzero : exponent bits = 0
  · rw [if_neg (by omega), if_pos hzero, bias_half]
    by_cases hfraction : fraction bits = 0
    · rw [decoded_zero bits hzero hfraction, hfraction]
      exact iff_of_true (by norm_num) fun h => h.2 hfraction
    · rw [decoded_subnormal bits ⟨hzero, hfraction⟩]
      refine iff_of_false (fun h => hfraction ?_) (not_not.mpr ⟨hzero, hfraction⟩)
      have hhalf := (FloatValue.finite.inj h).2
      rw [div_left_inj' (by positivity)] at hhalf
      have : fraction bits = 2 * fraction bits := by exact_mod_cast hhalf
      omega
  · by_cases hmax : exponent bits = 31
    · rw [decoded_max bits hmax, if_pos hmax]
      exact iff_of_true rfl fun h => hzero h.1
    · rw [decoded_normal bits hzero hmax, if_neg hmax, if_neg hzero, bias_half]
      exact iff_of_true (by push_cast; rfl) fun h => hzero h.1

/-! ## Decoders -/

/-- `f16_to_f32` of the tensors, a copy of the one of the blocks. -/
def tensorF16ToF32Bits (bits : UInt16) : UInt32 :=
  let sign := ((bits >>> 15) &&& 1).toUInt32
  let exp := ((bits >>> 10) &&& 0x1F).toUInt32
  let frac := (bits &&& 0x3FF).toUInt32
  if exp = 0 then
    if frac = 0 then sign <<< 31
    else
      let fe := normalizeFrac 10 frac 0
      let f := fe.1 &&& 0x3FF
      let exp := 127 - 15 - fe.2
      (sign <<< 31) ||| (exp <<< 23) ||| (f <<< 13)
  else if exp = 0x1F then (sign <<< 31) ||| ((0xFF : UInt32) <<< 23) ||| (frac <<< 13)
  else
    let exp := exp + (127 - 15)
    (sign <<< 31) ||| (exp <<< 23) ||| (frac <<< 13)

def wordAt (bytes : List UInt8) (place : Nat) : UInt16 :=
  u16FromLe [bytes.getD place 0, bytes.getD (place + 1) 0]

section decoders

variable [Zero FloatValue] [Sub FloatValue] [Mul FloatValue]

/-- A decoder makes `values` of the patterns at `places`. -/
inductive Decodes (bytes : List UInt8) : List Nat → List FloatValue → Prop
  | tensor (numElements : Nat) (values : List FloatValue) :
    decodeF16 bytes numElements = .ok values →
    Decodes bytes ((List.range numElements).map (2 * ·)) values
  | row (numElements : Nat) (out values : List FloatValue) :
    decodeRowToF32 .f16 bytes numElements out = (.ok (), values) →
    Decodes bytes ((List.range numElements).map (2 * ·)) values
  | q4_0 (b : BlockQ4_0 FloatValue) : BlockQ4_0.fromBytes bytes = .ok b → Decodes bytes [0] [b.d]
  | q5_0 (b : BlockQ5_0 FloatValue) : BlockQ5_0.fromBytes bytes = .ok b → Decodes bytes [0] [b.d]
  | q8_0 (b : BlockQ8_0 FloatValue) : BlockQ8_0.fromBytes bytes = .ok b → Decodes bytes [0] [b.d]
  | q4_K (b : BlockQ4K FloatValue) :
    BlockQ4K.fromBytes bytes = .ok b → Decodes bytes [0, 2] [b.d, b.dmin]
  | q5_K (b : BlockQ5K FloatValue) :
    BlockQ5K.fromBytes bytes = .ok b → Decodes bytes [0, 2] [b.d, b.dmin]
  | q6_K (b : BlockQ6K FloatValue) : BlockQ6K.fromBytes bytes = .ok b → Decodes bytes [208] [b.d]
  | q2_K (b : BlockQ2K FloatValue) :
    BlockQ2K.fromBytes bytes = .ok b → Decodes bytes [80, 82] [b.d, b.dmin]
  | q3_K (b : BlockQ3K FloatValue) : BlockQ3K.fromBytes bytes = .ok b → Decodes bytes [108] [b.d]

omit [Zero FloatValue] [Sub FloatValue] [Mul FloatValue] in
theorem take_two_drop {bytes : List UInt8} {place : Nat} (h : place + 2 ≤ bytes.length) :
    u16FromLe ((bytes.drop place).take 2) = wordAt bytes place := by
  rw [drop_take_two h, wordAt]

omit [Zero FloatValue] [Sub FloatValue] [Mul FloatValue] in
/-- A scale that a block takes from two of its bytes. -/
theorem of_readF16Le {β : Type} {bytes : List UInt8} {k : FloatValue → Except DataSourceError β} {b : β}
    (place : Nat) (hplace : place + 2 ≤ bytes.length)
    (h : (readF16Le ((bytes.drop place).take 2) >>= k) = .ok b) :
    k (f16ToF32 (wordAt bytes place)) = .ok b := by
  rw [readF16Le_at hplace] at h
  exact h

omit [Zero FloatValue] [Sub FloatValue] [Mul FloatValue] in
theorem elements_f16 {bytes : List UInt8} {n : Nat} (h : n * 2 ≤ bytes.length) :
    (FloatFormat.f16 : FloatFormat FloatValue).elements bytes n =
      ((List.range n).map (2 * ·)).map fun place => f16ToF32 (wordAt bytes place) := by
  rw [FloatFormat.elements, List.map_map]
  refine List.map_congr_left fun i hi => ?_
  have hlt := List.mem_range.mp hi
  show f16ToF32 (u16FromLe ((bytes.drop (i * 2)).take 2)) = f16ToF32 (wordAt bytes (2 * i))
  rw [take_two_drop (by omega), Nat.mul_comm]

omit [Zero FloatValue] [Sub FloatValue] [Mul FloatValue] in
/-- The loop over a row stores the elements one after another. -/
theorem decodeFloatRow_f16 {label : String} {bytes : List UInt8} {n : Nat} {out values : List FloatValue}
    (hout : out.length = n)
    (h : decodeFloatRow label .f16 bytes n out = (.ok (), values)) :
    n * 2 ≤ bytes.length ∧ values = (FloatFormat.f16 : FloatFormat FloatValue).elements bytes n := by
  rw [decodeFloatRow] at h
  obtain ⟨need, hneed, h⟩ := Exec.of_okOr_bind_ok h
  obtain ⟨hlength, hloop⟩ := Exec.of_failIf_bind_ok h
  obtain ⟨-, rfl⟩ := checkedMul_eq_some.mp hneed
  refine ⟨Nat.le_of_not_lt hlength, ?_⟩
  have hrun := Exec.forRange_run (ε := DataSourceError) (n := n)
    (f := fun i _ => Exec.store i ((FloatFormat.f16 : FloatFormat FloatValue).decode (Rows.row 2 bytes i)))
    (fun _ => ()) (filled (fun i => FloatFormat.f16.decode (Rows.row 2 bytes i)) out) fun i hi => by
      have hi' : i < out.length := hout ▸ hi
      rw [Exec.store, if_pos, set_filled hi']
      rw [filled, List.length_append, List.length_map, List.length_range, List.length_drop]
      omega
  rw [filled_zero, filled_of_length hout] at hrun
  exact congrArg Prod.snd (hloop.symm.trans hrun)

omit [Zero FloatValue] [Sub FloatValue] [Mul FloatValue] in
theorem decodeF16_eq {bytes : List UInt8} {n : Nat} {values : List FloatValue}
    (h : decodeF16 bytes n = .ok values) :
    n * 2 ≤ bytes.length ∧ values = (FloatFormat.f16 : FloatFormat FloatValue).elements bytes n := by
  rw [decodeF16, decodeFloat] at h
  split at h
  next => cases h
  next expected hexpected =>
    obtain ⟨-, rfl⟩ := checkedMul_eq_some.mp hexpected
    split at h
    next => cases h
    next hlength =>
      cases h
      exact ⟨Nat.le_of_not_lt hlength, rfl⟩

/-- What a decoder makes is the code's number of each of its patterns. -/
theorem Decodes.values_eq {bytes : List UInt8} {places : List Nat} {values : List FloatValue}
    (h : Decodes bytes places values) :
    values = places.map fun place => f16ToF32 (wordAt bytes place) := by
  cases h with
  | tensor n values hdecode =>
    obtain ⟨hlength, rfl⟩ := decodeF16_eq hdecode
    exact elements_f16 hlength
  | row n out values hdecode =>
    rw [decodeRowToF32, Exec.self_bind_run] at hdecode
    obtain ⟨hout, hrow⟩ := Exec.of_failIf_bind_ok hdecode
    obtain ⟨hlength, rfl⟩ := decodeFloatRow_f16 (not_not.mp hout) hrow
    exact elements_f16 hlength
  | q4_0 b hblock =>
    rw [BlockQ4_0.fromBytes] at hblock
    split at hblock
    next => cases hblock
    next hlength =>
      cases of_readF16Le 0 (by omega) hblock
      rfl
  | q5_0 b hblock =>
    rw [BlockQ5_0.fromBytes] at hblock
    split at hblock
    next => cases hblock
    next hlength =>
      cases of_readF16Le 0 (by omega) hblock
      rfl
  | q8_0 b hblock =>
    rw [BlockQ8_0.fromBytes] at hblock
    split at hblock
    next => cases hblock
    next hlength =>
      cases of_readF16Le 0 (by omega) hblock
      rfl
  | q4_K b hblock =>
    rw [BlockQ4K.fromBytes] at hblock
    split at hblock
    next => cases hblock
    next hlength =>
      cases of_readF16Le 2 (by omega) (of_readF16Le 0 (by omega) hblock)
      rfl
  | q5_K b hblock =>
    rw [BlockQ5K.fromBytes] at hblock
    split at hblock
    next => cases hblock
    next hlength =>
      cases of_readF16Le 2 (by omega) (of_readF16Le 0 (by omega) hblock)
      rfl
  | q6_K b hblock =>
    rw [BlockQ6K.fromBytes] at hblock
    split at hblock
    next => cases hblock
    next hlength =>
      have hd := of_readF16Le (192 + 16) (by omega) hblock
      rw [← Except.ok.inj hd]
      rfl
  | q2_K b hblock =>
    rw [BlockQ2K.fromBytes] at hblock
    split at hblock
    next => cases hblock
    next hlength =>
      have hd := of_readF16Le 82 (by omega) (of_readF16Le 80 (by omega) hblock)
      rw [← Except.ok.inj hd]
      rfl
  | q3_K b hblock =>
    rw [BlockQ3K.fromBytes] at hblock
    split at hblock
    next => cases hblock
    next hlength =>
      have hd := of_readF16Le 108 (by omega) hblock
      rw [← Except.ok.inj hd]
      rfl

/-- The two copies agree, and what they make of a buffer is exact where none of its patterns
is subnormal. -/
theorem decodes_exact_iff {bytes : List UInt8} {places : List Nat} {values : List FloatValue}
    (h : Decodes bytes places values) :
    ((∀ bits, tensorF16ToF32Bits bits = f16ToF32Bits bits) ∧
      values = places.map fun place => value (wordAt bytes place)) ↔
    ∀ place ∈ places, ¬Subnormal (wordAt bytes place) := by
  have hcopies : ∀ bits, tensorF16ToF32Bits bits = f16ToF32Bits bits := fun _ => rfl
  rw [h.values_eq, List.map_inj_left, and_iff_right hcopies]
  exact forall₂_congr fun place _ => decoded_iff (wordAt bytes place)

end decoders

theorem decodes_exact_one :
    ((∀ bits, tensorF16ToF32Bits bits = f16ToF32Bits bits) ∧
      [(f16ToF32 0x3C00 : FloatValue)] = [0].map fun place => value (wordAt [0x00, 0x3C] place)) ↔
    ∀ place ∈ [0], ¬Subnormal (wordAt [0x00, 0x3C] place) := by
  let zero : Zero FloatValue := ⟨.finite false 0⟩
  let sub : Sub FloatValue := ⟨fun _ _ => .nan⟩
  let mul : Mul FloatValue := ⟨fun _ _ => .nan⟩
  exact decodes_exact_iff (.tensor 1 _ rfl)

/-- The smallest subnormal number is decoded to its half. -/
theorem smallest_halved :
    (decodeF16 [0x01, 0x00] 1 : Except DataSourceError (List FloatValue)) =
        .ok [.finite false (1 / 2 ^ 25)] ∧
      value 0x0001 = .finite false (1 / 2 ^ 24) := by
  have hdecoded : (decodeF16 [0x01, 0x00] 1 : Except DataSourceError (List FloatValue)) =
      .ok [f16ToF32 0x0001] := rfl
  have hsign : sign 0x0001 = 0 := by decide
  have hfraction : fraction 0x0001 = 1 := by decide
  refine ⟨?_, ?_⟩
  · rw [hdecoded, decoded_subnormal 0x0001 (by decide)]
    norm_num [hsign, hfraction]
  · rw [value_eq, ofFields, if_neg (by decide), if_pos (by decide)]
    norm_num [hsign, hfraction, bias]

end Half
end Ramforge
