/-
The layouts of Q4_K and Q2_K, whose sub-blocks have a minimum next to their scale, and the
row decoders on packed blocks of every layout.
-/
import Ramforge.Core.QuantLayouts

namespace Ramforge
namespace Quant

open Rust

/-! ## Q4_K -/

namespace BlockQ4K

section decode

variable {R : Type} [F32 R]

/-- The fields of the block in `bytes`. -/
structure Reads (b : BlockQ4K R) (bytes : List UInt8) : Prop where
  d : b.d = f16ToF32 (u16FromLe [bytes.getD 0 0, bytes.getD 1 0])
  dmin : b.dmin = f16ToF32 (u16FromLe [bytes.getD 2 0, bytes.getD 3 0])
  scales : ∀ k < 12, entry b.scales k = bytes.getD (4 + k) 0
  qs : ∀ k < 128, entry b.qs k = bytes.getD (16 + k) 0

theorem fromBytes_reads {bytes : List UInt8} (h : 144 ≤ bytes.length) :
    ∃ b : BlockQ4K R, fromBytes bytes = .ok b ∧ Reads b bytes := by
  have hd : (readF16Le (bytes.take 2) : Except DataSourceError R) = _ :=
    readF16Le_at (by omega : 0 + 2 ≤ bytes.length)
  refine ⟨{ d := f16ToF32 (u16FromLe [bytes.getD 0 0, bytes.getD 1 0]),
            dmin := f16ToF32 (u16FromLe [bytes.getD 2 0, bytes.getD 3 0]),
            scales := arrayAt bytes 4 12 (by omega), qs := arrayAt bytes 16 128 (by omega) }, ?_, ?_⟩
  · rw [fromBytes, dif_neg (by omega), hd, readF16Le_at (by omega)]
    rfl
  · exact ⟨rfl, rfl, fun k hk => entry_arrayAt (by omega) hk, fun k hk => entry_arrayAt (by omega) hk⟩

variable [Mul R] [Sub R] (b : BlockQ4K R)

/-- The value of lane `l` in half `h` of group `g`. -/
def value (g h l : Nat) : R :=
  b.d * asF32 (b.getScaleMin (2 * g + h)).1.toNat * asF32 (nibble (entry b.qs (32 * g + l)) h) -
    b.dmin * asF32 (b.getScaleMin (2 * g + h)).2.toNat

structure After (g : Nat) (c : Cursor R) : Prop where
  length : c.out.length = 256
  yIdx : c.yIdx = 64 * g
  is : c.is = 2 * g
  qOffset : c.qOffset = 32 * g
  written : ∀ i < g, ∀ h < 2, ∀ l < 32, c.out[64 * i + 32 * h + l]? = some (b.value i h l)

theorem after_group {g : Nat} (hg : g < 4) {c : Cursor R} (hc : After b g c) :
    After b (g + 1) (b.group c) := by
  refine ⟨?_, ?_, ?_, ?_, ?_⟩
  · simp only [group, length_forRange_set, hc.length]
  · simp only [group, hc.yIdx]
    omega
  · simp only [group, hc.is]
    omega
  · simp only [group, hc.qOffset]
    omega
  · intro i hi h hh l hl
    simp only [group, getElem?_forRange_set, length_forRange_set, hc.yIdx, hc.is, hc.qOffset, hc.length,
      toNat_and_low, toNat_shiftRight_four]
    rcases Nat.lt_succ_iff_lt_or_eq.mp hi with hlt | rfl
    · rw [if_neg (by omega), if_neg (by omega), hc.written i hlt h hh l hl]
    · rcases (by omega : h = 0 ∨ h = 1) with rfl | rfl
      · have hplace : 64 * i + 32 * 0 + l - 64 * i = l := by omega
        rw [if_neg (by omega), if_pos (by omega), hplace]
        rfl
      · rw [Nat.mul_one, if_pos (by omega), Nat.add_sub_cancel_left]
        rfl

theorem decode_eq {bytes : List UInt8} (hb : 144 ≤ bytes.length) {out : List R}
    (hout : out.length = 256) :
    ∃ (b : BlockQ4K R) (deq : List R), Reads b bytes ∧ Format.q4K.decode bytes out = .ok deq ∧
      deq.length = 256 ∧
      ∀ g < 4, ∀ h < 2, ∀ l < 32, deq[64 * g + 32 * h + l]? = some (b.value g h l) := by
  obtain ⟨b, hfrom, hreads⟩ := fromBytes_reads (R := R) hb
  have hstart : After b 0 { out, yIdx := 0, is := 0, qOffset := 0 } :=
    ⟨hout, rfl, rfl, rfl, fun _ hi => absurd hi (Nat.not_lt_zero _)⟩
  have hend := forRange_rule (n := 4) hstart fun _ hg _ => after_group b hg
  exact ⟨b, _, hreads, congrArg (Except.map _) hfrom, hend.length, hend.written⟩

end decode

structure Parts where
  d : UInt16
  dmin : UInt16
  scales : Fin 8 → Fin 64
  mins : Fin 8 → Fin 64
  codes : Fin 256 → Fin 16

/-- The twelve bytes of the scales and minima.  The first four of each stand in the low six
bits of a byte, the last four in a half of a byte and two bits above an earlier one. -/
def scaleByte (p : Parts) (k : Nat) : UInt8 :=
  if k < 4 then UInt8.ofNat (codeAt p.scales k + 64 * (codeAt p.scales (k + 4) / 16))
  else if k < 8 then UInt8.ofNat (codeAt p.mins (k - 4) + 64 * (codeAt p.mins k / 16))
  else UInt8.ofNat (codeAt p.scales (k - 4) % 16 + 16 * (codeAt p.mins (k - 4) % 16))

/-- The scale, the scale of the minima, their codes, and the low halves and high halves of two
codes that are 32 places apart. -/
def byte (p : Parts) (k : Nat) : UInt8 :=
  if k < 2 then byteOf p.d.toNat k
  else if k < 4 then byteOf p.dmin.toNat (k - 2)
  else if k < 16 then scaleByte p (k - 4)
  else
    let first := 64 * ((k - 16) / 32) + (k - 16) % 32
    UInt8.ofNat (codeAt p.codes first + 16 * codeAt p.codes (first + 32))

def packing : Packing Parts where
  format := .q4K
  byte := byte
  value p e := f16ToF32 p.d * (codeAt p.scales (e / 32) : ℚ) * (codeAt p.codes e : ℚ) -
    f16ToF32 p.dmin * (codeAt p.mins (e / 32) : ℚ)

theorem getD_pack (p : Parts) {k : Nat} (hk : k < 144) : (packing.pack p).getD k 0 = byte p k :=
  packing.getD_pack p hk

theorem reads_d (p : Parts) {b : BlockQ4K ℚ} (h : Reads b (packing.pack p)) : b.d = f16ToF32 p.d := by
  rw [h.d, getD_pack p (by decide), getD_pack p (by decide)]
  show f16ToF32 (u16FromLe [byteOf p.d.toNat 0, byteOf p.d.toNat 1]) = _
  rw [u16FromLe_byteOf]

theorem reads_dmin (p : Parts) {b : BlockQ4K ℚ} (h : Reads b (packing.pack p)) :
    b.dmin = f16ToF32 p.dmin := by
  rw [h.dmin, getD_pack p (by decide), getD_pack p (by decide)]
  show f16ToF32 (u16FromLe [byteOf p.dmin.toNat 0, byteOf p.dmin.toNat 1]) = _
  rw [u16FromLe_byteOf]

theorem reads_scales (p : Parts) {b : BlockQ4K ℚ} (h : Reads b (packing.pack p)) {k : Nat} (hk : k < 12) :
    entry b.scales k = scaleByte p k := by
  rw [h.scales k hk, getD_pack p (by omega), byte, if_neg (by omega), if_neg (by omega),
    if_pos (by omega), Nat.add_sub_cancel_left]

theorem reads_nibble (p : Parts) {b : BlockQ4K ℚ} (h : Reads b (packing.pack p)) {g half l : Nat}
    (hg : g < 4) (hhalf : half < 2) (hl : l < 32) :
    nibble (entry b.qs (32 * g + l)) half = codeAt p.codes (64 * g + 32 * half + l) := by
  have hdiv : (16 + (32 * g + l) - 16) / 32 = g := by omega
  have hmod : (16 + (32 * g + l) - 16) % 32 = l := by omega
  have hfirst := codeAt_lt p.codes (by omega : 64 * g + l < 256)
  have hsecond := codeAt_lt p.codes (by omega : 64 * g + l + 32 < 256)
  rw [h.qs _ (by omega), getD_pack p (by omega), byte, if_neg (by omega), if_neg (by omega),
    if_neg (by omega), hdiv, hmod, nibble, toNat_ofNat_of_lt (by omega)]
  rcases (by omega : half = 0 ∨ half = 1) with rfl | rfl
  · have hplace : 64 * g + 32 * 0 + l = 64 * g + l := by omega
    rw [hplace, Nat.pow_zero, Nat.div_one]
    omega
  · have hplace : 64 * g + 32 * 1 + l = 64 * g + l + 32 := by omega
    rw [hplace, Nat.pow_one]
    omega

/-- A code of a scale in one byte. -/
theorem toNat_and_63 (x : UInt8) : (x &&& 63).toNat = x.toNat % 64 := by
  rw [UInt8.toNat_and]
  exact Nat.and_two_pow_sub_one_eq_mod _ 6

/-- A half of one byte under the two highest bits of another. -/
theorem toNat_join {low : UInt8} (hlow : low.toNat < 16) (x : UInt8) :
    (low ||| ((x >>> 6) <<< 4)).toNat = low.toNat + x.toNat / 64 * 2 ^ 4 := by
  have hlt := x.toNat_lt
  have hshift : ((x >>> 6) <<< 4).toNat = x.toNat / 64 * 2 ^ 4 := by
    have hdiv : (x >>> 6).toNat = x.toNat / 64 := by
      rw [UInt8.toNat_shiftRight]
      exact Nat.shiftRight_eq_div_pow _ 6
    rw [UInt8.toNat_shiftLeft, hdiv]
    show (x.toNat / 64) <<< 4 % 2 ^ 8 = _
    rw [Nat.shiftLeft_eq]
    omega
  rw [UInt8.toNat_or, hshift, or_shifted hlow]

theorem toNat_scaleByte (p : Parts) {k : Nat} (hk : k < 12) :
    (scaleByte p k).toNat =
      if k < 4 then codeAt p.scales k + 64 * (codeAt p.scales (k + 4) / 16)
      else if k < 8 then codeAt p.mins (k - 4) + 64 * (codeAt p.mins k / 16)
      else codeAt p.scales (k - 4) % 16 + 16 * (codeAt p.mins (k - 4) % 16) := by
  rw [scaleByte]
  split
  · have hlow := codeAt_lt p.scales (by omega : k < 8)
    have hhigh := codeAt_lt p.scales (by omega : k + 4 < 8)
    exact toNat_ofNat_of_lt (by omega)
  · split
    · have hlow := codeAt_lt p.mins (by omega : k - 4 < 8)
      have hhigh := codeAt_lt p.mins (by omega : k < 8)
      exact toNat_ofNat_of_lt (by omega)
    · exact toNat_ofNat_of_lt (by omega)

/-- The packed bytes give the scale and the minimum of each sub-block. -/
theorem getScaleMin_pack (p : Parts) {b : BlockQ4K ℚ} (h : Reads b (packing.pack p)) {j : Nat}
    (hj : j < 8) :
    (b.getScaleMin j).1.toNat = codeAt p.scales j ∧ (b.getScaleMin j).2.toNat = codeAt p.mins j := by
  have hscale := codeAt_lt p.scales hj
  have hmin := codeAt_lt p.mins hj
  rw [getScaleMin]
  split
  · rw [reads_scales p h (by omega), reads_scales p h (by omega), toNat_and_63, toNat_and_63,
      toNat_scaleByte p (by omega), toNat_scaleByte p (by omega), if_pos (by omega), if_neg (by omega),
      if_pos (by omega), Nat.add_sub_cancel]
    omega
  · have hnibble := nibble_lt (scaleByte p (j + 4))
    have hfour : j - 4 + 4 = j := by omega
    have hlow := codeAt_lt p.scales (by omega : j - 4 < 8)
    have hlow' := codeAt_lt p.mins (by omega : j - 4 < 8)
    rw [reads_scales p h (by omega), reads_scales p h (by omega), reads_scales p h (by omega),
      toNat_join (by rw [toNat_and_low]; exact hnibble 0),
      toNat_join (by rw [toNat_shiftRight_four]; exact hnibble 1), toNat_and_low, toNat_shiftRight_four,
      nibble, nibble, toNat_scaleByte p (by omega), toNat_scaleByte p (by omega),
      toNat_scaleByte p (by omega), if_neg (by omega), if_neg (by omega), if_pos (by omega),
      if_neg (by omega), if_pos (by omega), Nat.add_sub_cancel, hfour, Nat.pow_zero, Nat.pow_one]
    omega

theorem inverse : packing.Inverse where
  qk_pos := by decide
  size_pos := by decide
  decode := by
    intro bytes hbytes out hout
    obtain ⟨-, deq, -, hdeq, hlength, -⟩ := decode_eq (R := ℚ) hbytes hout
    exact ⟨deq, hdeq, hlength⟩
  unpack := by
    intro p out hout
    have hlength : 144 ≤ (packing.pack p).length := Nat.le_of_eq (packing.length_pack p).symm
    obtain ⟨b, deq, hreads, hdeq, hwidth, hvalues⟩ := decode_eq (R := ℚ) hlength hout
    refine hdeq.trans (congrArg Except.ok (Packing.eq_values hwidth fun e he => ?_))
    have he : e < 256 := he
    obtain ⟨g, h, l, hg, hh, hl, rfl⟩ : ∃ g h l, g < 4 ∧ h < 2 ∧ l < 32 ∧ e = 64 * g + 32 * h + l :=
      ⟨e / 64, e / 32 % 2, e % 32, by omega, by omega, by omega, by omega⟩
    have hblock : (64 * g + 32 * h + l) / 32 = 2 * g + h := by omega
    obtain ⟨hscale, hmin⟩ := getScaleMin_pack p hreads (by omega : 2 * g + h < 8)
    rw [hvalues g hg h hh l hl, value, hscale, hmin, reads_nibble p hreads hg hh hl, reads_d p hreads,
      reads_dmin p hreads]
    show _ = some (f16ToF32 p.d * (codeAt p.scales ((64 * g + 32 * h + l) / 32) : ℚ) *
      (codeAt p.codes (64 * g + 32 * h + l) : ℚ) -
        f16ToF32 p.dmin * (codeAt p.mins ((64 * g + 32 * h + l) / 32) : ℚ))
    rw [hblock]
    simp [asF32_rat]

end BlockQ4K

/-! ## Q2_K -/

namespace BlockQ2K

section decode

variable {R : Type} [F32 R]

structure Reads (b : BlockQ2K R) (bytes : List UInt8) : Prop where
  scales : ∀ k < 16, entry b.scales k = bytes.getD k 0
  qs : ∀ k < 64, entry b.qs k = bytes.getD (16 + k) 0
  d : b.d = f16ToF32 (u16FromLe [bytes.getD 80 0, bytes.getD 81 0])
  dmin : b.dmin = f16ToF32 (u16FromLe [bytes.getD 82 0, bytes.getD 83 0])

theorem fromBytes_reads {bytes : List UInt8} (h : 84 ≤ bytes.length) :
    ∃ b : BlockQ2K R, fromBytes bytes = .ok b ∧ Reads b bytes := by
  refine ⟨{ scales := arrayAt bytes 0 16 (by omega), qs := arrayAt bytes 16 64 (by omega),
            d := f16ToF32 (u16FromLe [bytes.getD 80 0, bytes.getD 81 0]),
            dmin := f16ToF32 (u16FromLe [bytes.getD 82 0, bytes.getD 83 0]) }, ?_, ?_⟩
  · rw [fromBytes, dif_neg (by omega), readF16Le_at (by omega), readF16Le_at (by omega)]
    rfl
  · refine ⟨fun k hk => ?_, fun k hk => entry_arrayAt (by omega) hk, rfl, rfl⟩
    rw [entry_arrayAt (by omega) hk, Nat.zero_add]

variable [Mul R] [Sub R] (b : BlockQ2K R)

/-- The quant of the value `16 * s + l`. -/
def quant (s l : Nat) : UInt8 :=
  (entry b.qs (32 * (s / 8) + 16 * (s % 2) + l) >>> UInt8.ofNat (2 * (s / 2 % 4))) &&& (3 : UInt8)

def value (s l : Nat) : R :=
  b.d * asF32 (nibble (entry b.scales s) 0) * asF32 (b.quant s l).toNat -
    b.dmin * asF32 (nibble (entry b.scales s) 1)

/-- The cursor when `s` runs of sixteen values are over. -/
structure After (s : Nat) (c : Cursor R) : Prop where
  length : c.out.length = 256
  yIdx : c.yIdx = 16 * s
  is : c.is = s
  written : ∀ i < s, ∀ l < 16, c.out[16 * i + l]? = some (b.value i l)

/-- The cursor in half `h` of the block when `j` of its four rounds are over. -/
structure InHalf (h j : Nat) (c : Cursor R) : Prop extends After b (2 * (4 * h + j)) c where
  qOffset : c.qOffset = 32 * h
  shift : c.shift = UInt8.ofNat (2 * j)

@[simp] theorem run_qOffset (base : Nat) (c : Cursor R) : (b.run base c).qOffset = c.qOffset := by rw [run]

@[simp] theorem run_shift (base : Nat) (c : Cursor R) : (b.run base c).shift = c.shift := by rw [run]

theorem after_run {s base : Nat} {c : Cursor R} (hs : s < 16) (h : After b s c)
    (hbase : base = 16 * (s % 2)) (hq : c.qOffset = 32 * (s / 8))
    (hshift : c.shift = UInt8.ofNat (2 * (s / 2 % 4))) : After b (s + 1) (b.run base c) := by
  refine ⟨?_, ?_, ?_, ?_⟩
  · simp only [run, length_forRange_set, h.length]
  · simp only [run, h.yIdx]
    omega
  · simp only [run, h.is]
  · intro i hi l hl
    simp only [run, getElem?_forRange_set, h.yIdx, h.is, h.length, hshift, hq, hbase, toNat_and_low,
      toNat_shiftRight_four]
    rcases Nat.lt_succ_iff_lt_or_eq.mp hi with hlt | rfl
    · rw [if_neg (by omega), h.written i hlt l hl]
    · rw [if_pos (by omega), Nat.add_sub_cancel_left]
      rfl

theorem inHalf_round {h j : Nat} (hh : h < 2) (hj : j < 4) {c : Cursor R} (hc : InHalf b h j c) :
    InHalf b h (j + 1) (b.round c) := by
  have hfirst : After b (2 * (4 * h + j) + 1) (b.run 0 c) := by
    have hq : c.qOffset = 32 * (2 * (4 * h + j) / 8) := by
      rw [hc.qOffset]
      omega
    have hshift : c.shift = UInt8.ofNat (2 * (2 * (4 * h + j) / 2 % 4)) := by
      rw [hc.shift]
      congr 2
      omega
    exact b.after_run (by omega) hc.toAfter (by omega) hq hshift
  have hsecond : After b (2 * (4 * h + j) + 1 + 1) (b.run 16 (b.run 0 c)) := by
    have hq : (b.run 0 c).qOffset = 32 * ((2 * (4 * h + j) + 1) / 8) := by
      rw [run_qOffset, hc.qOffset]
      omega
    have hshift : (b.run 0 c).shift = UInt8.ofNat (2 * ((2 * (4 * h + j) + 1) / 2 % 4)) := by
      rw [run_shift, hc.shift]
      congr 2
      omega
    exact b.after_run (by omega) hfirst (by omega) hq hshift
  have hshift : UInt8.ofNat (2 * j) + 2 = UInt8.ofNat (2 * (j + 1)) := by
    interval_cases j <;> rfl
  refine ⟨⟨?_, ?_, ?_, ?_⟩, ?_, ?_⟩
  · simp only [round, hsecond.length]
  · simp only [round, hsecond.yIdx]
    omega
  · simp only [round, hsecond.is]
    omega
  · intro i hi
    simp only [round]
    exact hsecond.written i (by omega)
  · simp only [round, run_qOffset, hc.qOffset]
  · simp only [round, run_shift, hc.shift, hshift]

/-- The cursor between halves. -/
structure AtHalf (h : Nat) (c : Cursor R) : Prop extends After b (8 * h) c where
  qOffset : c.qOffset = 32 * h

theorem atHalf_half {h : Nat} (hh : h < 2) {c : Cursor R} (hc : AtHalf b h c) :
    AtHalf b (h + 1) (b.half c) := by
  have hruns : 2 * (4 * h + 0) = 8 * h := by omega
  have hstart : InHalf b h 0 { c with shift := 0 } :=
    ⟨hruns.symm ▸ ⟨hc.length, hc.yIdx, hc.is, hc.written⟩, hc.qOffset, rfl⟩
  have hend : InHalf b h 4 (forRange 4 (fun _ c => b.round c) { c with shift := 0 }) :=
    forRange_rule hstart fun _ hj _ => b.inHalf_round hh hj
  refine ⟨⟨?_, ?_, ?_, ?_⟩, ?_⟩
  · simp only [half, hend.length]
  · simp only [half, hend.yIdx]
    omega
  · simp only [half, hend.is]
    omega
  · intro i hi
    simp only [half]
    exact hend.written i (by omega)
  · simp only [half, hend.qOffset]
    omega

theorem decode_eq {bytes : List UInt8} (hb : 84 ≤ bytes.length) {out : List R}
    (hout : out.length = 256) :
    ∃ (b : BlockQ2K R) (deq : List R), Reads b bytes ∧ Format.q2K.decode bytes out = .ok deq ∧
      deq.length = 256 ∧ ∀ s < 16, ∀ l < 16, deq[16 * s + l]? = some (b.value s l) := by
  obtain ⟨b, hfrom, hreads⟩ := fromBytes_reads (R := R) hb
  have hstart : AtHalf b 0 { out, yIdx := 0, is := 0, qOffset := 0, shift := 0 } :=
    ⟨⟨hout, rfl, rfl, fun _ hi => absurd hi (Nat.not_lt_zero _)⟩, rfl⟩
  have hend : AtHalf b 2 (forRange 2 (fun _ c => b.half c)
      { out, yIdx := 0, is := 0, qOffset := 0, shift := 0 }) :=
    forRange_rule hstart fun _ hh _ => b.atHalf_half hh
  exact ⟨b, _, hreads, congrArg (Except.map _) hfrom, hend.length, hend.written⟩

end decode

structure Parts where
  d : UInt16
  dmin : UInt16
  scales : Fin 16 → Fin 16
  mins : Fin 16 → Fin 16
  codes : Fin 256 → Fin 4

/-- A scale and a minimum in one byte, four codes that are 32 places apart in one byte, the
scale and the scale of the minima. -/
def byte (p : Parts) (k : Nat) : UInt8 :=
  if k < 16 then UInt8.ofNat (codeAt p.scales k + 16 * codeAt p.mins k)
  else if k < 80 then
    let first := 128 * ((k - 16) / 32) + (k - 16) % 32
    UInt8.ofNat (codeAt p.codes first + 4 * codeAt p.codes (first + 32) +
      16 * codeAt p.codes (first + 64) + 64 * codeAt p.codes (first + 96))
  else if k < 82 then byteOf p.d.toNat (k - 80)
  else byteOf p.dmin.toNat (k - 82)

def packing : Packing Parts where
  format := .q2K
  byte := byte
  value p e := f16ToF32 p.d * (codeAt p.scales (e / 16) : ℚ) * (codeAt p.codes e : ℚ) -
    f16ToF32 p.dmin * (codeAt p.mins (e / 16) : ℚ)

theorem getD_pack (p : Parts) {k : Nat} (hk : k < 84) : (packing.pack p).getD k 0 = byte p k :=
  packing.getD_pack p hk

theorem reads_d (p : Parts) {b : BlockQ2K ℚ} (h : Reads b (packing.pack p)) : b.d = f16ToF32 p.d := by
  rw [h.d, getD_pack p (by decide), getD_pack p (by decide)]
  show f16ToF32 (u16FromLe [byteOf p.d.toNat 0, byteOf p.d.toNat 1]) = _
  rw [u16FromLe_byteOf]

theorem reads_dmin (p : Parts) {b : BlockQ2K ℚ} (h : Reads b (packing.pack p)) :
    b.dmin = f16ToF32 p.dmin := by
  rw [h.dmin, getD_pack p (by decide), getD_pack p (by decide)]
  show f16ToF32 (u16FromLe [byteOf p.dmin.toNat 0, byteOf p.dmin.toNat 1]) = _
  rw [u16FromLe_byteOf]

theorem reads_scale (p : Parts) {b : BlockQ2K ℚ} (h : Reads b (packing.pack p)) {s : Nat} (hs : s < 16) :
    nibble (entry b.scales s) 0 = codeAt p.scales s ∧ nibble (entry b.scales s) 1 = codeAt p.mins s := by
  have hpair := nibbles_ofNat (codeAt_lt p.scales hs) (codeAt_lt p.mins hs)
  rw [toNat_and_low, toNat_shiftRight_four] at hpair
  rw [h.scales s hs, getD_pack p (by omega), byte, if_pos hs]
  exact hpair

theorem reads_quant (p : Parts) {b : BlockQ2K ℚ} (h : Reads b (packing.pack p)) {s l : Nat} (hs : s < 16)
    (hl : l < 16) : (b.quant s l).toNat = codeAt p.codes (16 * s + l) := by
  have hdiv : (16 + (32 * (s / 8) + 16 * (s % 2) + l) - 16) / 32 = s / 8 := by omega
  have hmod : (16 + (32 * (s / 8) + 16 * (s % 2) + l) - 16) % 32 = 16 * (s % 2) + l := by omega
  have hplace : 128 * (s / 8) + (16 * (s % 2) + l) + 32 * (s / 2 % 4) = 16 * s + l := by omega
  have hcodes : ∀ q < 4, codeAt p.codes (128 * (s / 8) + (16 * (s % 2) + l) + 32 * q) < 4 :=
    fun q hq => codeAt_lt p.codes (by omega)
  have hr : (UInt8.ofNat (2 * (s / 2 % 4))).toNat = 2 * (s / 2 % 4) := toNat_ofNat_of_lt (by omega)
  have hquarters := crumb_of_four hcodes (Nat.mod_lt (s / 2) (by decide : 0 < 4))
  rw [← toNat_ofNat_of_lt (four_crumbs_lt hcodes)] at hquarters
  rw [quant, toNat_crumb _ (by omega), hr, h.qs _ (by omega), getD_pack p (by omega), byte,
    if_neg (by omega), if_pos (by omega), hdiv, hmod, ← hplace]
  exact hquarters

theorem inverse : packing.Inverse where
  qk_pos := by decide
  size_pos := by decide
  decode := by
    intro bytes hbytes out hout
    obtain ⟨-, deq, -, hdeq, hlength, -⟩ := decode_eq (R := ℚ) hbytes hout
    exact ⟨deq, hdeq, hlength⟩
  unpack := by
    intro p out hout
    have hlength : 84 ≤ (packing.pack p).length := Nat.le_of_eq (packing.length_pack p).symm
    obtain ⟨b, deq, hreads, hdeq, hwidth, hvalues⟩ := decode_eq (R := ℚ) hlength hout
    refine hdeq.trans (congrArg Except.ok (Packing.eq_values hwidth fun e he => ?_))
    have he : e < 256 := he
    obtain ⟨s, l, hs, hl, rfl⟩ : ∃ s l, s < 16 ∧ l < 16 ∧ e = 16 * s + l :=
      ⟨e / 16, e % 16, by omega, by omega, by omega⟩
    have hblock : (16 * s + l) / 16 = s := by omega
    obtain ⟨hscale, hmin⟩ := reads_scale p hreads hs
    rw [hvalues s hs l hl, value, hscale, hmin, reads_quant p hreads hs hl, reads_d p hreads,
      reads_dmin p hreads]
    show _ = some (f16ToF32 p.d * (codeAt p.scales ((16 * s + l) / 16) : ℚ) *
      (codeAt p.codes (16 * s + l) : ℚ) - f16ToF32 p.dmin * (codeAt p.mins ((16 * s + l) / 16) : ℚ))
    rw [hblock]
    simp [asF32_rat]

end BlockQ2K

/-! ## All five formats -/

inductive BlockKind where
  | q4_0
  | q5_0
  | q2_K
  | q4_K
  | q6_K
deriving DecidableEq, Repr

namespace BlockKind

def Parts : BlockKind → Type
  | .q4_0 => BlockQ4_0.Parts
  | .q5_0 => BlockQ5_0.Parts
  | .q2_K => BlockQ2K.Parts
  | .q4_K => BlockQ4K.Parts
  | .q6_K => BlockQ6K.Parts

def packing : (kind : BlockKind) → Packing kind.Parts
  | .q4_0 => BlockQ4_0.packing
  | .q5_0 => BlockQ5_0.packing
  | .q2_K => BlockQ2K.packing
  | .q4_K => BlockQ4K.packing
  | .q6_K => BlockQ6K.packing

/-- The row decoder of the format. -/
def dequantizeRow : BlockKind → List UInt8 → Nat → Writing ℚ Unit
  | .q4_0 => dequantizeRowQ4_0
  | .q5_0 => dequantizeRowQ5_0
  | .q2_K => dequantizeRowQ2K
  | .q4_K => dequantizeRowQ4K
  | .q6_K => dequantizeRowQ6K

theorem dequantizeRow_eq (kind : BlockKind) : kind.dequantizeRow = Quant.dequantizeRow kind.packing.format := by
  cases kind <;> rfl

theorem inverse (kind : BlockKind) : kind.packing.Inverse := by
  cases kind with
  | q4_0 => exact BlockQ4_0.inverse
  | q5_0 => exact BlockQ5_0.inverse
  | q2_K => exact BlockQ2K.inverse
  | q4_K => exact BlockQ4K.inverse
  | q6_K => exact BlockQ6K.inverse

/-- The row decoder of each format undoes the packing, and the bytes of a block of any row
determine the outputs of that block and no others. -/
theorem dequantizeRow_inverse (kind : BlockKind) :
    (∀ (blocks : List kind.Parts) (out : List ℚ),
      blocks.length * kind.packing.format.blockSize < u64Bound →
      out.length = blocks.length * kind.packing.format.qk →
      kind.dequantizeRow (blocks.flatMap kind.packing.pack) (blocks.length * kind.packing.format.qk) out =
        (.ok (), blocks.flatMap kind.packing.values)) ∧
    ∀ (bytes : List UInt8) (n : Nat) (out : List ℚ), n * kind.packing.format.blockSize ≤ bytes.length →
      bytes.length < u64Bound → out.length = n * kind.packing.format.qk →
      ∃ values, kind.dequantizeRow bytes (n * kind.packing.format.qk) out = (.ok (), values) ∧
        values.length = n * kind.packing.format.qk ∧
        ∀ i < n, kind.packing.format.decode (Rows.row kind.packing.format.blockSize bytes i)
          (List.replicate kind.packing.format.qk 0) =
            .ok (Rows.row kind.packing.format.qk values i) := by
  rw [dequantizeRow_eq]
  exact ⟨fun blocks _ hlt hout => Packing.dequantizeRow_pack kind.inverse blocks hlt hout,
    fun _ _ _ hbytes hlt hout => Packing.dequantizeRow_blocks kind.inverse hbytes hlt hout⟩

/-- A block with a scale, a minimum and codes of every size. -/
def sampleBlock : BlockQ4K.Parts where
  d := 0x3C00
  dmin := 0x3800
  scales i := ⟨9 * i, by omega⟩
  mins i := ⟨63 - 9 * i, by omega⟩
  codes e := ⟨e % 16, by omega⟩

theorem dequantizeRow_inverse_q4_K :
    dequantizeRow .q4_K ([sampleBlock, sampleBlock].flatMap BlockQ4K.packing.pack) 512
        (List.replicate 512 0) = (.ok (), [sampleBlock, sampleBlock].flatMap BlockQ4K.packing.values) :=
  (dequantizeRow_inverse .q4_K).1 [sampleBlock, sampleBlock] (List.replicate 512 0) (by decide)
    (by rw [List.length_replicate]; rfl)

end BlockKind

end Quant
end Ramforge
