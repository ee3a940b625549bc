/-
The JSON texts of template values, read back.

The text of a value decodes to the value, with null for what is undefined.  The texts of
numbers are those of `f64`, as far as its documentation goes.
-/
import Ramforge.Core.TemplateValue
import Ramforge.Rust.Json

namespace Ramforge

open Rust

namespace ChatTemplate

/-! ## Strings -/

theorem controlDigits : ∀ n < 0xA0, ((Nat.toDigits 16 n).leftpad 4 '0').length = 4 ∧
    JsonValue.readHex ((Nat.toDigits 16 n).leftpad 4 '0') = some n := by
  decide +kernel

/-- What a character is written as is read as the character. -/
theorem exists_unit (c : Char) : ∃ unit,
    (∀ s, JsonValue.readUnits (jsonChar c ++ s) =
      (JsonValue.readUnits s).map fun parts => (unit :: parts.1, parts.2)) ∧
    ∀ units, JsonValue.joinUnits (unit :: units) = (JsonValue.joinUnits units).map (c :: ·) := by
  have hchar : ∀ units, JsonValue.joinUnits (.char c :: units) =
      (JsonValue.joinUnits units).map (c :: ·) := fun units => by rw [JsonValue.joinUnits]
  unfold jsonChar
  split
  next h => exact ⟨.char c, fun s => JsonValue.readUnits_escape (by rw [h]; rfl), hchar⟩
  split
  next h => exact ⟨.char c, fun s => JsonValue.readUnits_escape (by rw [h]; rfl), hchar⟩
  split
  next h => exact ⟨.char c, fun s => JsonValue.readUnits_escape (by rw [h]; rfl), hchar⟩
  split
  next h => exact ⟨.char c, fun s => JsonValue.readUnits_escape (by rw [h]; rfl), hchar⟩
  split
  next h => exact ⟨.char c, fun s => JsonValue.readUnits_escape (by rw [h]; rfl), hchar⟩
  split
  next hcontrol =>
    have hlt : c.toNat < 0xA0 := by
      unfold isControl at hcontrol
      simp only [Bool.or_eq_true, Bool.and_eq_true, decide_eq_true_eq] at hcontrol
      omega
    obtain ⟨hlength, hread⟩ := controlDigits c.toNat hlt
    refine ⟨.utf16 c.toNat, fun s => JsonValue.readUnits_hex hlength hread, fun units => ?_⟩
    rw [JsonValue.joinUnits_utf16 (by omega), Char.ofNat_toNat]
  next hquote hescape _ _ _ hcontrol =>
    refine ⟨.char c, fun s => JsonValue.readUnits_plain hquote hescape ?_, hchar⟩
    intro hlt
    exact hcontrol (by rw [isControl, decide_eq_true hlt, Bool.true_or])

theorem exists_units (value rest : List Char) : ∃ units,
    JsonValue.readUnits (value.flatMap jsonChar ++ '"' :: rest) = some (units, rest) ∧
      JsonValue.joinUnits units = some value := by
  induction value with
  | nil => exact ⟨[], JsonValue.readUnits_quote, rfl⟩
  | cons c value ih =>
    obtain ⟨units, hread, hjoin⟩ := ih
    obtain ⟨unit, hunit, hchar⟩ := exists_unit c
    refine ⟨unit :: units, ?_, by rw [hchar, hjoin, Option.map_some]⟩
    rw [List.flatMap_cons, List.append_assoc, hunit, hread, Option.map_some]

theorem stringBody (value : List Char) : JsonValue.StringBody (value.flatMap jsonChar) value := by
  intro rest
  obtain ⟨units, hread, hjoin⟩ := exists_units value rest
  rw [JsonValue.readString, hread]
  show ((JsonValue.joinUnits units).bind fun value => some (value, rest)) = _
  rw [hjoin, Option.bind_some]

/-! ## Numbers -/

variable {F : Type}

/-- The exact number of an `f64`, and the `f64` of a text. -/
class F64Real (F : Type) where
  /-- The number that a finite value is. -/
  real : F → Option ℚ
  /-- `str::parse::<f64>` of the text of a number. -/
  read : List Char → F

/-- The range of `i64`. -/
def InI64 (n : ℤ) : Prop := -2 ^ 63 ≤ n ∧ n < 2 ^ 63

/-- What is documented of `f64` as far as its texts need it: `==` compares the numbers,
`as i64` is exact in its range, an integer that is an `f64` is parsed exactly, and a
fraction is displayed as a decimal that is parsed as the same number. -/
structure F64Real.Documented (F : Type) [F64 F] [F64Real F] : Prop where
  eq_of_real : ∀ (x y : F) (q : ℚ), real x = some q → real y = some q → F64.eq x y = true
  isWhole_iff : ∀ (x : F) (q : ℚ), real x = some q → (F64.isWhole x = true ↔ q.den = 1)
  toI64_of_real : ∀ (x : F) (n : ℤ), real x = some (n : ℚ) → InI64 n → F64.toI64 x = n
  read_int : ∀ (x : F) (n : ℤ), real x = some (n : ℚ) → InI64 n →
    real (read (intText n) : F) = some (n : ℚ)
  display_fraction : ∀ (x : F) (q : ℚ), real x = some q → q.den ≠ 1 →
    JsonValue.DecimalText (F64.display x) ∧ real (read (F64.display x) : F) = some q

/-- A finite number, in the range of `i64` if it is whole. -/
def Written [F64Real F] (x : F) : Prop :=
  ∃ q, F64Real.real x = some q ∧ (q.den = 1 → InI64 q.num)

theorem Written.numberText [F64 F] [F64Real F] (h : F64Real.Documented F) {x : F} (hx : Written x) :
    JsonValue.DecimalText (numberText x) ∧ F64.eq (F64Real.read (ChatTemplate.numberText x)) x = true := by
  obtain ⟨q, hreal, hrange⟩ := hx
  unfold ChatTemplate.numberText
  by_cases hden : q.den = 1
  · have hq : (q.num : ℚ) = q := Rat.coe_int_num_of_den_eq_one hden
    rw [← hq] at hreal
    rw [if_pos ((h.isWhole_iff x q (by rw [hreal, hq])).mpr hden),
      h.toI64_of_real x q.num hreal (hrange hden)]
    exact ⟨JsonValue.decimalText_toString q.num,
      h.eq_of_real _ x _ (h.read_int x q.num hreal (hrange hden)) hreal⟩
  · obtain ⟨htext, hread⟩ := h.display_fraction x q hreal hden
    rw [if_neg fun hwhole => hden ((h.isWhole_iff x q hreal).mp hwhole)]
    exact ⟨htext, h.eq_of_real _ x q hread hreal⟩

/-! ## Values -/

namespace Value

mutual

/-- A value with null for what is undefined, as JSON has no undefined value. -/
def defined : Value F → Value F
  | .undefined => .null
  | .null => .null
  | .bool value => .bool value
  | .number value => .number value
  | .string value => .string value
  | .list values => .list (definedValues values)
  | .object entries => .object (definedEntries entries)

def definedValues : List (Value F) → List (Value F)
  | [] => []
  | value :: rest => value.defined :: definedValues rest

def definedEntries : List (List Char × Value F) → List (List Char × Value F)
  | [] => []
  | (key, value) :: rest => (key, value.defined) :: definedEntries rest

end

mutual

/-- The value that a decoded text stands for. -/
def ofJson : JsonValue F → Value F
  | .null => .null
  | .bool value => .bool value
  | .number value => .number value
  | .string value => .string value
  | .array values => .list (ofJsonValues values)
  | .object members => .object (ofJsonMembers members)

def ofJsonValues : List (JsonValue F) → List (Value F)
  | [] => []
  | value :: rest => ofJson value :: ofJsonValues rest

def ofJsonMembers : List (List Char × JsonValue F) → List (List Char × Value F)
  | [] => []
  | (key, value) :: rest => (key, ofJson value) :: ofJsonMembers rest

end

mutual

/-- All numbers of a value meet a condition. -/
def Numbers (P : F → Prop) : Value F → Prop
  | .undefined => True
  | .null => True
  | .bool _ => True
  | .number value => P value
  | .string _ => True
  | .list values => NumbersOfValues P values
  | .object entries => NumbersOfEntries P entries

def NumbersOfValues (P : F → Prop) : List (Value F) → Prop
  | [] => True
  | value :: rest => value.Numbers P ∧ NumbersOfValues P rest

def NumbersOfEntries (P : F → Prop) : List (List Char × Value F) → Prop
  | [] => True
  | (_, value) :: rest => value.Numbers P ∧ NumbersOfEntries P rest

end

variable [F64 F] [F64Real F]

/-- The text is compact JSON of what the value is but for what is undefined. -/
theorem exists_compact (h : F64Real.Documented F) (v : Value F) :
    v.Numbers Written → ∃ j, JsonValue.Compact F64Real.read j v.toJson ∧
      (ofJson j).eq v.defined = true := by
  refine @Value.rec F
    (fun v => v.Numbers Written → ∃ j, JsonValue.Compact F64Real.read j v.toJson ∧
      (ofJson j).eq v.defined = true)
    (fun values => NumbersOfValues Written values → ∃ js,
      JsonValue.CompactList F64Real.read js (toJsonValues values) ∧
        eqValues (ofJsonValues js) (definedValues values) = true)
    (fun entries => NumbersOfEntries Written entries → ∃ js,
      JsonValue.CompactMembers F64Real.read js (toJsonEntries entries) ∧
        eqEntries (ofJsonMembers js) (definedEntries entries) = true)
    (fun entry => entry.2.Numbers Written → ∃ j, JsonValue.Compact F64Real.read j entry.2.toJson ∧
      (ofJson j).eq entry.2.defined = true)
    ?undefined ?null ?bool ?number ?string ?list ?object ?nil ?cons ?noEntry ?entry ?pair v
  case undefined => exact fun _ => ⟨.null, .null, rfl⟩
  case null => exact fun _ => ⟨.null, .null, rfl⟩
  case bool => exact fun value _ => ⟨.bool value, .bool value, by cases value <;> rfl⟩
  case number =>
    intro x hx
    obtain ⟨htext, heq⟩ := Written.numberText h hx
    exact ⟨.number _, .number _ htext, heq⟩
  case string =>
    intro value _
    refine ⟨.string value, .string value _ (stringBody value), ?_⟩
    rw [ofJson, defined, eq, beq_self_eq_true]
  case list =>
    intro values ih hnumbers
    obtain ⟨js, hcompact, heq⟩ := ih hnumbers
    exact ⟨.array js, .array js _ hcompact, heq⟩
  case object =>
    intro entries ih hnumbers
    obtain ⟨js, hcompact, heq⟩ := ih hnumbers
    exact ⟨.object js, .object js _ hcompact, heq⟩
  case nil => exact fun _ => ⟨[], .nil, rfl⟩
  case cons =>
    intro value rest hvalue hrest hnumbers
    obtain ⟨j, hcompact, heq⟩ := hvalue hnumbers.1
    obtain ⟨js, hcompacts, heqs⟩ := hrest hnumbers.2
    refine ⟨j :: js, .cons j _ js _ hcompact hcompacts, ?_⟩
    rw [ofJsonValues, definedValues, eqValues, heq, heqs, Bool.true_and]
  case noEntry => exact fun _ => ⟨[], .nil, rfl⟩
  case entry =>
    rintro ⟨key, value⟩ rest hvalue hrest hnumbers
    obtain ⟨j, hcompact, heq⟩ := hvalue hnumbers.1
    obtain ⟨js, hcompacts, heqs⟩ := hrest hnumbers.2
    refine ⟨(key, j) :: js, ?_, ?_⟩
    · have hmember := JsonValue.CompactMembers.cons key _ j _ js _ (stringBody key) hcompact hcompacts
      rw [toJsonEntries, jsonString, List.append_assoc]
      exact hmember
    · rw [ofJsonMembers, definedEntries, eqEntries, heq, heqs, beq_self_eq_true]
      rfl
  case pair => exact fun _ _ hvalue => hvalue

/-- The JSON text of a value decodes to the value, with null for what is undefined. -/
theorem decode_toJson (h : F64Real.Documented F) (v : Value F) (hnumbers : v.Numbers Written) :
    ∃ j, JsonValue.decode F64Real.read v.toJson = some j ∧ (ofJson j).eq v.defined = true := by
  obtain ⟨j, hcompact, heq⟩ := v.exists_compact h hnumbers
  exact ⟨j, hcompact.decode, heq⟩

end Value

/-! ## Four values of `f64` -/

inductive Sample where
  | zero
  | half
  | one
  | nan
deriving DecidableEq

namespace Sample

def ofRational (q : ℚ) : Sample :=
  if q = 0 then .zero else if q = 1 / 2 then .half else if q = 1 then .one else .nan

def real : Sample → Option ℚ
  | .zero => some 0
  | .half => some (1 / 2)
  | .one => some 1
  | .nan => none

def read (text : List Char) : Sample :=
  if text = "0".toList then .zero
  else if text = "0.5".toList then .half
  else if text = "1".toList then .one
  else .nan

def display : Sample → List Char
  | .zero => "0".toList
  | .half => "0.5".toList
  | .one => "1".toList
  | .nan => "NaN".toList

def compare (test : ℚ → ℚ → Bool) (x y : Sample) : Bool :=
  (x.real.bind fun a => y.real.map (test a)).getD false

def combine (f : ℚ → ℚ → ℚ) (x y : Sample) : Sample :=
  (x.real.bind fun a => y.real.map fun b => ofRational (f a b)).getD .nan

end Sample

instance : F64Real Sample := ⟨Sample.real, Sample.read⟩

instance : F64 Sample where
  add := Sample.combine (· + ·)
  sub := Sample.combine (· - ·)
  eq := Sample.compare fun a b => a = b
  lt := Sample.compare fun a b => a < b
  le := Sample.compare fun a b => a ≤ b
  ofNat n := Sample.ofRational n
  isWhole x := x.real.any fun q => q.den = 1
  toI64 x := (x.real.map Rat.floor).getD 0
  display := Sample.display

theorem Sample.documented : F64Real.Documented Sample where
  eq_of_real x y q hx hy := by
    show ((Sample.real x).bind fun a => (Sample.real y).map fun b => decide (a = b)).getD false = true
    rw [show Sample.real x = some q from hx, show Sample.real y = some q from hy]
    exact decide_eq_true rfl
  isWhole_iff x q hx := by
    show ((Sample.real x).any fun q => q.den = 1) = true ↔ _
    rw [show Sample.real x = some q from hx]
    exact decide_eq_true_iff
  toI64_of_real x n hx _ := by
    show ((Sample.real x).map Rat.floor).getD 0 = n
    rw [show Sample.real x = some (n : ℚ) from hx]
    exact Rat.floor_intCast n
  read_int x n hx _ := by
    cases x with
    | zero =>
      have hn : (n : ℚ) = 0 := (Option.some_inj.mp hx).symm
      obtain rfl : n = 0 := by exact_mod_cast hn
      rfl
    | half =>
      have hn : (1 / 2 : ℚ) = n := Option.some_inj.mp hx
      have htwo : (1 : ℚ) = (2 * n : ℤ) := by
        push_cast
        linarith
      have hodd : 1 = 2 * n := by exact_mod_cast htwo
      omega
    | one =>
      have hn : (n : ℚ) = 1 := (Option.some_inj.mp hx).symm
      obtain rfl : n = 1 := by exact_mod_cast hn
      rfl
    | nan => cases hx
  display_fraction x q hx hden := by
    cases x with
    | zero =>
      obtain rfl : 0 = q := Option.some_inj.mp hx
      exact absurd rfl hden
    | half =>
      refine ⟨⟨[], ['0'], ['.', '5'], rfl, .inl rfl, .inl rfl, .inr ⟨['5'], rfl, ?_, ?_⟩⟩, hx⟩
      · decide
      · simp
    | one =>
      obtain rfl : 1 = q := Option.some_inj.mp hx
      exact absurd rfl hden
    | nan => cases hx

/-- A value with escapes, a fraction and an undefined value in it. -/
def sampleValue : Value Sample :=
  .object [("a\"".toList, .list [.number .half, .number .one, .undefined]),
    ("b".toList, .string ['\x01', '\\', 'é', '\n'])]

theorem decode_sampleValue : ∃ j, JsonValue.decode F64Real.read sampleValue.toJson = some j ∧
    (Value.ofJson j).eq sampleValue.defined = true := by
  refine Value.decode_toJson Sample.documented sampleValue ⟨⟨?_, ?_, trivial, trivial⟩, trivial, trivial⟩
  · exact ⟨1 / 2, rfl, fun h => absurd h (by norm_num)⟩
  · exact ⟨1, rfl, fun _ => ⟨by norm_num, by norm_num⟩⟩

theorem not_decode_undefined :
    ¬∃ j, JsonValue.decode (F64Real.read : List Char → Sample)
        (Value.undefined : Value Sample).toJson = some j ∧
      (Value.ofJson j).eq .undefined = true := by
  rintro ⟨j, hdecode, heq⟩
  have hnull : JsonValue.decode (F64Real.read : List Char → Sample)
      (Value.undefined : Value Sample).toJson = some .null := rfl
  rw [hnull] at hdecode
  cases hdecode
  cases heq

end ChatTemplate
end Ramforge
