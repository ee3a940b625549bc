/-
A decoder for JSON texts.

It follows the grammar of RFC 8259.  A number is read from its text by a function that the
caller gives; the members of an object come in the order of the text.
-/
import Mathlib.Tactic

namespace Rust

inductive JsonValue (N : Type) where
  | null
  | bool (value : Bool)
  | number (value : N)
  | string (value : List Char)
  | array (values : List (JsonValue N))
  | object (members : List (List Char × JsonValue N))

namespace JsonValue

def isWhitespace (c : Char) : Bool := c = ' ' || c = '\t' || c = '\n' || c = '\r'

def skipWhitespace (s : List Char) : List Char := s.dropWhile isWhitespace

/-! ## Strings -/

def hexDigit (c : Char) : Option Nat :=
  if '0' ≤ c ∧ c ≤ '9' then some (c.toNat - '0'.toNat)
  else if 'a' ≤ c ∧ c ≤ 'f' then some (c.toNat - 'a'.toNat + 10)
  else if 'A' ≤ c ∧ c ≤ 'F' then some (c.toNat - 'A'.toNat + 10)
  else none

def readHex : List Char → Option Nat
  | [] => some 0
  | c :: rest => do
    let high ← hexDigit c
    let low ← readHex rest
    return high * 16 ^ rest.length + low

/-- An escape of one character. -/
def unescape (c : Char) : Option Char :=
  if c = '"' then some '"'
  else if c = '\\' then some '\\'
  else if c = '/' then some '/'
  else if c = 'b' then some '\x08'
  else if c = 'f' then some '\x0C'
  else if c = 'n' then some '\n'
  else if c = 'r' then some '\r'
  else if c = 't' then some '\t'
  else none

/-- A character of a string, or a UTF-16 unit that is written as an escape. -/
inductive StringUnit where
  | char (c : Char)
  | utf16 (n : Nat)

/-- The units up to the closing quote, and what follows it. -/
def readUnits : List Char → Option (List StringUnit × List Char)
  | [] => none
  | c :: rest =>
    if c = '"' then some ([], rest)
    else if c = '\\' then
      match rest with
      | 'u' :: d₃ :: d₂ :: d₁ :: d₀ :: rest => do
        let n ← readHex [d₃, d₂, d₁, d₀]
        let parts ← readUnits rest
        return (.utf16 n :: parts.1, parts.2)
      | e :: rest => do
        let c ← unescape e
        let parts ← readUnits rest
        return (.char c :: parts.1, parts.2)
      | [] => none
    else if c.toNat < 0x20 then none
    else do
      let parts ← readUnits rest
      return (.char c :: parts.1, parts.2)

def isHighSurrogate (n : Nat) : Bool := 0xD800 ≤ n && n < 0xDC00

def isLowSurrogate (n : Nat) : Bool := 0xDC00 ≤ n && n < 0xE000

/-- The characters of the units; a surrogate has to be one of a pair. -/
def joinUnits : List StringUnit → Option (List Char)
  | [] => some []
  | .char c :: rest => (joinUnits rest).map (c :: ·)
  | .utf16 n :: rest =>
    if isHighSurrogate n then
      match rest with
      | .utf16 m :: rest =>
        if isLowSurrogate m then
          (joinUnits rest).map (Char.ofNat (0x10000 + (n - 0xD800) * 0x400 + (m - 0xDC00)) :: ·)
        else none
      | _ => none
    else if isLowSurrogate n then none
    else (joinUnits rest).map (Char.ofNat n :: ·)

/-- The string that starts behind an opening quote. -/
def readString (s : List Char) : Option (List Char × List Char) := do
  let parts ← readUnits s
  let value ← joinUnits parts.1
  return (value, parts.2)

/-! ## Numbers -/

def scanDigits (s : List Char) : List Char × List Char :=
  (s.takeWhile Char.isDigit, s.dropWhile Char.isDigit)

def scanSign (s : List Char) : List Char × List Char :=
  if s.head? = some '-' then (['-'], s.drop 1) else ([], s)

def scanInt (s : List Char) : Option (List Char × List Char) :=
  match s with
  | [] => none
  | c :: rest =>
    if c = '0' then some (['0'], rest)
    else if c.isDigit then some (scanDigits (c :: rest))
    else none

def scanFraction (s : List Char) : Option (List Char × List Char) :=
  if s.head? = some '.' then
    let digits := scanDigits (s.drop 1)
    if digits.1 = [] then none else some ('.' :: digits.1, digits.2)
  else some ([], s)

def scanExponent (s : List Char) : Option (List Char × List Char) :=
  match s with
  | [] => some ([], [])
  | c :: rest =>
    if c = 'e' ∨ c = 'E' then
      let sign := if rest.head? = some '+' ∨ rest.head? = some '-' then rest.take 1 else []
      let digits := scanDigits (rest.drop sign.length)
      if digits.1 = [] then none else some (c :: sign ++ digits.1, digits.2)
    else some ([], s)

/-- The text of the number that starts here. -/
def scanNumber (s : List Char) : Option (List Char × List Char) := do
  let sign := scanSign s
  let int ← scanInt sign.2
  let fraction ← scanFraction int.2
  let exponent ← scanExponent fraction.2
  return (sign.1 ++ int.1 ++ fraction.1 ++ exponent.1, exponent.2)

/-! ## Values -/

section values

variable {N : Type} (number : List Char → N)

def readLiteral (s : List Char) : Option (JsonValue N × List Char) :=
  if "null".toList.isPrefixOf s then some (.null, s.drop 4)
  else if "true".toList.isPrefixOf s then some (.bool true, s.drop 4)
  else if "false".toList.isPrefixOf s then some (.bool false, s.drop 5)
  else none

def readNumber (s : List Char) : Option (JsonValue N × List Char) :=
  (scanNumber s).map fun parts => (.number (number parts.1), parts.2)

def readKey (s : List Char) : Option (List Char × List Char) :=
  if s.head? = some '"' then readString (s.drop 1) else none

/-- What follows a colon and the white space around it. -/
def skipColon (s : List Char) : Option (List Char) :=
  if (skipWhitespace s).head? = some ':' then some (skipWhitespace ((skipWhitespace s).drop 1))
  else none

mutual

/-- The value that starts here, and what follows it. -/
def readValue : Nat → List Char → Option (JsonValue N × List Char)
  | 0, _ => none
  | _ + 1, [] => none
  | fuel + 1, c :: rest =>
    if c = '"' then (readString rest).map fun parts => (.string parts.1, parts.2)
    else if c = '[' then
      let rest := skipWhitespace rest
      if rest.head? = some ']' then some (.array [], rest.drop 1)
      else (readElements fuel rest).map fun parts => (.array parts.1, parts.2)
    else if c = '{' then
      let rest := skipWhitespace rest
      if rest.head? = some '}' then some (.object [], rest.drop 1)
      else (readMembers fuel rest).map fun parts => (.object parts.1, parts.2)
    else (readLiteral (c :: rest)).or (readNumber number (c :: rest))

/-- The values up to the closing bracket. -/
def readElements : Nat → List Char → Option (List (JsonValue N) × List Char)
  | 0, _ => none
  | fuel + 1, s => do
    let value ← readValue fuel s
    let rest := skipWhitespace value.2
    if rest.head? = some ',' then
      (readElements fuel (skipWhitespace (rest.drop 1))).map
        fun parts => (value.1 :: parts.1, parts.2)
    else if rest.head? = some ']' then some ([value.1], rest.drop 1)
    else none

/-- The members up to the closing brace. -/
def readMembers : Nat → List Char → Option (List (List Char × JsonValue N) × List Char)
  | 0, _ => none
  | fuel + 1, s => do
    let key ← readKey s
    let colon ← skipColon key.2
    let value ← readValue fuel colon
    let rest := skipWhitespace value.2
    if rest.head? = some ',' then
      (readMembers fuel (skipWhitespace (rest.drop 1))).map
        fun parts => ((key.1, value.1) :: parts.1, parts.2)
    else if rest.head? = some '}' then some ([(key.1, value.1)], rest.drop 1)
    else none

end

/-- The value that a text is.  Two calls go by between two characters at most. -/
def decode (s : List Char) : Option (JsonValue N) := do
  let value ← readValue number (2 * s.length + 1) (skipWhitespace s)
  if skipWhitespace value.2 = [] then some value.1 else none

end values
/-! ## Reading strings back -/

section strings

variable {c : Char} {s : List Char}

theorem readUnits_quote : readUnits ('"' :: s) = some ([], s) := by
  rw [readUnits.eq_def]
  dsimp only
  rw [if_pos rfl]

theorem readUnits_plain (hquote : c ≠ '"') (hescape : c ≠ '\\') (hcontrol : ¬c.toNat < 0x20) :
    readUnits (c :: s) = (readUnits s).map fun parts => (.char c :: parts.1, parts.2) := by
  rw [readUnits.eq_def]
  dsimp only
  rw [if_neg hquote, if_neg hescape, if_neg hcontrol]
  cases readUnits s <;> rfl

theorem readUnits_escape {e : Char} (he : unescape e = some c) :
    readUnits ('\\' :: e :: s) = (readUnits s).map fun parts => (.char c :: parts.1, parts.2) := by
  have hu : e ≠ 'u' := by
    rintro rfl
    cases he
  rw [readUnits.eq_def]
  dsimp only
  rw [if_neg (by decide), if_pos rfl]
  split
  next heq => exact absurd (List.cons.inj heq).1 hu
  next heq =>
    obtain ⟨rfl, rfl⟩ := List.cons.inj heq
    rw [he]
    cases readUnits s <;> rfl
  next heq => cases heq

theorem readUnits_hex {digits : List Char} {n : Nat} (hlength : digits.length = 4)
    (hread : readHex digits = some n) :
    readUnits ('\\' :: 'u' :: digits ++ s) =
      (readUnits s).map fun parts => (.utf16 n :: parts.1, parts.2) := by
  obtain ⟨d₃, d₂, d₁, d₀, rfl⟩ := List.length_eq_four.mp hlength
  show readUnits ('\\' :: 'u' :: d₃ :: d₂ :: d₁ :: d₀ :: s) = _
  rw [readUnits.eq_def]
  dsimp only
  rw [if_neg (by decide), if_pos rfl]
  show ((readHex [d₃, d₂, d₁, d₀]).bind fun n => _) = _
  rw [hread]
  cases readUnits s <;> rfl

theorem joinUnits_utf16 {n : Nat} (hn : n < 0xD800) (units : List StringUnit) :
    joinUnits (.utf16 n :: units) = (joinUnits units).map (Char.ofNat n :: ·) := by
  have hhigh : isHighSurrogate n = false := by
    rw [isHighSurrogate, decide_eq_false (by omega), Bool.false_and]
  have hlow : isLowSurrogate n = false := by
    rw [isLowSurrogate, decide_eq_false (by omega), Bool.false_and]
  rw [joinUnits.eq_def]
  dsimp only
  rw [hhigh, hlow]
  rfl

end strings

/-! ## Reading numbers back -/

/-- The text of an integer that is not negative. -/
def IntText (s : List Char) : Prop :=
  s = ['0'] ∨ ∃ d ds, s = d :: ds ∧ d ≠ '0' ∧ ∀ c ∈ s, c.isDigit = true

def FractionText (s : List Char) : Prop :=
  s = [] ∨ ∃ ds, s = '.' :: ds ∧ ds ≠ [] ∧ ∀ c ∈ ds, c.isDigit = true

/-- The text of a number without an exponent. -/
def DecimalText (s : List Char) : Prop :=
  ∃ sign int fraction, s = sign ++ int ++ fraction ∧ (sign = [] ∨ sign = ['-']) ∧ IntText int ∧
    FractionText fraction

/-- No number goes on here. -/
def Delimited (s : List Char) : Prop :=
  ∀ c ∈ s.head?, c.isDigit = false ∧ c ≠ '.' ∧ c ≠ 'e' ∧ c ≠ 'E'

theorem scanDigits_append {ds rest : List Char} (hds : ∀ c ∈ ds, c.isDigit = true)
    (hrest : ∀ c ∈ rest.head?, c.isDigit = false) : scanDigits (ds ++ rest) = (ds, rest) := by
  induction ds with
  | nil =>
    cases rest with
    | nil => rfl
    | cons c rest =>
      have hc := hrest c rfl
      rw [scanDigits, List.nil_append, List.takeWhile_cons_of_neg (by rw [hc]; decide),
        List.dropWhile_cons_of_neg (by rw [hc]; decide)]
  | cons d ds ih =>
    have hd := hds d (List.mem_cons_self ..)
    obtain ⟨htake, hdrop⟩ := Prod.mk.inj (ih fun c hc => hds c (List.mem_cons_of_mem d hc))
    rw [scanDigits, List.cons_append, List.takeWhile_cons_of_pos hd, List.dropWhile_cons_of_pos hd,
      htake, hdrop]

theorem IntText.head {s : List Char} (h : IntText s) : ∃ d ds, s = d :: ds ∧ d.isDigit = true := by
  rcases h with rfl | ⟨d, ds, rfl, -, hds⟩
  · exact ⟨'0', [], rfl, rfl⟩
  · exact ⟨d, ds, rfl, hds d (List.mem_cons_self ..)⟩

theorem scanInt_append {s rest : List Char} (h : IntText s)
    (hrest : ∀ c ∈ rest.head?, c.isDigit = false) : scanInt (s ++ rest) = some (s, rest) := by
  rcases h with rfl | ⟨d, ds, rfl, hzero, hds⟩
  · rfl
  · rw [List.cons_append, scanInt, if_neg hzero, if_pos (hds d (List.mem_cons_self ..)),
      ← List.cons_append, scanDigits_append hds hrest]

theorem scanFraction_append {s rest : List Char} (h : FractionText s) (hrest : Delimited rest) :
    scanFraction (s ++ rest) = some (s, rest) := by
  rcases h with rfl | ⟨ds, rfl, hne, hds⟩
  · have hdot : ¬rest.head? = some '.' := fun h => (hrest '.' h).2.1 rfl
    rw [List.nil_append, scanFraction, if_neg hdot]
  · rw [scanFraction, List.cons_append, List.head?_cons, if_pos rfl, List.drop_one, List.tail_cons,
      scanDigits_append hds fun c hc => (hrest c hc).1]
    exact if_neg hne

theorem scanExponent_delimited {rest : List Char} (hrest : Delimited rest) :
    scanExponent rest = some ([], rest) := by
  cases rest with
  | nil => rfl
  | cons c rest =>
    obtain ⟨-, -, he, hE⟩ := hrest c rfl
    rw [scanExponent, if_neg fun h => h.elim he hE]

theorem scanNumber_append {s rest : List Char} (h : DecimalText s) (hrest : Delimited rest) :
    scanNumber (s ++ rest) = some (s, rest) := by
  obtain ⟨sign, int, fraction, rfl, hsign, hint, hfraction⟩ := h
  have hsigned : scanSign (sign ++ int ++ fraction ++ rest) = (sign, int ++ (fraction ++ rest)) := by
    rcases hsign with rfl | rfl
    · obtain ⟨d, ds, rfl, hd⟩ := hint.head
      rw [List.nil_append, List.append_assoc, scanSign, if_neg]
      intro h
      rw [Option.some_inj.mp h] at hd
      cases hd
    · rw [List.append_assoc, List.append_assoc]
      rfl
  have hafter : ∀ c ∈ (fraction ++ rest).head?, c.isDigit = false := by
    rcases hfraction with rfl | ⟨ds, rfl, -, -⟩
    · exact fun c hc => (hrest c hc).1
    · intro c hc
      obtain rfl := Option.some_inj.mp hc
      rfl
  rw [scanNumber, hsigned]
  dsimp only
  rw [scanInt_append hint hafter]
  show ((scanFraction (fraction ++ rest)).bind fun fraction => _) = _
  rw [scanFraction_append hfraction hrest]
  show ((scanExponent rest).bind fun exponent => _) = _
  rw [scanExponent_delimited hrest]
  exact congrArg (fun s => some (s, rest)) (List.append_nil _)

theorem intText_toDigits (n : Nat) : IntText (Nat.toDigits 10 n) := by
  rcases Nat.eq_zero_or_pos n with rfl | hpos
  · exact .inl (Nat.toDigits_zero 10)
  · have hhead : ∃ d ds, Nat.toDigits 10 n = d :: ds ∧ d ≠ '0' := by
      induction n using Nat.strongRecOn with
      | ind n ih =>
        rw [Nat.toDigits_eq_if (by decide)]
        split
        next hlt =>
          refine ⟨n.digitChar, [], rfl, ?_⟩
          interval_cases n <;> decide
        next hge =>
          obtain ⟨d, ds, hdigits, hd⟩ := ih (n / 10) (by omega) (by omega)
          exact ⟨d, ds ++ [(n % 10).digitChar], by rw [hdigits, List.cons_append], hd⟩
    obtain ⟨d, ds, hdigits, hd⟩ := hhead
    exact .inr ⟨d, ds, hdigits, hd, fun c hc => Nat.isDigit_of_mem_toDigits (by decide) (by decide) hc⟩

theorem decimalText_toString (n : ℤ) : DecimalText (toString n).toList := by
  cases n with
  | ofNat n =>
    refine ⟨[], Nat.toDigits 10 n, [], ?_, .inl rfl, intText_toDigits n, .inl rfl⟩
    rw [List.append_nil, List.nil_append, ← Nat.toList_repr]
    rfl
  | negSucc n =>
    refine ⟨['-'], Nat.toDigits 10 (n + 1), [], ?_, .inr rfl, intText_toDigits (n + 1), .inl rfl⟩
    rw [List.append_nil, ← Nat.toList_repr]
    show ("-" ++ Nat.repr (n + 1)).toList = _
    rw [String.toList_append]
    rfl

/-! ## Reading values back -/

section compact

variable {N : Type} (number : List Char → N)

/-- What stands between the quotes of a string. -/
def StringBody (body value : List Char) : Prop :=
  ∀ rest, readString (body ++ '"' :: rest) = some (value, rest)

mutual

/-- The texts of a value without white space. -/
inductive Compact : JsonValue N → List Char → Prop where
  | null : Compact .null "null".toList
  | bool (value : Bool) : Compact (.bool value) (if value then "true" else "false").toList
  | number (text : List Char) (h : DecimalText text) : Compact (.number (number text)) text
  | string (value body : List Char) (h : StringBody body value) :
    Compact (.string value) ('"' :: body ++ ['"'])
  | array (values : List (JsonValue N)) (texts : List (List Char)) (h : CompactList values texts) :
    Compact (.array values) ('[' :: [','].intercalate texts ++ [']'])
  | object (members : List (List Char × JsonValue N)) (texts : List (List Char))
    (h : CompactMembers members texts) :
    Compact (.object members) ('{' :: [','].intercalate texts ++ ['}'])

inductive CompactList : List (JsonValue N) → List (List Char) → Prop where
  | nil : CompactList [] []
  | cons (value : JsonValue N) (text : List Char) (values : List (JsonValue N))
    (texts : List (List Char)) (hvalue : Compact value text) (h : CompactList values texts) :
    CompactList (value :: values) (text :: texts)

inductive CompactMembers : List (List Char × JsonValue N) → List (List Char) → Prop where
  | nil : CompactMembers [] []
  | cons (key body : List Char) (value : JsonValue N) (text : List Char)
    (members : List (List Char × JsonValue N)) (texts : List (List Char)) (hkey : StringBody body key)
    (hvalue : Compact value text) (h : CompactMembers members texts) :
    CompactMembers ((key, value) :: members) (('"' :: body ++ '"' :: ':' :: text) :: texts)

end

variable {number} {value : JsonValue N} {text : List Char} {values : List (JsonValue N)}
  {members : List (List Char × JsonValue N)} {texts : List (List Char)}

theorem skipWhitespace_cons {c : Char} (hc : isWhitespace c = false) (s : List Char) :
    skipWhitespace (c :: s) = c :: s :=
  List.dropWhile_cons_of_neg (by rw [hc]; decide)

theorem not_whitespace_of_isDigit {c : Char} (h : c.isDigit = true) : isWhitespace c = false := by
  by_contra hc
  rw [Bool.not_eq_false, isWhitespace] at hc
  simp only [Bool.or_eq_true, decide_eq_true_eq] at hc
  obtain ((rfl | rfl) | rfl) | rfl := hc <;> cases h

/-- No value starts with white space or a closing bracket. -/
theorem Compact.head (h : Compact number value text) :
    ∃ c s, text = c :: s ∧ isWhitespace c = false ∧ c ≠ ']' := by
  cases h with
  | null => exact ⟨'n', "ull".toList, rfl, rfl, by decide⟩
  | bool value =>
    cases value
    · exact ⟨'f', "alse".toList, rfl, rfl, by decide⟩
    · exact ⟨'t', "rue".toList, rfl, rfl, by decide⟩
  | number _ h =>
    obtain ⟨sign, int, fraction, rfl, hsign, hint, -⟩ := h
    obtain ⟨d, ds, rfl, hd⟩ := hint.head
    rcases hsign with rfl | rfl
    · refine ⟨d, ds ++ fraction, rfl, not_whitespace_of_isDigit hd, ?_⟩
      rintro rfl
      cases hd
    · exact ⟨'-', _, rfl, rfl, by decide⟩
  | string value body h => exact ⟨'"', _, rfl, rfl, by decide⟩
  | array values texts h => exact ⟨'[', _, rfl, rfl, by decide⟩
  | object members texts h => exact ⟨'{', _, rfl, rfl, by decide⟩

theorem CompactList.head (h : CompactList number values texts) (hne : texts ≠ []) :
    ∃ c s, [','].intercalate texts = c :: s ∧ isWhitespace c = false ∧ c ≠ ']' := by
  cases h with
  | nil => exact absurd rfl hne
  | cons value text values texts hvalue h =>
    obtain ⟨c, s, rfl, hc⟩ := hvalue.head
    cases texts with
    | nil => exact ⟨c, s, List.intercalate_singleton, hc⟩
    | cons _ _ => exact ⟨c, _, List.intercalate_cons_cons, hc⟩

theorem CompactMembers.head (h : CompactMembers number members texts) (hne : texts ≠ []) :
    ∃ s, [','].intercalate texts = '"' :: s := by
  cases h with
  | nil => exact absurd rfl hne
  | cons key body value text members texts hkey hvalue h =>
    cases texts with
    | nil => exact ⟨_, List.intercalate_singleton⟩
    | cons _ _ => exact ⟨_, List.intercalate_cons_cons⟩

def Reads (number : List Char → N) (value : JsonValue N) (text : List Char) : Prop :=
  ∀ fuel rest, 2 * text.length ≤ fuel → Delimited rest →
    readValue number fuel (text ++ rest) = some (value, rest)

def ReadsElements (number : List Char → N) (values : List (JsonValue N)) (texts : List (List Char)) :
    Prop :=
  texts ≠ [] → ∀ fuel rest, 2 * ([','].intercalate texts).length < fuel →
    readElements number fuel ([','].intercalate texts ++ ']' :: rest) = some (values, rest)

def ReadsMembers (number : List Char → N) (members : List (List Char × JsonValue N))
    (texts : List (List Char)) : Prop :=
  texts ≠ [] → ∀ fuel rest, 2 * ([','].intercalate texts).length < fuel →
    readMembers number fuel ([','].intercalate texts ++ '}' :: rest) = some (members, rest)

theorem delimited_cons {c : Char} (hdigit : c.isDigit = false) (hdot : c ≠ '.') (he : c ≠ 'e')
    (hE : c ≠ 'E') (rest : List Char) : Delimited (c :: rest) := by
  intro d hd
  obtain rfl := Option.some_inj.mp hd
  exact ⟨hdigit, hdot, he, hE⟩

theorem readsElements_cons (hvalue : Reads number value text) (hlist : CompactList number values texts)
    (h : ReadsElements number values texts) :
    ReadsElements number (value :: values) (text :: texts) := by
  intro _ fuel rest hfuel
  obtain ⟨fuel, rfl⟩ : ∃ n, fuel = n + 1 := ⟨fuel - 1, by omega⟩
  cases hlist with
  | nil =>
    rw [List.intercalate_singleton] at hfuel ⊢
    rw [readElements, hvalue fuel _ (by omega) (delimited_cons rfl (by decide) (by decide) (by decide) _)]
    rfl
  | cons next text' values texts hnext hrest =>
    rw [List.intercalate_cons_cons] at hfuel ⊢
    have hlist := CompactList.cons next text' values texts hnext hrest
    obtain ⟨c, s, hcs, hc, -⟩ := hlist.head (List.cons_ne_nil _ _)
    rw [List.length_append, List.length_append, List.length_singleton] at hfuel
    have hmore := h (List.cons_ne_nil _ _) fuel rest (by omega)
    rw [List.append_assoc, List.append_assoc, List.singleton_append, readElements,
      hvalue fuel _ (by omega) (delimited_cons rfl (by decide) (by decide) (by decide) _)]
    show ((readElements number fuel (skipWhitespace ([','].intercalate (text' :: texts) ++ ']' :: rest))).map _) = _
    rw [hcs, List.cons_append, skipWhitespace_cons hc, ← List.cons_append, ← hcs, hmore]
    rfl

theorem DecimalText.head (h : DecimalText text) : ∃ c s, text = c :: s ∧ (c = '-' ∨ c.isDigit = true) := by
  obtain ⟨sign, int, fraction, rfl, hsign, hint, -⟩ := h
  obtain ⟨d, ds, rfl, hd⟩ := hint.head
  rcases hsign with rfl | rfl
  · exact ⟨d, ds ++ fraction, rfl, .inr hd⟩
  · exact ⟨'-', _, rfl, .inl rfl⟩

theorem readLiteral_eq_none {c : Char} (hn : c ≠ 'n') (ht : c ≠ 't') (hf : c ≠ 'f') (s : List Char) :
    (readLiteral (c :: s) : Option (JsonValue N × List Char)) = none := by
  have hprefix : ∀ d ds, c ≠ d → ¬(d :: ds).isPrefixOf (c :: s) = true := by
    intro d ds hne h
    obtain ⟨more, hmore⟩ := List.isPrefixOf_iff_prefix.mp h
    exact hne (List.cons.inj hmore).1.symm
  have hnull : ¬"null".toList.isPrefixOf (c :: s) = true := hprefix 'n' "ull".toList hn
  have htrue : ¬"true".toList.isPrefixOf (c :: s) = true := hprefix 't' "rue".toList ht
  have hfalse : ¬"false".toList.isPrefixOf (c :: s) = true := hprefix 'f' "alse".toList hf
  rw [readLiteral, if_neg hnull, if_neg htrue, if_neg hfalse]

theorem reads_literal {c : Char} {s : List Char} (hquote : c ≠ '"') (hbracket : c ≠ '[') (hbrace : c ≠ '{')
    (h : ∀ rest, Delimited rest →
      (readLiteral (c :: s ++ rest)).or (readNumber number (c :: s ++ rest)) = some (value, rest)) :
    Reads number value (c :: s) := by
  intro fuel rest hfuel hrest
  rw [List.length_cons] at hfuel
  obtain ⟨fuel, rfl⟩ : ∃ n, fuel = n + 1 := ⟨fuel - 1, by omega⟩
  rw [List.cons_append, readValue, if_neg hquote, if_neg hbracket, if_neg hbrace]
  exact h rest hrest

theorem reads_number (h : DecimalText text) : Reads number (.number (number text)) text := by
  have htext := h
  obtain ⟨c, s, rfl, hc⟩ := h.head
  have hne : ∀ d : Char, d ≠ '-' → d.isDigit = false → c ≠ d := by
    rintro d hdash hdigit rfl
    rcases hc with hc | hc
    · exact hdash hc
    · rw [hdigit] at hc
      cases hc
  refine reads_literal (hne _ (by decide) rfl) (hne _ (by decide) rfl) (hne _ (by decide) rfl) ?_
  intro rest hrest
  have hnone := readLiteral_eq_none (N := N) (hne 'n' (by decide) rfl) (hne 't' (by decide) rfl)
    (hne 'f' (by decide) rfl) (s ++ rest)
  rw [List.cons_append, hnone, Option.none_or, readNumber, ← List.cons_append,
    scanNumber_append htext hrest]
  rfl

theorem reads_string {value body : List Char} (h : StringBody body value) :
    Reads number (.string value) ('"' :: body ++ ['"']) := by
  intro fuel rest hfuel _
  obtain ⟨fuel, rfl⟩ : ∃ n, fuel = n + 1 :=
    ⟨fuel - 1, by rw [List.length_append, List.length_cons] at hfuel; omega⟩
  rw [List.append_assoc, List.cons_append, readValue, if_pos rfl, List.singleton_append, h rest]
  rfl

theorem reads_array (hlist : CompactList number values texts) (h : ReadsElements number values texts) :
    Reads number (.array values) ('[' :: [','].intercalate texts ++ [']']) := by
  intro fuel rest hfuel _
  rw [List.length_append, List.length_cons, List.length_singleton] at hfuel
  obtain ⟨fuel, rfl⟩ : ∃ n, fuel = n + 1 := ⟨fuel - 1, by omega⟩
  rw [List.append_assoc, List.cons_append, readValue, if_neg (by decide), if_pos rfl,
    List.singleton_append]
  cases hlist with
  | nil => rfl
  | cons next text values texts hnext hrest =>
    obtain ⟨c, s, hcs, hc, hbracket⟩ := (CompactList.cons next text values texts hnext hrest).head
      (List.cons_ne_nil _ _)
    have hmore := h (List.cons_ne_nil _ _) fuel rest (by omega)
    rw [hcs, List.cons_append] at hmore
    rw [hcs, List.cons_append, skipWhitespace_cons hc]
    dsimp only
    rw [List.head?_cons, if_neg fun h => hbracket (Option.some_inj.mp h), hmore]
    rfl

/-- What a member reads as, up to what follows its value. -/
theorem readMembers_succ {key body : List Char} (hkey : StringBody body key)
    (hvalue : Reads number value text) {fuel : Nat} {rest : List Char} (hfuel : 2 * text.length ≤ fuel)
    (hrest : Delimited rest) (htext : ∃ c s, text = c :: s ∧ isWhitespace c = false) :
    readMembers number (fuel + 1) ('"' :: body ++ '"' :: ':' :: text ++ rest) =
      (if (skipWhitespace rest).head? = some ',' then
        (readMembers number fuel (skipWhitespace ((skipWhitespace rest).drop 1))).map
          fun parts => ((key, value) :: parts.1, parts.2)
      else if (skipWhitespace rest).head? = some '}' then
        some ([(key, value)], (skipWhitespace rest).drop 1)
      else none) := by
  obtain ⟨c, s, hcs, hc⟩ := htext
  have hkeyed : readKey ('"' :: body ++ '"' :: ':' :: text ++ rest) =
      some (key, ':' :: (text ++ rest)) := by
    rw [List.append_assoc, List.cons_append]
    exact hkey _
  have hcolon : skipColon (':' :: (text ++ rest)) = some (text ++ rest) := by
    rw [skipColon, skipWhitespace_cons rfl, List.head?_cons, if_pos rfl, List.drop_one, List.tail_cons,
      hcs, List.cons_append, skipWhitespace_cons hc]
  rw [readMembers, hkeyed]
  show ((skipColon (':' :: (text ++ rest))).bind fun colon => _) = _
  rw [hcolon]
  show ((readValue number fuel (text ++ rest)).bind fun value => _) = _
  rw [hvalue fuel rest hfuel hrest]
  rfl

theorem readsMembers_cons {key body : List Char} (hkey : StringBody body key)
    (hcompact : Compact number value text) (hvalue : Reads number value text)
    (hlist : CompactMembers number members texts) (h : ReadsMembers number members texts) :
    ReadsMembers number ((key, value) :: members) (('"' :: body ++ '"' :: ':' :: text) :: texts) := by
  intro _ fuel rest hfuel
  obtain ⟨fuel, rfl⟩ : ∃ n, fuel = n + 1 := ⟨fuel - 1, by omega⟩
  obtain ⟨c, s, hcs, hc, -⟩ := hcompact.head
  have hlength : text.length ≤ ('"' :: body ++ '"' :: ':' :: text).length := by
    simp only [List.length_append, List.length_cons]
    omega
  cases hlist with
  | nil =>
    rw [List.intercalate_singleton] at hfuel ⊢
    rw [readMembers_succ hkey hvalue (by omega)
      (delimited_cons rfl (by decide) (by decide) (by decide) _) ⟨c, s, hcs, hc⟩]
    rfl
  | cons key' body' value' text' members texts hkey' hvalue' hrest =>
    obtain ⟨s', hs'⟩ := (CompactMembers.cons key' body' value' text' members texts hkey' hvalue'
      hrest).head (List.cons_ne_nil _ _)
    rw [List.intercalate_cons_cons] at hfuel ⊢
    rw [List.length_append, List.length_append, List.length_singleton] at hfuel
    have hmore := h (List.cons_ne_nil _ _) fuel rest (by omega)
    rw [List.append_assoc, List.append_assoc, List.singleton_append,
      readMembers_succ hkey hvalue (by omega)
        (delimited_cons rfl (by decide) (by decide) (by decide) _) ⟨c, s, hcs, hc⟩,
      skipWhitespace_cons rfl, List.head?_cons, if_pos rfl, List.drop_one, List.tail_cons]
    rw [hs', List.cons_append] at hmore ⊢
    rw [skipWhitespace_cons rfl, hmore]
    rfl

theorem reads_object (hlist : CompactMembers number members texts)
    (h : ReadsMembers number members texts) :
    Reads number (.object members) ('{' :: [','].intercalate texts ++ ['}']) := by
  intro fuel rest hfuel _
  rw [List.length_append, List.length_cons, List.length_singleton] at hfuel
  obtain ⟨fuel, rfl⟩ : ∃ n, fuel = n + 1 := ⟨fuel - 1, by omega⟩
  rw [List.append_assoc, List.cons_append, readValue, if_neg (by decide), if_neg (by decide),
    if_pos rfl, List.singleton_append]
  cases hlist with
  | nil => rfl
  | cons key body value text members texts hkey hvalue hrest =>
    obtain ⟨s, hs⟩ := (CompactMembers.cons key body value text members texts hkey hvalue hrest).head
      (List.cons_ne_nil _ _)
    have hmore := h (List.cons_ne_nil _ _) fuel rest (by omega)
    rw [hs, List.cons_append] at hmore ⊢
    rw [skipWhitespace_cons rfl]
    dsimp only
    rw [List.head?_cons, if_neg (by decide), hmore]
    rfl

theorem reads_bool (value : Bool) :
    Reads number (.bool value) (if value then "true" else "false").toList := by
  cases value
  · exact reads_literal (c := 'f') (s := "alse".toList) (by decide) (by decide) (by decide) fun _ _ => rfl
  · exact reads_literal (c := 't') (s := "rue".toList) (by decide) (by decide) (by decide) fun _ _ => rfl

/-- A text without white space is read as its value. -/
theorem Compact.reads (h : Compact number value text) : Reads number value text := by
  refine @Compact.rec N number (fun value text _ => Reads number value text)
    (fun values texts _ => ReadsElements number values texts)
    (fun members texts _ => ReadsMembers number members texts)
    ?null ?bool ?number ?string ?array ?object ?nil ?cons ?noMember ?member value text h
  case null =>
    exact reads_literal (c := 'n') (s := "ull".toList) (by decide) (by decide) (by decide) fun _ _ => rfl
  case bool => exact reads_bool
  case number => exact fun text h => reads_number h
  case string => exact fun value body h => reads_string h
  case array => exact fun values texts hlist h => reads_array hlist h
  case object => exact fun members texts hlist h => reads_object hlist h
  case nil => exact fun hne => absurd rfl hne
  case cons =>
    exact fun value text values texts _ hlist hvalue h => readsElements_cons hvalue hlist h
  case noMember => exact fun hne => absurd rfl hne
  case member =>
    exact fun key body value text members texts hkey hcompact hlist hvalue h =>
      readsMembers_cons hkey hcompact hvalue hlist h

theorem Compact.decode (h : Compact number value text) : decode number text = some value := by
  obtain ⟨c, s, hcs, hc, -⟩ := h.head
  have hread := h.reads (2 * text.length + 1) [] (by omega) fun c hc => by cases hc
  rw [List.append_nil] at hread
  rw [JsonValue.decode, hcs, skipWhitespace_cons hc, ← hcs, hread]
  rfl

end compact
end JsonValue
end Rust
