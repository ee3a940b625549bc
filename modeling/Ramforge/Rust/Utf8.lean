/-
UTF-8 in `std::str`.

A scan reads one character: the bytes are one, cannot be one, or end too early.  The
text of bytes with errors has one U+FFFD for each part that cannot be a character.
-/
import Mathlib.Tactic

namespace Rust
namespace Utf8

/-- `str::as_bytes`. -/
def encode (s : List Char) : List UInt8 := s.flatMap String.utf8EncodeChar

/-- `str::len`. -/
def len (s : List Char) : Nat := (encode s).length

inductive Scan where
  | char (length : Nat)
  | invalid (length : Nat)
  | incomplete
deriving DecidableEq, Repr

/-- How many bytes follow the first one, and the range of the next. -/
def lead (first : Nat) : Option (Nat × Nat × Nat) :=
  if first < 0x80 then some (0, 0x80, 0xBF)
  else if first < 0xC2 then none
  else if first < 0xE0 then some (1, 0x80, 0xBF)
  else if first = 0xE0 then some (2, 0xA0, 0xBF)
  else if first = 0xED then some (2, 0x80, 0x9F)
  else if first < 0xF0 then some (2, 0x80, 0xBF)
  else if first = 0xF0 then some (3, 0x90, 0xBF)
  else if first < 0xF4 then some (3, 0x80, 0xBF)
  else if first = 0xF4 then some (3, 0x80, 0x8F)
  else none

/-- The bytes after the first `read` ones; `more` of them belong to the character. -/
def scanTail : Nat → Nat → Nat → Nat → List UInt8 → Scan
  | read, 0, _, _, _ => .char read
  | _, _ + 1, _, _, [] => .incomplete
  | read, more + 1, low, high, b :: rest =>
    if low ≤ b.toNat ∧ b.toNat ≤ high then scanTail (read + 1) more 0x80 0xBF rest
    else .invalid read

def scan : List UInt8 → Scan
  | [] => .incomplete
  | first :: rest =>
    match lead first.toNat with
    | none => .invalid 1
    | some (more, low, high) => scanTail 1 more low high rest

/-- The bits of the first byte that belong to the character. -/
def leadBits (first : Nat) : Nat :=
  if first < 0x80 then first
  else if first < 0xE0 then first % 32
  else if first < 0xF0 then first % 16
  else first % 8

/-- The character of its bytes. -/
def charOf : List UInt8 → Char
  | [] => default
  | first :: rest =>
    Char.ofNat (rest.foldl (fun value b => value * 64 + b.toNat % 64) (leadBits first.toNat))

/-- The loop of `str::from_utf8`: the characters of the valid prefix, and the bytes after it. -/
def validFrom : Nat → List UInt8 → List Char × List UInt8
  | 0, bytes => ([], bytes)
  | fuel + 1, bytes =>
    match scan bytes with
    | .char n =>
      let rest := validFrom fuel (bytes.drop n)
      (charOf (bytes.take n) :: rest.1, rest.2)
    | _ => ([], bytes)

structure Utf8Error where
  validUpTo : Nat
  errorLen : Option Nat
deriving DecidableEq, Repr

/-- `str::from_utf8`. -/
def fromUtf8 (bytes : List UInt8) : Except Utf8Error (List Char) :=
  let (valid, rest) := validFrom bytes.length bytes
  if rest = [] then .ok valid
  else .error
    { validUpTo := bytes.length - rest.length
      errorLen :=
        match scan rest with
        | .invalid n => some n
        | _ => none }

/-- The text no later byte can change, and the bytes of the character that is not complete. -/
def settleFrom : Nat → List UInt8 → List Char × List UInt8
  | 0, bytes => ([], bytes)
  | fuel + 1, bytes =>
    match scan bytes with
    | .char n =>
      let rest := settleFrom fuel (bytes.drop n)
      (charOf (bytes.take n) :: rest.1, rest.2)
    | .invalid n =>
      let rest := settleFrom fuel (bytes.drop n)
      ('\uFFFD' :: rest.1, rest.2)
    | .incomplete => ([], bytes)

def settle (bytes : List UInt8) : List Char × List UInt8 := settleFrom bytes.length bytes

/-- `String::from_utf8_lossy`. -/
def lossy (bytes : List UInt8) : List Char :=
  (settle bytes).1 ++ if (settle bytes).2 = [] then [] else ['\uFFFD']

/-! ## The scan -/

variable {bytes more : List UInt8} {n read owed low high : Nat}

theorem scanTail_char {bytes : List UInt8} (h : scanTail read owed low high bytes = .char n) :
    n = read + owed ∧ owed ≤ bytes.length := by
  induction bytes generalizing read owed low high with
  | nil =>
    cases owed with
    | zero => cases h; exact ⟨rfl, Nat.le_refl _⟩
    | succ owed => cases h
  | cons b bytes ih =>
    cases owed with
    | zero => cases h; exact ⟨rfl, Nat.zero_le _⟩
    | succ owed =>
      rw [scanTail] at h
      split at h
      · obtain ⟨hn, hle⟩ := ih h
        rw [List.length_cons]
        omega
      · cases h

theorem scanTail_invalid {bytes : List UInt8} (h : scanTail read owed low high bytes = .invalid n) :
    read ≤ n ∧ n ≤ read + bytes.length := by
  induction bytes generalizing read owed low high with
  | nil => cases owed <;> cases h
  | cons b bytes ih =>
    cases owed with
    | zero => cases h
    | succ owed =>
      rw [scanTail] at h
      rw [List.length_cons]
      split at h
      · have := ih h
        omega
      · cases h
        omega

/-- A scan that does not run out of bytes does not look at the ones after it. -/
theorem scanTail_append {bytes : List UInt8} (h : scanTail read owed low high bytes ≠ .incomplete)
    (more : List UInt8) :
    scanTail read owed low high (bytes ++ more) = scanTail read owed low high bytes := by
  induction bytes generalizing read owed low high with
  | nil =>
    cases owed with
    | zero => rw [List.nil_append, scanTail, scanTail]
    | succ owed => exact absurd rfl h
  | cons b bytes ih =>
    cases owed with
    | zero => rw [scanTail, scanTail]
    | succ owed =>
      rw [scanTail] at h
      rw [List.cons_append, scanTail, scanTail]
      split
      next hb =>
        rw [if_pos hb] at h
        exact ih h
      next => rfl

/-- A character that is not complete cannot go on with a byte outside 0x80..0xBF. -/
theorem scanTail_cut {bytes : List UInt8} {b : UInt8}
    (h : scanTail read owed low high bytes = .incomplete) (hlow : 0x80 ≤ low) (hhigh : high ≤ 0xBF)
    (hb : ¬(0x80 ≤ b.toNat ∧ b.toNat ≤ 0xBF)) (more : List UInt8) :
    scanTail read owed low high (bytes ++ b :: more) = .invalid (read + bytes.length) := by
  induction bytes generalizing read owed low high with
  | nil =>
    cases owed with
    | zero => cases h
    | succ owed =>
      rw [List.nil_append, scanTail, if_neg (by omega)]
      rfl
  | cons c bytes ih =>
    cases owed with
    | zero => cases h
    | succ owed =>
      rw [scanTail] at h
      rw [List.cons_append, scanTail, List.length_cons]
      split
      next hc =>
        rw [if_pos hc] at h
        rw [ih h (Nat.le_refl _) (Nat.le_refl _), Nat.add_assoc, Nat.add_comm 1]
      next hc =>
        rw [if_neg hc] at h
        cases h

theorem lead_range {first : Nat} {expected : Nat × Nat × Nat} (h : lead first = some expected) :
    0x80 ≤ expected.2.1 ∧ expected.2.2 ≤ 0xBF := by
  unfold lead at h
  repeat'
    split at h
  all_goals
    cases h
    try exact ⟨by decide, by decide⟩

theorem scan_char (h : scan bytes = .char n) : 0 < n ∧ n ≤ bytes.length := by
  cases bytes with
  | nil => cases h
  | cons first rest =>
    rw [scan] at h
    split at h
    · cases h
    · have := scanTail_char h
      rw [List.length_cons]
      omega

theorem scan_invalid (h : scan bytes = .invalid n) : 0 < n ∧ n ≤ bytes.length := by
  cases bytes with
  | nil => cases h
  | cons first rest =>
    rw [scan] at h
    rw [List.length_cons]
    split at h
    · cases h
      omega
    · have := scanTail_invalid h
      omega

theorem scan_append (h : scan bytes ≠ .incomplete) (more : List UInt8) :
    scan (bytes ++ more) = scan bytes := by
  cases bytes with
  | nil => exact absurd rfl h
  | cons first rest =>
    rw [scan] at h
    rw [List.cons_append, scan, scan]
    split at h
    · rfl
    · exact scanTail_append h more

theorem scan_cut {b : UInt8} (hbytes : bytes ≠ []) (h : scan bytes = .incomplete)
    (hb : ¬(0x80 ≤ b.toNat ∧ b.toNat ≤ 0xBF)) (more : List UInt8) :
    scan (bytes ++ b :: more) = .invalid bytes.length := by
  cases bytes with
  | nil => exact absurd rfl hbytes
  | cons first rest =>
    rw [scan] at h
    rw [List.cons_append, scan]
    split at h
    · cases h
    next hlead =>
      obtain ⟨hlow, hhigh⟩ := lead_range hlead
      rw [scanTail_cut h hlow hhigh hb more, List.length_cons, Nat.add_comm]

/-! ## Settled text -/

/-- Induction along the characters and errors of the bytes. -/
theorem scanInduction {P : List UInt8 → Prop}
    (incomplete : ∀ bytes, scan bytes = .incomplete → P bytes)
    (char : ∀ bytes n, scan bytes = .char n → P (bytes.drop n) → P bytes)
    (invalid : ∀ bytes n, scan bytes = .invalid n → P (bytes.drop n) → P bytes)
    (bytes : List UInt8) : P bytes := by
  induction hlength : bytes.length using Nat.strong_induction_on generalizing bytes with
  | _ length ih =>
    cases hscan : scan bytes with
    | incomplete => exact incomplete bytes hscan
    | char n =>
      have := scan_char hscan
      exact char bytes n hscan (ih _ (by rw [List.length_drop]; omega) _ rfl)
    | invalid n =>
      have := scan_invalid hscan
      exact invalid bytes n hscan (ih _ (by rw [List.length_drop]; omega) _ rfl)

theorem settleFrom_of_le {k l : Nat} (h : bytes.length ≤ k) (h' : bytes.length ≤ l) :
    settleFrom k bytes = settleFrom l bytes := by
  induction bytes using scanInduction generalizing k l with
  | incomplete bytes hscan =>
    have hstop : ∀ k, settleFrom k bytes = ([], bytes) := by
      intro k
      cases k with
      | zero => rfl
      | succ k => rw [settleFrom, hscan]
    rw [hstop, hstop]
  | char bytes n hscan ih =>
    have hn := scan_char hscan
    obtain _ | k := k
    · omega
    obtain _ | l := l
    · omega
    have hlength := List.length_drop (i := n) (l := bytes)
    rw [settleFrom, settleFrom, hscan]
    simp only
    rw [ih (k := k) (l := l) (by omega) (by omega)]
  | invalid bytes n hscan ih =>
    have hn := scan_invalid hscan
    obtain _ | k := k
    · omega
    obtain _ | l := l
    · omega
    have hlength := List.length_drop (i := n) (l := bytes)
    rw [settleFrom, settleFrom, hscan]
    simp only
    rw [ih (k := k) (l := l) (by omega) (by omega)]

theorem settle_incomplete (h : scan bytes = .incomplete) : settle bytes = ([], bytes) := by
  unfold settle
  cases bytes.length with
  | zero => rfl
  | succ fuel => rw [settleFrom, h]

theorem settle_char (h : scan bytes = .char n) :
    settle bytes =
      (charOf (bytes.take n) :: (settle (bytes.drop n)).1, (settle (bytes.drop n)).2) := by
  have hn := scan_char h
  have hlength := List.length_drop (i := n) (l := bytes)
  rw [settle, settleFrom_of_le (Nat.le_refl _) (Nat.le_succ _), settleFrom, h, settle]
  simp only
  rw [settleFrom_of_le (k := bytes.length) (l := (bytes.drop n).length)
    (by omega) (by omega)]

theorem settle_invalid (h : scan bytes = .invalid n) :
    settle bytes = ('\uFFFD' :: (settle (bytes.drop n)).1, (settle (bytes.drop n)).2) := by
  have hn := scan_invalid h
  have hlength := List.length_drop (i := n) (l := bytes)
  rw [settle, settleFrom_of_le (Nat.le_refl _) (Nat.le_succ _), settleFrom, h, settle]
  simp only
  rw [settleFrom_of_le (k := bytes.length) (l := (bytes.drop n).length)
    (by omega) (by omega)]

/-- Settling goes on where it stopped. -/
theorem settle_append (bytes more : List UInt8) :
    settle (bytes ++ more) =
      ((settle bytes).1 ++ (settle ((settle bytes).2 ++ more)).1,
        (settle ((settle bytes).2 ++ more)).2) := by
  induction bytes using scanInduction with
  | incomplete bytes hscan => rw [settle_incomplete hscan, List.nil_append]
  | char bytes n hscan ih =>
    have hn := scan_char hscan
    have happend : scan (bytes ++ more) = .char n := by
      rw [scan_append (by rw [hscan]; exact nofun), hscan]
    rw [settle_char happend, settle_char hscan, List.drop_append_of_le_length hn.2,
      List.take_append_of_le_length hn.2, ih, List.cons_append]
  | invalid bytes n hscan ih =>
    have hn := scan_invalid hscan
    have happend : scan (bytes ++ more) = .invalid n := by
      rw [scan_append (by rw [hscan]; exact nofun), hscan]
    rw [settle_invalid happend, settle_invalid hscan, List.drop_append_of_le_length hn.2, ih,
      List.cons_append]

theorem scan_rest (bytes : List UInt8) : scan (settle bytes).2 = .incomplete := by
  induction bytes using scanInduction with
  | incomplete bytes hscan => rw [settle_incomplete hscan, hscan]
  | char bytes n hscan ih => rw [settle_char hscan, ih]
  | invalid bytes n hscan ih => rw [settle_invalid hscan, ih]

@[simp] theorem settle_nil : settle [] = ([], []) := rfl

@[simp] theorem lossy_nil : lossy [] = [] := rfl

/-- Bytes that start no later byte of a character end what stands before them. -/
theorem settle_cut {b : UInt8} (hb : ¬(0x80 ≤ b.toNat ∧ b.toNat ≤ 0xBF)) (bytes more : List UInt8) :
    settle (bytes ++ b :: more) =
      (lossy bytes ++ (settle (b :: more)).1, (settle (b :: more)).2) := by
  rw [settle_append, lossy]
  by_cases hrest : (settle bytes).2 = []
  · rw [if_pos hrest, hrest, List.append_nil, List.nil_append]
  · rw [if_neg hrest, settle_invalid (scan_cut hrest (scan_rest bytes) hb more),
      List.drop_left, List.append_assoc]
    rfl

theorem lossy_cut {b : UInt8} (hb : ¬(0x80 ≤ b.toNat ∧ b.toNat ≤ 0xBF)) (bytes more : List UInt8) :
    lossy (bytes ++ b :: more) = lossy bytes ++ lossy (b :: more) := by
  rw [lossy, settle_cut hb, List.append_assoc]
  rfl

/-! ## The valid prefix -/

theorem validFrom_char {fuel : Nat} (h : scan bytes = .char n) :
    validFrom (fuel + 1) bytes = (charOf (bytes.take n) :: (validFrom fuel (bytes.drop n)).1,
      (validFrom fuel (bytes.drop n)).2) := by
  rw [validFrom, h]

theorem scanTail_take {bytes : List UInt8} (h : scanTail read owed low high bytes = .char n) :
    scanTail read owed low high (bytes.take owed) = .char n := by
  induction bytes generalizing read owed low high with
  | nil => rwa [List.take_nil]
  | cons b bytes ih =>
    cases owed with
    | zero => exact h
    | succ owed =>
      rw [scanTail] at h
      rw [List.take_succ_cons, scanTail]
      split at h
      next hb => rw [if_pos hb, ih h]
      next => cases h

theorem scan_take (h : scan bytes = .char n) : scan (bytes.take n) = .char n := by
  cases bytes with
  | nil => cases h
  | cons first rest =>
    rw [scan] at h
    split at h
    · cases h
    next owed low high hlead =>
      obtain rfl := (scanTail_char h).1
      rw [Nat.add_comm, List.take_succ_cons, scan, hlead]
      simp only
      rw [scanTail_take h, Nat.add_comm]

/-- What the loop took, and where it stopped. -/
structure Valid (bytes : List UInt8) (cs : List Char) (rest : List UInt8) : Prop where
  split : ∃ taken, bytes = taken ++ rest ∧
    ∀ fuel, taken.length ≤ fuel → validFrom fuel taken = (cs, [])
  settled : settle bytes = (cs ++ (settle rest).1, (settle rest).2)
  stopped : ∀ n, scan rest ≠ .char n

theorem valid_of_not_char (h : ∀ n, scan bytes ≠ .char n) : Valid bytes [] bytes where
  split := by
    refine ⟨[], rfl, fun fuel _ => ?_⟩
    cases fuel <;> rfl
  settled := rfl
  stopped := h

theorem valid_validFrom {k : Nat} (h : bytes.length ≤ k) :
    Valid bytes (validFrom k bytes).1 (validFrom k bytes).2 := by
  have hstop : ∀ {bytes : List UInt8}, (∀ n, scan bytes ≠ .char n) → ∀ k,
      validFrom k bytes = ([], bytes) := by
    intro bytes hscan k
    cases k with
    | zero => rfl
    | succ k =>
      rw [validFrom]
      split
      next hn => exact absurd hn (hscan _)
      next => rfl
  induction bytes using scanInduction generalizing k with
  | incomplete bytes hscan =>
    have hchar : ∀ n, scan bytes ≠ .char n := fun n => by rw [hscan]; exact nofun
    rw [hstop hchar]
    exact valid_of_not_char hchar
  | invalid bytes n hscan ih =>
    have hchar : ∀ n, scan bytes ≠ .char n := fun n => by rw [hscan]; exact nofun
    rw [hstop hchar]
    exact valid_of_not_char hchar
  | char bytes n hscan ih =>
    have hn := scan_char hscan
    obtain _ | k := k
    · omega
    have hlength := List.length_drop (i := n) (l := bytes)
    obtain ⟨⟨taken, hsplit, htaken⟩, hsettled, hstopped⟩ := ih (k := k) (by omega)
    rw [validFrom_char hscan]
    refine ⟨⟨bytes.take n ++ taken, ?_, fun l hl => ?_⟩, ?_, hstopped⟩
    · rw [List.append_assoc, ← hsplit, List.take_append_drop]
    · have htake : (bytes.take n).length = n := List.length_take_of_le hn.2
      rw [List.length_append, htake] at hl
      obtain _ | l := l
      · omega
      have hfirst : scan (bytes.take n ++ taken) = .char n := by
        rw [scan_append (by rw [scan_take hscan]; exact nofun), scan_take hscan]
      rw [validFrom_char hfirst, List.take_left' htake, List.drop_left' htake,
        htaken l (by omega)]
    · rw [settle_char hscan, hsettled]
      rfl

theorem fromUtf8_ok {valid : List Char} (h : fromUtf8 bytes = .ok valid) :
    settle bytes = (valid, []) := by
  obtain ⟨-, hsettled, -⟩ := valid_validFrom (Nat.le_refl bytes.length)
  unfold fromUtf8 at h
  simp only at h
  split at h
  next hrest =>
    cases h
    rw [hsettled, hrest, settle_nil, List.append_nil]
  next => cases h

theorem fromUtf8_error {e : Utf8Error} (h : fromUtf8 bytes = .error e) :
    ∃ cs rest, rest ≠ [] ∧ Valid bytes cs rest ∧ e.validUpTo = bytes.length - rest.length ∧
      (∀ n, e.errorLen = some n → scan rest = .invalid n) ∧
      (e.errorLen = none → scan rest = .incomplete) := by
  have hvalid := valid_validFrom (Nat.le_refl bytes.length)
  unfold fromUtf8 at h
  simp only at h
  split at h
  next => cases h
  next hrest =>
    cases h
    refine ⟨_, _, hrest, hvalid, rfl, fun n => ?_, ?_⟩
    · simp only
      split
      next m hscan =>
        intro hm
        cases hm
        exact hscan
      next => exact nofun
    · simp only
      split
      next => exact nofun
      next hscan =>
        intro
        cases hcase : scan (validFrom bytes.length bytes).2 with
        | char n => exact absurd hcase (hvalid.stopped n)
        | invalid n => exact absurd hcase (hscan n)
        | incomplete => rfl

/-- The prefix that an error reports is valid. -/
theorem fromUtf8_validUpTo {e : Utf8Error} (h : fromUtf8 bytes = .error e) :
    ∃ valid, fromUtf8 (bytes.take e.validUpTo) = .ok valid ∧
      settle bytes = (valid ++ (settle (bytes.drop e.validUpTo)).1,
        (settle (bytes.drop e.validUpTo)).2) := by
  obtain ⟨cs, rest, -, ⟨⟨taken, rfl, htaken⟩, hsettled, -⟩, hupTo, -⟩ := fromUtf8_error h
  rw [List.length_append, Nat.add_sub_cancel] at hupTo
  refine ⟨cs, ?_, ?_⟩
  · rw [hupTo, List.take_left, fromUtf8, htaken _ (Nat.le_refl _)]
    rfl
  · rw [hupTo, List.drop_left, hsettled]

theorem fromUtf8_errorLen {e : Utf8Error} (h : fromUtf8 bytes = .error e) (hupTo : e.validUpTo = 0) :
    bytes ≠ [] ∧ (∀ n, e.errorLen = some n → scan bytes = .invalid n) ∧
      (e.errorLen = none → scan bytes = .incomplete) := by
  obtain ⟨cs, rest, hrest, ⟨⟨taken, rfl, -⟩, -, -⟩, hlength, hinvalid, hincomplete⟩ :=
    fromUtf8_error h
  rw [List.length_append, Nat.add_sub_cancel, hupTo] at hlength
  obtain rfl := List.eq_nil_of_length_eq_zero hlength.symm
  exact ⟨by rwa [List.nil_append], hinvalid, hincomplete⟩

/-! ## Encoded characters -/

theorem char_range (c : Char) : c.toNat < 0xD800 ∨ 0xDFFF < c.toNat ∧ c.toNat < 0x110000 := c.valid

@[simp] theorem byte_toNat {v : Nat} (h : v < 256) : (UInt8.ofNat v).toNat = v :=
  UInt8.toNat_ofNat_of_lt' h

theorem encode_first (c : Char) : ∃ first rest, String.utf8EncodeChar c = first :: rest ∧
    ¬(0x80 ≤ first.toNat ∧ first.toNat ≤ 0xBF) := by
  have hrange := char_range c
  unfold String.utf8EncodeChar
  rw [← Char.toNat]
  simp only
  split
  next => exact ⟨_, _, rfl, by rw [byte_toNat (by omega)]; omega⟩
  next =>
    split
    next => exact ⟨_, _, rfl, by rw [byte_toNat (by omega)]; omega⟩
    next =>
      split
      next => exact ⟨_, _, rfl, by rw [byte_toNat (by omega)]; omega⟩
      next => exact ⟨_, _, rfl, by rw [byte_toNat (by omega)]; omega⟩

theorem scanTail_next {b : UInt8} (hlow : low ≤ b.toNat) (hhigh : b.toNat ≤ high) :
    scanTail read (owed + 1) low high (b :: more) = scanTail (read + 1) owed 0x80 0xBF more := by
  rw [scanTail, if_pos ⟨hlow, hhigh⟩]

theorem lead_three {b c : Nat} (h : 0xE0 ≤ b) (h' : b < 0xF0)
    (hc : 0x80 ≤ c ∧ c ≤ 0xBF) (hlow : b = 0xE0 → 0xA0 ≤ c)
    (hhigh : b = 0xED → c ≤ 0x9F) :
    ∃ low high, lead b = some (2, low, high) ∧ low ≤ c ∧ c ≤ high := by
  rw [lead, if_neg (by omega), if_neg (by omega), if_neg (by omega)]
  by_cases he0 : b = 0xE0
  · exact ⟨_, _, if_pos he0, hlow he0, hc.2⟩
  · by_cases hed : b = 0xED
    · exact ⟨_, _, by rw [if_neg he0, if_pos hed], hc.1, hhigh hed⟩
    · exact ⟨_, _, by rw [if_neg he0, if_neg hed, if_pos h'], hc⟩

theorem lead_four {b c : Nat} (h : 0xF0 ≤ b) (h' : b ≤ 0xF4)
    (hc : 0x80 ≤ c ∧ c ≤ 0xBF) (hlow : b = 0xF0 → 0x90 ≤ c)
    (hhigh : b = 0xF4 → c ≤ 0x8F) :
    ∃ low high, lead b = some (3, low, high) ∧ low ≤ c ∧ c ≤ high := by
  rw [lead, if_neg (by omega), if_neg (by omega), if_neg (by omega), if_neg (by omega),
    if_neg (by omega), if_neg (by omega)]
  by_cases hf0 : b = 0xF0
  · exact ⟨_, _, if_pos hf0, hlow hf0, hc.2⟩
  · by_cases hf4 : b = 0xF4
    · exact ⟨_, _, by rw [if_neg hf0, if_neg (by omega), if_pos hf4], hc.1, hhigh hf4⟩
    · exact ⟨_, _, by rw [if_neg hf0, if_pos (by omega)], hc⟩

theorem scan_encode (c : Char) (more : List UInt8) :
    scan (String.utf8EncodeChar c ++ more) = .char (String.utf8EncodeChar c).length := by
  have hrange := char_range c
  unfold String.utf8EncodeChar
  rw [← Char.toNat]
  simp only
  generalize c.toNat = v at hrange
  have hnext : ∀ w, w < 64 → ∀ read owed more,
      scanTail read (owed + 1) 0x80 0xBF (UInt8.ofNat (w + 0x80) :: more) =
        scanTail (read + 1) owed 0x80 0xBF more := by
    intro w hw read owed more
    exact scanTail_next (by rw [byte_toNat (by omega)]; omega) (by rw [byte_toNat (by omega)]; omega)
  split
  next =>
    rw [List.cons_append, scan, byte_toNat (by omega), lead, if_pos (by omega)]
    rfl
  next =>
    split
    next =>
      rw [List.cons_append, scan, byte_toNat (by omega), lead, if_neg (by omega),
        if_neg (by omega), if_pos (by omega)]
      simp only [List.cons_append]
      rw [hnext _ (by omega)]
      rfl
    next =>
      split
      next =>
        obtain ⟨low, high, hlead, hlow, hhigh⟩ := lead_three
          (b := v / 4096 % 16 + 0xE0) (c := v / 64 % 64 + 0x80)
          (by omega) (by omega) (by omega) (by omega) (by omega)
        rw [List.cons_append, scan, byte_toNat (by omega), hlead]
        simp only [List.cons_append]
        rw [scanTail_next (by rwa [byte_toNat (by omega)]) (by rwa [byte_toNat (by omega)]),
          hnext _ (by omega)]
        rfl
      next =>
        obtain ⟨low, high, hlead, hlow, hhigh⟩ := lead_four
          (b := v / 262144 % 8 + 0xF0) (c := v / 4096 % 64 + 0x80)
          (by omega) (by omega) (by omega) (by omega) (by omega)
        rw [List.cons_append, scan, byte_toNat (by omega), hlead]
        simp only [List.cons_append]
        rw [scanTail_next (by rwa [byte_toNat (by omega)]) (by rwa [byte_toNat (by omega)]),
          hnext _ (by omega), hnext _ (by omega)]
        rfl

theorem charOf_encode (c : Char) : charOf (String.utf8EncodeChar c) = c := by
  have hrange := char_range c
  have hchar : ∀ v, v = c.toNat → Char.ofNat v = c := by
    rintro v rfl
    exact Char.ofNat_toNat c
  unfold String.utf8EncodeChar
  rw [← Char.toNat]
  simp only
  split
  next =>
    refine hchar _ ?_
    rw [List.foldl_nil, byte_toNat (by omega), leadBits, if_pos (by omega)]
  next =>
    split
    next =>
      refine hchar _ ?_
      simp only [List.foldl_cons, List.foldl_nil]
      rw [byte_toNat (by omega), byte_toNat (by omega), leadBits, if_neg (by omega),
        if_pos (by omega)]
      omega
    next =>
      split
      next =>
        refine hchar _ ?_
        simp only [List.foldl_cons, List.foldl_nil]
        rw [byte_toNat (by omega), byte_toNat (by omega), byte_toNat (by omega), leadBits,
          if_neg (by omega), if_neg (by omega), if_pos (by omega)]
        omega
      next =>
        refine hchar _ ?_
        simp only [List.foldl_cons, List.foldl_nil]
        rw [byte_toNat (by omega), byte_toNat (by omega), byte_toNat (by omega),
          byte_toNat (by omega), leadBits, if_neg (by omega), if_neg (by omega),
          if_neg (by omega)]
        omega

/-- A character's bytes give the character, whatever comes after them. -/
theorem settle_encode (c : Char) (more : List UInt8) :
    settle (String.utf8EncodeChar c ++ more) = (c :: (settle more).1, (settle more).2) := by
  rw [settle_char (scan_encode c more), List.take_left, List.drop_left, charOf_encode]

theorem settle_encode_all (s : List Char) : settle (encode s) = (s, []) := by
  induction s with
  | nil => rfl
  | cons c s ih => rw [encode, List.flatMap_cons, ← encode, settle_encode, ih]

theorem lossy_encode (s : List Char) : lossy (encode s) = s := by
  rw [lossy, settle_encode_all]
  exact List.append_nil s

/-- The first bytes of a character are not settled while one of its bytes is missing. -/
theorem settle_prefix {c : Char} {p q : List UInt8} (h : p ++ q = String.utf8EncodeChar c)
    (hq : q ≠ []) : settle p = ([], p) := by
  refine settle_incomplete ?_
  by_contra hscan
  have hwhole := scan_encode c []
  rw [List.append_nil, ← h, scan_append hscan] at hwhole
  have hle := (scan_char hwhole).2
  rw [List.length_append] at hle
  have := List.length_pos_iff.mpr hq
  omega

theorem encode_cons (c : Char) (s : List Char) :
    encode (c :: s) = String.utf8EncodeChar c ++ encode s := List.flatMap_cons

theorem encode_singleton (c : Char) : encode [c] = String.utf8EncodeChar c := by
  rw [encode_cons]
  exact List.append_nil _

theorem encode_ascii {c : Char} (h : c.toNat < 0x80) :
    String.utf8EncodeChar c = [UInt8.ofNat c.toNat] := by
  unfold String.utf8EncodeChar
  rw [← Char.toNat]
  simp only
  rw [if_pos (by omega)]

/-- A character outside ASCII has a byte after its first one. -/
theorem encode_wide {c : Char} (h : ¬c.toNat < 0x80) :
    ∃ first rest, String.utf8EncodeChar c = first :: rest ∧ rest ≠ [] := by
  unfold String.utf8EncodeChar
  rw [← Char.toNat]
  simp only
  rw [if_neg (by omega)]
  split
  next => exact ⟨_, _, rfl, nofun⟩
  next => split <;> exact ⟨_, _, rfl, nofun⟩

/-- A text of one byte is one ASCII character. -/
theorem ascii_of_len {s : List Char} (h : len s = 1) : ∃ c, s = [c] ∧ c.toNat < 0x80 := by
  cases s with
  | nil => cases h
  | cons c s =>
    rw [len, encode_cons, List.length_append] at h
    by_cases hc : c.toNat < 0x80
    · rw [encode_ascii hc, List.length_singleton] at h
      cases s with
      | nil => exact ⟨c, rfl, hc⟩
      | cons d s =>
        obtain ⟨first, rest, hfirst, -⟩ := encode_first d
        rw [encode_cons, hfirst, List.cons_append, List.length_cons] at h
        omega
    · obtain ⟨first, rest, hfirst, hrest⟩ := encode_wide hc
      have := List.length_pos_iff.mpr hrest
      rw [hfirst, List.length_cons] at h
      omega

/-- The first byte of a character without the others. -/
theorem lossy_first {c : Char} {first : UInt8} {rest : List UInt8}
    (h : String.utf8EncodeChar c = first :: rest) :
    lossy [first] = [if c.toNat < 0x80 then c else '\uFFFD'] := by
  split
  next hc =>
    have hone := encode_ascii hc
    rw [h] at hone
    have hwhole := lossy_encode [c]
    rwa [encode_singleton, h, (List.cons.inj hone).2] at hwhole
  next hc =>
    obtain ⟨first', rest', hfirst, hrest⟩ := encode_wide hc
    rw [h] at hfirst
    obtain ⟨rfl, rfl⟩ := List.cons.inj hfirst
    rw [lossy, settle_prefix (c := c) (p := [first]) (q := rest) h.symm hrest]
    rfl

theorem encode_wide_ge {c : Char} (h : ¬c.toNat < 0x80) : ∀ b ∈ String.utf8EncodeChar c,
    0x80 ≤ b.toNat := by
  have hrange := char_range c
  unfold String.utf8EncodeChar
  rw [← Char.toNat]
  simp only
  rw [if_neg (by omega)]
  intro b hb
  split at hb
  next =>
    simp only [List.mem_cons, List.not_mem_nil, or_false] at hb
    rcases hb with rfl | rfl <;> rw [byte_toNat (by omega)] <;> omega
  next =>
    split at hb
    next =>
      simp only [List.mem_cons, List.not_mem_nil, or_false] at hb
      rcases hb with rfl | rfl | rfl <;> rw [byte_toNat (by omega)] <;> omega
    next =>
      simp only [List.mem_cons, List.not_mem_nil, or_false] at hb
      rcases hb with rfl | rfl | rfl | rfl <;> rw [byte_toNat (by omega)] <;> omega

/-! ## One character for each byte -/

/-- A byte read alone. -/
def charOfByte (b : UInt8) : Char := if b.toNat < 0x80 then Char.ofNat b.toNat else '\uFFFD'

theorem toNat_ofNat_ascii {n : Nat} (h : n < 0x80) : (Char.ofNat n).toNat = n := by
  have hvalid : n.isValidChar := .inl (by omega)
  rw [Char.ofNat, dif_pos hvalid]
  rfl

theorem scan_ascii {b : UInt8} (h : b.toNat < 0x80) (more : List UInt8) :
    scan (b :: more) = .char 1 := by
  rw [scan, lead, if_pos h]
  rfl

theorem ascii_of_scan {b : UInt8} {more : List UInt8} (h : scan (b :: more) = .char 1) :
    b.toNat < 0x80 := by
  by_contra hb
  rw [scan, lead, if_neg hb] at h
  split at h
  next => cases h
  next owed low high hlead =>
    have howed := (scanTail_char h).1
    obtain rfl : owed = 0 := by omega
    repeat'
      split at hlead
    all_goals cases hlead

theorem length_lossy (bytes : List UInt8) : (lossy bytes).length ≤ bytes.length ∧
    ((lossy bytes).length = bytes.length → lossy bytes = bytes.map charOfByte) := by
  induction bytes using scanInduction with
  | incomplete bytes hscan =>
    rw [lossy, settle_incomplete hscan, List.nil_append]
    cases bytes with
    | nil => exact ⟨Nat.le_refl _, fun _ => rfl⟩
    | cons b bytes =>
      rw [if_neg (List.cons_ne_nil b bytes), List.length_singleton, List.length_cons]
      refine ⟨by omega, fun hlength => ?_⟩
      obtain rfl := List.eq_nil_of_length_eq_zero (l := bytes) (by omega)
      have hb : ¬b.toNat < 0x80 := by
        intro hb
        rw [scan_ascii hb] at hscan
        cases hscan
      rw [List.map_singleton, charOfByte, if_neg hb]
  | char bytes n hscan ih =>
    have hn := scan_char hscan
    have hdrop := List.length_drop (i := n) (l := bytes)
    have hlossy : lossy bytes = charOf (bytes.take n) :: lossy (bytes.drop n) := by
      rw [lossy, settle_char hscan]
      rfl
    rw [hlossy, List.length_cons]
    refine ⟨by omega, fun hlength => ?_⟩
    obtain rfl : n = 1 := by omega
    obtain ⟨b, bytes, rfl⟩ := List.exists_cons_of_length_pos hn.2
    have hb := ascii_of_scan hscan
    rw [List.drop_succ_cons, List.drop_zero] at ih hdrop hlength ⊢
    rw [List.length_cons] at hdrop hlength
    rw [ih.2 (by omega), List.map_cons, charOfByte, if_pos hb]
    simp [charOf, leadBits, hb]
  | invalid bytes n hscan ih =>
    have hn := scan_invalid hscan
    have hdrop := List.length_drop (i := n) (l := bytes)
    have hlossy : lossy bytes = '\uFFFD' :: lossy (bytes.drop n) := by
      rw [lossy, settle_invalid hscan]
      rfl
    rw [hlossy, List.length_cons]
    refine ⟨by omega, fun hlength => ?_⟩
    obtain rfl : n = 1 := by omega
    obtain ⟨b, bytes, rfl⟩ := List.exists_cons_of_length_pos hn.2
    have hb : ¬b.toNat < 0x80 := by
      intro hb
      rw [scan_ascii hb] at hscan
      cases hscan
    rw [List.drop_succ_cons, List.drop_zero] at ih hdrop hlength ⊢
    rw [List.length_cons] at hdrop hlength
    rw [ih.2 (by omega), List.map_cons, charOfByte, if_neg hb]

/-! ## Slices -/

/-- `s.get(start..)`: what follows `start` bytes, where they end with a character. -/
def sliceFrom : List Char → Nat → Option (List Char)
  | s, 0 => some s
  | [], _ + 1 => none
  | c :: s, n + 1 => if c.utf8Size ≤ n + 1 then sliceFrom s (n + 1 - c.utf8Size) else none

/-- `s.get(..stop)`. -/
def sliceTo : List Char → Nat → Option (List Char)
  | _, 0 => some []
  | [], _ + 1 => none
  | c :: s, n + 1 =>
    if c.utf8Size ≤ n + 1 then (sliceTo s (n + 1 - c.utf8Size)).map (c :: ·) else none

/-- `s.get(start..stop)`. -/
def slice (s : List Char) (start stop : Nat) : Option (List Char) :=
  if start ≤ stop then (sliceFrom s start).bind fun rest => sliceTo rest (stop - start) else none

theorem len_cons (c : Char) (s : List Char) : len (c :: s) = c.utf8Size + len s := by
  rw [len, encode_cons, List.length_append, String.length_utf8EncodeChar, len]

theorem len_append (s s' : List Char) : len (s ++ s') = len s + len s' := by
  rw [len, encode, List.flatMap_append, List.length_append]
  rfl

theorem len_pos {s : List Char} : 0 < len s ↔ s ≠ [] := by
  cases s with
  | nil => exact ⟨fun h => absurd h (Nat.lt_irrefl 0), fun h => absurd rfl h⟩
  | cons c s =>
    have hc := c.utf8Size_pos
    rw [len_cons]
    exact ⟨fun _ => List.cons_ne_nil c s, fun _ => by omega⟩

/-- The bytes of a first character are not none. -/
theorem exists_size_add (c : Char) (n : Nat) :
    ∃ m, c.utf8Size + n = m + 1 ∧ c.utf8Size ≤ m + 1 ∧ m + 1 - c.utf8Size = n := by
  have hc := c.utf8Size_pos
  exact ⟨c.utf8Size + n - 1, by omega, by omega, by omega⟩

theorem sliceFrom_cons (c : Char) (s : List Char) (n : Nat) :
    sliceFrom (c :: s) (c.utf8Size + n) = sliceFrom s n := by
  obtain ⟨m, hm, hle, hrest⟩ := exists_size_add c n
  rw [hm, sliceFrom, if_pos hle, hrest]

theorem sliceTo_cons (c : Char) (s : List Char) (n : Nat) :
    sliceTo (c :: s) (c.utf8Size + n) = (sliceTo s n).map (c :: ·) := by
  obtain ⟨m, hm, hle, hrest⟩ := exists_size_add c n
  rw [hm, sliceTo, if_pos hle, hrest]

theorem sliceFrom_append (front rest : List Char) : sliceFrom (front ++ rest) (len front) = some rest := by
  induction front with
  | nil =>
    show sliceFrom rest 0 = some rest
    unfold sliceFrom
    rfl
  | cons c front ih => rw [len_cons, List.cons_append, sliceFrom_cons, ih]

theorem sliceTo_append (front rest : List Char) : sliceTo (front ++ rest) (len front) = some front := by
  induction front with
  | nil =>
    show sliceTo rest 0 = some []
    unfold sliceTo
    rfl
  | cons c front ih => rw [len_cons, List.cons_append, sliceTo_cons, ih, Option.map_some]

theorem slice_append (front middle rest : List Char) :
    slice (front ++ middle ++ rest) (len front) (len front + len middle) = some middle := by
  rw [slice, if_pos (Nat.le_add_right _ _), List.append_assoc, sliceFrom_append, Option.bind_some,
    Nat.add_sub_cancel_left, sliceTo_append]

theorem append_inj {front front' rest rest' : List Char} (h : front ++ rest = front' ++ rest')
    (hlen : len front = len front') : front = front' ∧ rest = rest' := by
  have hfront := sliceTo_append front rest
  have hrest := sliceFrom_append front rest
  rw [h, hlen, sliceTo_append] at hfront
  rw [h, hlen, sliceFrom_append] at hrest
  exact ⟨(Option.some_inj.mp hfront).symm, (Option.some_inj.mp hrest).symm⟩

theorem eq_nil_or_singleton {s : List Char} (h : len s ≤ 1) : s = [] ∨ ∃ c, s = [c] := by
  cases s with
  | nil => exact .inl rfl
  | cons c s =>
    have hc := c.utf8Size_pos
    rw [len_cons] at h
    refine .inr ⟨c, ?_⟩
    by_contra hne
    have := len_pos.mpr fun hnil => hne (congrArg (c :: ·) hnil)
    omega

/-! ## Bytes of a text and its parts -/

theorem encode_append (s s' : List Char) : encode (s ++ s') = encode s ++ encode s' :=
  List.flatMap_append

theorem settle_encode_append (s : List Char) (more : List UInt8) :
    settle (encode s ++ more) = (s ++ (settle more).1, (settle more).2) := by
  induction s with
  | nil => rfl
  | cons c s ih => rw [encode_cons, List.append_assoc, settle_encode, ih, List.cons_append]

/-- No text's bytes begin another's unless the text does. -/
theorem prefix_encode_iff {p s : List Char} : encode p <+: encode s ↔ p <+: s := by
  constructor
  · rintro ⟨more, hmore⟩
    have hsettle := settle_encode_append p more
    rw [hmore, settle_encode_all] at hsettle
    exact ⟨(settle more).1, (congrArg Prod.fst hsettle).symm⟩
  · rintro ⟨rest, rfl⟩
    exact ⟨encode rest, (encode_append p rest).symm⟩

theorem take_encode_iff {p s : List Char} : (encode s).take (len p) = encode p ↔ p <+: s := by
  rw [← prefix_encode_iff, List.prefix_iff_eq_take, eq_comm, len]

theorem drop_encode_append (front rest : List Char) :
    (encode (front ++ rest)).drop (len front) = encode rest := by
  rw [encode_append, len, List.drop_left]

theorem getElem_encode_append (front rest : List Char) (i : Nat) :
    (encode (front ++ rest))[len front + i]? = (encode rest)[i]? := by
  rw [encode_append, len, List.getElem?_append_right (Nat.le_add_right _ _), Nat.add_sub_cancel_left]

theorem head_encode_iff {c : Char} {s : List Char} (hc : c.toNat < 0x80) :
    (encode s)[0]? = some (UInt8.ofNat c.toNat) ↔ s.head? = some c := by
  have hone : encode [c] = [UInt8.ofNat c.toNat] := by rw [encode_singleton, encode_ascii hc]
  have hprefix := prefix_encode_iff (p := [c]) (s := s)
  rw [hone, List.singleton_prefix_iff_head?_eq_some, List.singleton_prefix_iff_head?_eq_some] at hprefix
  rw [← List.head?_eq_getElem?]
  exact hprefix

theorem encode_last (c : Char) : ∃ bytes last, String.utf8EncodeChar c = bytes ++ [last] ∧
    (c.toNat < 0x80 → last = UInt8.ofNat c.toNat) := by
  by_cases hc : c.toNat < 0x80
  · exact ⟨[], _, encode_ascii hc, fun _ => rfl⟩
  · obtain ⟨first, rest, hfirst, -⟩ := encode_first c
    obtain ⟨bytes, last, hlast⟩ :=
      (List.eq_nil_or_concat (first :: rest)).resolve_left (List.cons_ne_nil _ _)
    exact ⟨bytes, last, by rw [hfirst, hlast, List.concat_eq_append], fun h => absurd h hc⟩

theorem last_encode_iff {c : Char} {s : List Char} (hc : c.toNat < 0x80) (hs : s ≠ []) :
    (encode s)[len s - 1]? = some (UInt8.ofNat c.toNat) ↔ s.getLast? = some c := by
  obtain ⟨init, d, rfl⟩ := (List.eq_nil_or_concat s).resolve_left hs
  obtain ⟨bytes, last, hlast, hone⟩ := encode_last d
  rw [len, ← List.getLast?_eq_getElem?, List.concat_eq_append, encode_append, encode_singleton,
    hlast, ← List.append_assoc, List.getLast?_concat, List.getLast?_concat, Option.some_inj,
    Option.some_inj]
  constructor
  · rintro rfl
    by_cases hd : d.toNat < 0x80
    · have hbyte := congrArg UInt8.toNat (hone hd)
      rw [byte_toNat (by omega), byte_toNat (by omega)] at hbyte
      exact (Char.toNat_inj.mp hbyte).symm
    · have hge := encode_wide_ge hd (UInt8.ofNat c.toNat)
        (by rw [hlast]; exact List.mem_append_right _ (List.mem_singleton_self _))
      rw [byte_toNat (by omega)] at hge
      omega
  · rintro rfl
    exact hone hc

end Utf8
end Rust
