/-
What a byte-level vocabulary makes of a text.

Words are cut at white space, a mark stands for the space before each, and the characters
of a word are merged.  Tokens are read back through the byte alphabet.
-/
import Ramforge.Core.VocabularyMaps

namespace Ramforge

open Rust TokenDecoder

/-- GPT-2's `bytes_to_unicode`. -/
def gpt2ByteToChar (b : UInt8) : Char :=
  let n := b.toNat
  if 0x21 ≤ n ∧ n ≤ 0x7E ∨ 0xA1 ≤ n ∧ n ≤ 0xAC ∨ 0xAE ≤ n then Char.ofNat n
  else if n ≤ 0x20 then Char.ofNat (0x100 + n)
  else if n ≤ 0xA0 then Char.ofNat (0x121 + (n - 127))
  else Char.ofNat 0x143

theorem gpt2CharToByte_byteToChar (b : UInt8) : gpt2CharToByte (gpt2ByteToChar b) = some b := by
  have hall : ∀ n < 256, gpt2CharToByte (gpt2ByteToChar (UInt8.ofNat n)) = some (UInt8.ofNat n) := by
    decide +kernel
  have := hall b.toNat b.toNat_lt
  rwa [UInt8.ofNat_toNat] at this

/-- The alphabet has one character for each byte. -/
theorem gpt2ByteToChar_charToByte {c : Char} {b : UInt8} (h : gpt2CharToByte c = some b) :
    gpt2ByteToChar b = c := by
  have hsmall : c.toNat < 0x144 := by
    unfold gpt2CharToByte at h
    simp only at h
    by_contra hlarge
    rw [if_neg (by omega), if_neg (by omega), if_neg (by omega), if_neg (by omega)] at h
    cases h
  have hall : ∀ n < 0x144, (gpt2CharToByte (Char.ofNat n)).all
      (fun b => gpt2ByteToChar b = Char.ofNat n) = true := by decide +kernel
  have hc := hall c.toNat hsmall
  rw [Char.ofNat_toNat, h] at hc
  exact of_decide_eq_true hc

variable {S : Type}

/-- A vocabulary of the gpt2 kind with a token for each character of the byte alphabet, and
merges that give tokens. -/
structure Gpt2 (v : Vocabulary S) : Prop where
  model : v.model = "gpt2"
  alphabet : ∀ b, [gpt2ByteToChar b] ∈ v.tokens
  merges : ∀ entry ∈ v.mergesRank, entry.1.1 ++ entry.1.2 ∈ v.tokens

/-! ## Words -/

/-- White space as the mark of the next word. -/
def mark (c : Char) : Char := if Unicode.isWhitespace c then 'Ġ' else c

/-- The characters of the words with their marks.  `pending` is set after white space. -/
def squeeze : Bool → List Char → List Char
  | _, [] => []
  | pending, c :: rest =>
    if Unicode.isWhitespace c then squeeze true rest
    else if pending then 'Ġ' :: c :: squeeze false rest
    else c :: squeeze false rest

/-- Words with the mark before each. -/
def marked (words : List (List Char)) : List Char := (words.map ('Ġ' :: ·)).flatten

theorem marked_wordsFrom (s : List Char) :
    (∀ word, word ≠ [] → ∃ w ws, Unicode.wordsFrom word s = w :: ws ∧
      w ++ marked ws = word ++ squeeze false s) ∧
    marked (Unicode.wordsFrom [] s) = squeeze true s := by
  induction s with
  | nil => exact ⟨fun word hword => ⟨word, [], if_neg hword, rfl⟩, rfl⟩
  | cons c s ih =>
    obtain ⟨hword, hnil⟩ := ih
    by_cases hc : Unicode.isWhitespace c = true
    · refine ⟨fun word hne => ⟨word, Unicode.wordsFrom [] s, ?_, ?_⟩, ?_⟩
      · rw [Unicode.wordsFrom, if_pos hc, if_neg hne, List.singleton_append]
      · rw [hnil, squeeze, if_pos hc]
      · rw [Unicode.wordsFrom, if_pos hc, if_pos rfl, List.nil_append, hnil, squeeze, if_pos hc]
    · refine ⟨fun word hne => ?_, ?_⟩
      · obtain ⟨w, ws, hwords, hmarked⟩ := hword (word ++ [c]) (by simp)
        refine ⟨w, ws, ?_, ?_⟩
        · rw [Unicode.wordsFrom, if_neg hc, hwords]
        · rw [hmarked, squeeze, if_neg hc, if_neg Bool.false_ne_true, List.append_assoc,
            List.singleton_append]
      · obtain ⟨w, ws, hwords, hmarked⟩ := hword [c] (List.cons_ne_nil c [])
        rw [Unicode.wordsFrom, if_neg hc, List.nil_append, hwords, squeeze, if_neg hc, if_pos rfl,
          marked, List.map_cons, List.flatten_cons, ← marked, List.cons_append, hmarked,
          List.singleton_append]

theorem flatten_preTokenizeBpe {t : Tokenizer S}
    (hmark : (t.tokens.any fun token => token.head? = some 'Ġ') = true) (text : List Char) :
    (t.preTokenizeBpe text).flatten = squeeze false text := by
  rw [Tokenizer.preTokenizeBpe, if_pos hmark]
  cases text with
  | nil => rfl
  | cons c s =>
    obtain ⟨hword, hnil⟩ := marked_wordsFrom s
    rw [Unicode.splitWhitespace, Unicode.wordsFrom, squeeze]
    by_cases hc : Unicode.isWhitespace c = true
    · rw [if_pos hc, if_pos rfl, List.nil_append, if_pos hc, ← hnil]
      cases Unicode.wordsFrom [] s with
      | nil => rfl
      | cons first rest =>
        have hfirst : (c :: s).head?.any Unicode.isWhitespace = true := hc
        show (if (c :: s).head?.any Unicode.isWhitespace = true then
          ('Ġ' :: first) :: rest.map ('Ġ' :: ·) else first :: rest.map ('Ġ' :: ·)).flatten = _
        rw [if_pos hfirst]
        rfl
    · obtain ⟨w, ws, hwords, hmarked⟩ := hword [c] (List.cons_ne_nil c [])
      rw [if_neg hc, List.nil_append, hwords, if_neg hc, if_neg Bool.false_ne_true]
      have hfirst : ¬(c :: s).head?.any Unicode.isWhitespace = true := hc
      show (if (c :: s).head?.any Unicode.isWhitespace = true then
        ('Ġ' :: w) :: ws.map ('Ġ' :: ·) else w :: ws.map ('Ġ' :: ·)).flatten = _
      rw [if_neg hfirst]
      exact hmarked

/-! ## Spacing -/

theorem length_squeeze (s : List Char) :
    (squeeze false s).length ≤ s.length ∧ (squeeze true s).length ≤ s.length + 1 := by
  induction s with
  | nil => exact ⟨Nat.le_refl _, Nat.zero_le _⟩
  | cons c s ih =>
    rw [squeeze, squeeze, List.length_cons]
    split
    next => exact ⟨ih.2, Nat.le_succ_of_le ih.2⟩
    next =>
      rw [if_neg Bool.false_ne_true, if_pos rfl, List.length_cons, List.length_cons,
        List.length_cons]
      omega

/-- White space stands alone, and not at the end. -/
structure Spaced (s : List Char) : Prop where
  single : s.IsChain fun a b => ¬(Unicode.isWhitespace a = true ∧ Unicode.isWhitespace b = true)
  last : ∀ c, s.getLast? = some c → ¬Unicode.isWhitespace c = true

theorem Spaced.tail {c : Char} {s : List Char} (h : Spaced (c :: s)) : Spaced s where
  single := h.single.tail
  last d hd := h.last d (by rw [List.getLast?_cons, hd]; rfl)

theorem squeeze_spaced {s : List Char} (h : Spaced s) : squeeze false s = s.map mark := by
  induction s with
  | nil => rfl
  | cons c s ih =>
    have htail := ih h.tail
    rw [squeeze, List.map_cons]
    by_cases hc : Unicode.isWhitespace c = true
    · rw [if_pos hc]
      cases s with
      | nil => exact absurd hc (h.last c rfl)
      | cons d s =>
        have hd : ¬Unicode.isWhitespace d = true := fun hd => h.single.rel ⟨hc, hd⟩
        rw [squeeze, if_neg hd, if_neg Bool.false_ne_true] at htail
        rw [squeeze, if_neg hd, if_pos rfl, htail, mark, if_pos hc]
    · rw [if_neg hc, if_neg Bool.false_ne_true, htail, mark, if_neg hc]

/-- No white space is lost only where it stands alone. -/
theorem spaced_of_length {s : List Char} (h : (squeeze false s).length = s.length) : Spaced s := by
  induction s with
  | nil => exact ⟨.nil, nofun⟩
  | cons c s ih =>
    rw [squeeze, List.length_cons] at h
    by_cases hc : Unicode.isWhitespace c = true
    · rw [if_pos hc] at h
      cases s with
      | nil => cases h
      | cons d s =>
        by_cases hd : Unicode.isWhitespace d = true
        · rw [squeeze, if_pos hd, List.length_cons] at h
          have := (length_squeeze s).2
          omega
        · rw [squeeze, if_neg hd, if_pos rfl, List.length_cons, List.length_cons,
            List.length_cons] at h
          have htail : Spaced (d :: s) := by
            refine ih ?_
            rw [squeeze, if_neg hd, if_neg Bool.false_ne_true, List.length_cons, List.length_cons]
            omega
          refine ⟨.cons_cons (fun hboth => hd hboth.2) htail.single, fun e he => ?_⟩
          exact htail.last e (by rwa [List.getLast?_cons_cons] at he)
    · rw [if_neg hc, if_neg Bool.false_ne_true, List.length_cons] at h
      have htail := ih (by omega)
      refine ⟨?_, fun e he => ?_⟩
      · cases s with
        | nil => exact .singleton c
        | cons d s => exact .cons_cons (fun hboth => hc hboth.1) htail.single
      · cases s with
        | nil =>
          cases he
          exact hc
        | cons d s => exact htail.last e (by rwa [List.getLast?_cons_cons] at he)

end Ramforge
