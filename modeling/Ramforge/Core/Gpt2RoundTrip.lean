/-
Which texts a byte-level vocabulary reads back.

The characters of a text are looked up as they are, not as the characters of their bytes,
and white space is kept only as a mark before a word.
-/
import Ramforge.Core.Gpt2Pieces

namespace Ramforge

open Rust TokenDecoder

variable {S : Type} [Score S] {v : Vocabulary S} {addBos : Bool} {text : List Char}

/-- Printable ASCII with a space between words, and one in front at most. -/
structure Gpt2Text (text : List Char) : Prop where
  printable : ∀ c ∈ text, c = ' ' ∨ 0x21 ≤ c.toNat ∧ c.toNat ≤ 0x7E
  spaced : Spaced text

/-- Nothing of the text is taken for a special token, for a byte, or for the frame of a
text, and only a frame is put around it. -/
structure Clear (v : Vocabulary S) (addBos : Bool) (text : List Char) : Prop where
  special : ∀ special ∈ v.specialTokens, ¬special.1 <:+: text
  literal : ∀ word ∈ v.tokenizer.preTokenizeBpe text, ∀ piece ∈ v.tokenizer.bpeWord word,
    ¬isByteLiteral piece = true
  framing : ∀ word ∈ v.tokenizer.preTokenizeBpe text, ∀ piece ∈ v.tokenizer.bpeWord word,
    ∀ id, v.tokenToId.lookup piece = some id → ¬Framing v id
  bos : ∀ id, addBos = true → v.addBos = true → v.bosId = some id → Framing v id
  eos : ∀ id, v.addEos = true → v.eosId = some id → Framing v id

/-- All tokens are over the byte alphabet and are read as such, and nothing stands for
unknown text. -/
structure ByteLevel (v : Vocabulary S) : Prop where
  tokens : ∀ token ∈ v.tokens, ∀ c ∈ token, (gpt2CharToByte c).isSome = true
  literal : ∀ token ∈ v.tokens, ¬isByteLiteral token = true
  framing : ∀ id, ¬Framing v id
  special : v.specialTokens = []
  unk : v.unkId = none
  bos : v.addBos = false ∨ v.bosId = none
  eos : v.addEos = false ∨ v.eosId = none

/-! ## Encoding without special tokens -/

theorem encodeSegments_normal {t : Tokenizer S} {fuel : Nat} {rest : List Char}
    (hfuel : rest.length ≤ fuel) (hspecial : ∀ special ∈ t.specialTokens, ¬special.1 <:+: rest)
    (normal : List Char) :
    t.encodeSegments fuel normal rest =
      if normal ++ rest = [] then [] else t.encodePlain (normal ++ rest) := by
  induction rest generalizing fuel normal with
  | nil => rw [Tokenizer.encodeSegments, List.append_nil]
  | cons c rest ih =>
    obtain _ | fuel := fuel
    · cases hfuel
    have hfind : t.specialTokens.find? (fun special => special.1.isPrefixOf (c :: rest)) = none := by
      rw [List.find?_eq_none]
      intro special hmem hfront
      exact hspecial special hmem (List.isPrefixOf_iff_prefix.mp hfront).isInfix
    rw [Tokenizer.encodeSegments, hfind]
    simp only
    rw [ih (Nat.le_of_succ_le_succ hfuel) (fun special hmem hwithin =>
      hspecial special hmem (hwithin.trans (List.suffix_cons c rest).isInfix)),
      List.append_assoc, List.singleton_append]

namespace Gpt2

variable (h : Gpt2 v)
include h

theorem encode_eq (hspecial : ∀ special ∈ v.specialTokens, ¬special.1 <:+: text) :
    v.tokenizer.encode text addBos =
      (if addBos ∧ v.addBos then v.bosId.toList else []) ++ v.tokenizer.encodeBpe text ++
        if v.addEos then v.eosId.toList else [] := by
  have hplain : ∀ text, v.tokenizer.encodePlain text = v.tokenizer.encodeBpe text := by
    intro text
    exact if_pos (.inl h.model)
  have hall : v.tokenizer.encodeWithSpecialTokens text = v.tokenizer.encodeBpe text := by
    rw [Tokenizer.encodeWithSpecialTokens]
    split
    next => exact hplain text
    next =>
      rw [encodeSegments_normal (Nat.le_refl _) hspecial, List.nil_append]
      split
      next hnil => rw [hnil]; rfl
      next => exact hplain text
  rw [Tokenizer.encode, hall]
  rfl

omit h [Score S] in
theorem givesBytes_frame {frame : Option UInt32} {c : Prop} [Decidable c]
    (hframe : ∀ id, c → frame = some id → Framing v id) :
    GivesBytes v.tokenizer (if c then frame.toList else []) [] := by
  split
  next hc =>
    cases frame with
    | none => exact givesBytes_nil
    | some id =>
      refine givesBytes_none ?_
      unfold pieceOf
      exact if_pos (hframe id hc rfl)
  next => exact givesBytes_nil

theorem decode_encode {bytes : List UInt8} (hclear : Clear v addBos text)
    (hbytes : GivesBytes v.tokenizer (v.tokenizer.encodeBpe text) bytes) :
    v.tokenizer.decode (v.tokenizer.encode text addBos) = .ok (Utf8.lossy bytes) := by
  have hmodel : v.tokenizer.model ≠ "llama" := by
    have hgpt2 : v.tokenizer.model = "gpt2" := h.model
    rw [hgpt2]
    decide
  have hbos : GivesBytes v.tokenizer (if addBos ∧ v.addBos then v.bosId.toList else []) [] :=
    givesBytes_frame fun id hadd => hclear.bos id hadd.1 hadd.2
  have heos : GivesBytes v.tokenizer (if v.addEos then v.eosId.toList else []) [] :=
    givesBytes_frame hclear.eos
  rw [h.encode_eq hclear.special, ((hbos.append hbytes).append heos).decode hmodel,
    List.append_nil, List.nil_append]

/-! ## Texts that come back -/

omit h [Score S] in
theorem not_whitespace_printable {c : Char} (hc : 0x21 ≤ c.toNat ∧ c.toNat ≤ 0x7E) :
    ¬Unicode.isWhitespace c = true := by
  unfold Unicode.isWhitespace
  simp only [decide_eq_true_eq]
  omega

omit h [Score S] in
theorem mark_printable {c : Char} (hc : c = ' ' ∨ 0x21 ≤ c.toNat ∧ c.toNat ≤ 0x7E) :
    gpt2CharToByte (mark c) = some (UInt8.ofNat c.toNat) ∧ c.toNat < 0x80 := by
  rcases hc with rfl | hc
  · exact ⟨by decide, by decide⟩
  · rw [mark, if_neg (not_whitespace_printable hc)]
    exact ⟨alphabet_printable hc, by omega⟩

omit h [Score S] in
theorem alphabetBytes_text (htext : ∀ c ∈ text, c = ' ' ∨ 0x21 ≤ c.toNat ∧ c.toNat ≤ 0x7E) :
    alphabetBytes (text.map mark) = Utf8.encode text := by
  induction text with
  | nil => rfl
  | cons c text ih =>
    obtain ⟨hc, hrest⟩ := List.forall_mem_cons.mp htext
    obtain ⟨hbyte, hascii⟩ := mark_printable hc
    rw [List.map_cons, alphabetBytes, List.filterMap_cons_some hbyte, ← alphabetBytes, ih hrest,
      Utf8.encode_cons, Utf8.encode_ascii hascii]
    rfl

theorem reads_back (htext : Gpt2Text text) (hclear : Clear v addBos text) :
    v.tokenizer.decode (v.tokenizer.encode text addBos) = .ok text := by
  have hsqueeze := squeeze_spaced htext.spaced
  have hbytes := alphabetBytes_text htext.printable
  have hwords : ∀ word ∈ v.tokenizer.preTokenizeBpe text, ∀ piece ∈ v.tokenizer.bpeWord word,
      GivesBytes v.tokenizer (v.tokenizer.pieceIds piece) (alphabetBytes piece) := by
    intro word hword piece hpiece
    obtain ⟨hflatten, hmerged⟩ := bpeWord_spec h word
    have halphabet : ∀ c ∈ piece, (gpt2CharToByte c).isSome = true := by
      intro c hc
      have hword' : c ∈ word := by
        rw [← hflatten]
        exact List.mem_flatten_of_mem hpiece hc
      have htext' : c ∈ text.map mark := by
        rw [← hsqueeze, ← flatten_preTokenizeBpe h.has_mark]
        exact List.mem_flatten_of_mem hword hword'
      obtain ⟨d, hd, rfl⟩ := List.mem_map.mp htext'
      rw [(mark_printable (htext.printable d hd)).1]
      rfl
    have htoken : piece ∈ v.tokens := by
      rcases hmerged piece hpiece with ⟨c, rfl⟩ | htoken
      · exact h.alphabet_mem (halphabet c (List.mem_singleton_self c))
      · exact htoken
    exact (h.pieceIds_token htoken (hclear.literal word hword piece hpiece)
      (hclear.framing word hword piece hpiece) halphabet).1
  have hids := h.words_bytes text hwords
  rw [hsqueeze, hbytes] at hids
  have hencode : GivesBytes v.tokenizer (v.tokenizer.encodeBpe text) (Utf8.encode text) := by
    rw [Tokenizer.encodeBpe]
    split
    next hnil =>
      rw [hnil]
      exact givesBytes_nil
    next hne =>
      simp only
      split
      next hnil =>
        rw [hnil] at hids
        have hempty := hids.eq_nil
        obtain ⟨c, text, rfl⟩ := List.exists_cons_of_ne_nil hne
        obtain ⟨first, rest, hfirst, -⟩ := Utf8.encode_first c
        rw [Utf8.encode_cons, hfirst] at hempty
        cases hempty
      next => exact hids
  rw [h.decode_encode hclear hencode, Utf8.lossy_encode]

/-! ## Texts that do not -/

variable (hbyte : ByteLevel v)
include hbyte

omit [Score S] in
theorem clear_of_byteLevel (addBos : Bool) (text : List Char) : Clear v addBos text where
  special special hmem := by
    rw [hbyte.special] at hmem
    cases hmem
  literal word _ piece hpiece hliteral := by
    rcases (bpeWord_spec h word).2 piece hpiece with ⟨c, rfl⟩ | htoken
    · unfold isByteLiteral at hliteral
      rw [Bool.and_eq_true, Bool.and_eq_true, List.isPrefixOf_iff_prefix] at hliteral
      have hlength := hliteral.1.1.length_le
      rw [List.length_singleton] at hlength
      exact absurd hlength (by decide)
    · exact hbyte.literal piece htoken hliteral
  framing _ _ _ _ id _ := hbyte.framing id
  bos id _ hadd hid := by
    rcases hbyte.bos with hbos | hbos
    · rw [hbos] at hadd
      cases hadd
    · rw [hbos] at hid
      cases hid
  eos id hadd hid := by
    rcases hbyte.eos with heos | heos
    · rw [heos] at hadd
      cases hadd
    · rw [heos] at hid
      cases hid

omit h [Score S] in
theorem mem_of_lookup {token : List Char} {id : UInt32}
    (hid : v.tokenizer.tokenToId.lookup token = some id) {c : Char} (hc : c ∈ token) :
    (gpt2CharToByte c).isSome = true :=
  hbyte.tokens token (List.mem_of_getElem? (Vocabulary.tokens_of_lookup hid)) c hc

omit h [Score S] in
theorem lookup_unknown {c : Char} (hc : gpt2CharToByte c = none) :
    v.tokenizer.tokenToId.lookup [c] = none := by
  rw [← Option.not_isSome_iff_eq_none, Option.isSome_iff_exists]
  rintro ⟨id, hid⟩
  have hsome := mem_of_lookup hbyte hid (List.mem_singleton_self c)
  rw [hc] at hsome
  cases hsome

omit h [Score S] in
/-- No byte of a character outside the alphabet has a token. -/
theorem byteToken_unknown {c : Char} (hc : gpt2CharToByte c = none) {b : UInt8}
    (hb : b ∈ String.utf8EncodeChar c) : v.tokenizer.byteTokens.lookup b = none := by
  rw [← Option.not_isSome_iff_eq_none, Option.isSome_iff_exists]
  rintro ⟨id, hid⟩
  obtain ⟨token, htoken, ⟨hliteral, -⟩ | ⟨-, -, hlen, hhead⟩⟩ := Vocabulary.standsFor_of_lookup hid
  · exact hbyte.literal token (List.mem_of_getElem? htoken) hliteral
  · obtain ⟨d, rfl, hd⟩ := Utf8.ascii_of_len hlen
    rw [Utf8.encode_singleton, Utf8.encode_ascii hd, List.head?_cons, Option.some_inj] at hhead
    have halphabet := hbyte.tokens [d] (List.mem_of_getElem? htoken) d (List.mem_singleton_self d)
    by_cases hascii : c.toNat < 0x80
    · rw [Utf8.encode_ascii hascii, List.mem_singleton] at hb
      have hsame : c.toNat = d.toNat := by
        rw [← Utf8.byte_toNat (v := c.toNat) (by omega), ← hb, ← hhead, Utf8.byte_toNat (by omega)]
      have hchar : c = d := by rw [← Char.ofNat_toNat c, hsame, Char.ofNat_toNat]
      rw [← hchar, hc] at halphabet
      cases halphabet
    · have hwide := Utf8.encode_wide_ge hascii b hb
      rw [← hhead, Utf8.byte_toNat (by omega)] at hwide
      omega

omit h [Score S] in
theorem pieceIds_unknown {c : Char} (hc : gpt2CharToByte c = none) :
    v.tokenizer.pieceIds [c] = [] := by
  have hunk : v.tokenizer.unkId = none := hbyte.unk
  rw [Tokenizer.pieceIds, lookup_unknown hbyte hc, hunk, List.flatMap_eq_nil_iff]
  intro b hb
  rw [Utf8.encode_singleton] at hb
  rw [byteToken_unknown hbyte hc hb]
  rfl

omit [Score S] in
theorem merged_bytes {piece : List Char} (hmerged : Merged v piece) :
    GivesBytes v.tokenizer (v.tokenizer.pieceIds piece) (alphabetBytes piece) := by
  have htoken : piece ∈ v.tokens →
      GivesBytes v.tokenizer (v.tokenizer.pieceIds piece) (alphabetBytes piece) := fun htoken =>
    (h.pieceIds_token htoken (hbyte.literal piece htoken) (fun id _ => hbyte.framing id)
      (hbyte.tokens piece htoken)).1
  rcases hmerged with ⟨c, rfl⟩ | hmem
  · cases hc : gpt2CharToByte c with
    | none =>
      rw [pieceIds_unknown hbyte hc, alphabetBytes, List.filterMap_cons_none hc]
      exact givesBytes_nil
    | some b => exact htoken (h.alphabet_mem (by rw [hc]; rfl))
  · exact htoken hmem

omit h [Score S] in
theorem greedyFrom_unknown {fuel : Nat} {rest : List Char}
    (hrest : ∀ c ∈ rest, gpt2CharToByte c = none) : v.tokenizer.greedyFrom fuel rest = [] := by
  have hunk : v.tokenizer.unkId = none := hbyte.unk
  induction rest generalizing fuel with
  | nil => cases fuel <;> rfl
  | cons c rest ih =>
    obtain ⟨hc, hrest'⟩ := List.forall_mem_cons.mp hrest
    cases fuel with
    | zero => rfl
    | succ fuel =>
      have hmatch : v.tokenizer.longestMatch (c :: rest) = none := by
        rw [Tokenizer.longestMatch, List.findSome?_eq_none_iff]
        intro k _
        split
        next => rfl
        next =>
          rw [Option.map_eq_none_iff, ← Option.not_isSome_iff_eq_none, Option.isSome_iff_exists]
          rintro ⟨id, hid⟩
          have hsome := mem_of_lookup hbyte hid (List.mem_cons_self (a := c))
          rw [hc] at hsome
          cases hsome
      obtain ⟨first, others, hfirst, -⟩ := Utf8.encode_first c
      have hnone := byteToken_unknown hbyte hc (b := first) (by rw [hfirst]; exact List.mem_cons_self)
      rw [Tokenizer.greedyFrom, hmatch]
      simp only
      rw [Tokenizer.unmatched, lookup_unknown hbyte hc, Utf8.encode_singleton, hfirst,
        List.headD_cons, hnone, hunk, ih hrest']
      rfl

omit h hbyte [Score S] in
theorem whitespace_unknown {c : Char} (hc : Unicode.isWhitespace c = true) :
    gpt2CharToByte c = none := by
  unfold Unicode.isWhitespace at hc
  simp only [decide_eq_true_eq] at hc
  unfold gpt2CharToByte
  simp only
  rw [if_neg (by omega), if_neg (by omega), if_neg (by omega), if_neg (by omega)]

omit h hbyte [Score S] in
theorem mem_squeeze {c : Char} (hc : ¬Unicode.isWhitespace c = true) {s : List Char} (hmem : c ∈ s)
    (pending : Bool) : c ∈ squeeze pending s := by
  induction s generalizing pending with
  | nil => cases hmem
  | cons d s ih =>
    rw [squeeze]
    rcases List.mem_cons.mp hmem with rfl | hmem
    · rw [if_neg hc]
      split
      next => exact List.mem_cons_of_mem _ List.mem_cons_self
      next => exact List.mem_cons_self
    · split
      next => exact ih hmem true
      next =>
        split
        next => exact List.mem_cons_of_mem _ (List.mem_cons_of_mem _ (ih hmem false))
        next => exact List.mem_cons_of_mem _ (ih hmem false)

omit h [Score S] in
/-- Where no character has a token, nothing is encoded. -/
theorem encodeBpe_unknown (hnone : ∀ c ∈ text, gpt2CharToByte c = none)
    (hids : (v.tokenizer.preTokenizeBpe text).flatMap (fun word =>
      (v.tokenizer.bpeWord word).flatMap v.tokenizer.pieceIds) = []) :
    v.tokenizer.encodeBpe text = [] := by
  rw [Tokenizer.encodeBpe]
  split
  next => rfl
  next =>
    simp only
    rw [if_pos hids, Tokenizer.encodeGreedy, greedyFrom_unknown hbyte hnone]

omit h hbyte [Score S] in
theorem map_eq_filterMap {A B : Type} {f : A → Option B} {l : List A}
    (hlength : (l.filterMap f).length = l.length) : l.map f = (l.filterMap f).map some := by
  induction l with
  | nil => rfl
  | cons a l ih =>
    cases ha : f a with
    | none =>
      have hle := List.length_filterMap_le f l
      rw [List.filterMap_cons_none ha, List.length_cons] at hlength
      omega
    | some b =>
      rw [List.filterMap_cons_some ha, List.length_cons, List.length_cons] at hlength
      rw [List.map_cons, ha, ih (by omega), List.filterMap_cons_some ha, List.map_cons]

omit h hbyte [Score S] in
/-- Bytes that each read back the character they were written for. -/
theorem printable_of_bytes {bytes : List UInt8} (hbytes : text.map (fun c => gpt2CharToByte (mark c)) =
    bytes.map some) (htext : bytes.map Utf8.charOfByte = text) {c : Char} (hc : c ∈ text) :
    c = ' ' ∨ 0x21 ≤ c.toNat ∧ c.toNat ≤ 0x7E := by
  obtain ⟨i, hi⟩ := List.mem_iff_getElem?.mp hc
  have hbyte := congrArg (fun l => l[i]?) hbytes
  have hread := congrArg (fun l => l[i]?) htext
  simp only [List.getElem?_map, hi, Option.map_some] at hbyte hread
  obtain ⟨b, hb, hchar⟩ := Option.map_eq_some_iff.mp hread
  rw [hb, Option.map_some, Option.some_inj] at hbyte
  by_cases hspace : Unicode.isWhitespace c = true
  · rw [mark, if_pos hspace] at hbyte
    obtain rfl : b = 0x20 := (Option.some_inj.mp hbyte).symm
    exact .inl hchar.symm
  · rw [mark, if_neg hspace] at hbyte
    rw [Utf8.charOfByte] at hchar
    split at hchar
    next hascii =>
      have hc : c.toNat < 0x80 := by
        rw [← hchar, Utf8.toNat_ofNat_ascii hascii]
        exact hascii
      exact .inr (alphabet_ascii hbyte hc).2
    next =>
      rw [← hchar] at hbyte
      cases hbyte

theorem text_of_readback
    (hback : v.tokenizer.decode (v.tokenizer.encode text addBos) = .ok text) : Gpt2Text text := by
  have hwords := h.words_bytes text fun word _ piece hpiece =>
    merged_bytes h hbyte ((bpeWord_spec h word).2 piece hpiece)
  have hclear := clear_of_byteLevel h hbyte addBos text
  by_cases hnil : text = []
  · rw [hnil]
    exact ⟨nofun, ⟨.nil, nofun⟩⟩
  by_cases hids : (v.tokenizer.preTokenizeBpe text).flatMap (fun word =>
      (v.tokenizer.bpeWord word).flatMap v.tokenizer.pieceIds) = []
  · -- No token stands for any character, and the text comes back empty.
    rw [hids] at hwords
    have hnone : ∀ c ∈ text, gpt2CharToByte c = none := by
      intro c hc
      by_cases hspace : Unicode.isWhitespace c = true
      · exact whitespace_unknown hspace
      · exact List.filterMap_eq_nil_iff.mp hwords.eq_nil c (mem_squeeze hspace hc false)
    rw [h.decode_encode hclear (by rw [encodeBpe_unknown hbyte hnone hids]; exact givesBytes_nil)]
      at hback
    exact absurd (Outcome.ok.inj hback).symm hnil
  · -- Each byte is one character of the text, so none was lost.
    have hencode : v.tokenizer.encodeBpe text = (v.tokenizer.preTokenizeBpe text).flatMap fun word =>
        (v.tokenizer.bpeWord word).flatMap v.tokenizer.pieceIds := by
      rw [Tokenizer.encodeBpe, if_neg hnil]
      exact if_neg hids
    rw [h.decode_encode hclear (by rw [hencode]; exact hwords)] at hback
    have hlossy := Outcome.ok.inj hback
    obtain ⟨hle, hbytes⟩ := Utf8.length_lossy (alphabetBytes (squeeze false text))
    have hmap : (alphabetBytes (squeeze false text)).length ≤ (squeeze false text).length :=
      List.length_filterMap_le ..
    have hsqueeze := (length_squeeze text).1
    have hspaced : Spaced text := spaced_of_length (by rw [hlossy] at hle; omega)
    rw [squeeze_spaced hspaced] at hle hbytes hmap hlossy
    rw [List.length_map] at hmap
    have hread := hbytes (by rw [hlossy] at hle ⊢; omega)
    rw [hlossy] at hread hle
    have hall := map_eq_filterMap (f := gpt2CharToByte) (l := text.map mark)
      (by rw [List.length_map]; exact Nat.le_antisymm hmap hle)
    rw [List.map_map] at hall
    exact ⟨fun c hc => printable_of_bytes hall hread.symm hc, hspaced⟩

end Gpt2

/-- The byte alphabet and nothing else. -/
def alphabetVocabulary : Vocabulary (Option ℚ) where
  model := "gpt2"
  pre := none
  tokens := (List.range 256).map fun n => [gpt2ByteToChar (UInt8.ofNat n)]
  scores := []
  tokenTypes := List.replicate 256 .normal
  merges := some []
  bosId := none
  eosId := none
  unkId := none
  padId := none
  addBos := false
  addEos := false
  size := by
    rw [List.length_map, List.length_range]
    decide

theorem mem_alphabetVocabulary {token : List Char} :
    token ∈ alphabetVocabulary.tokens ↔ ∃ n < 256, [gpt2ByteToChar (UInt8.ofNat n)] = token := by
  show token ∈ (List.range 256).map (fun n => [gpt2ByteToChar (UInt8.ofNat n)]) ↔ _
  simp only [List.mem_map, List.mem_range]

theorem gpt2_alphabetVocabulary : Gpt2 alphabetVocabulary where
  model := rfl
  alphabet b := mem_alphabetVocabulary.mpr ⟨b.toNat, b.toNat_lt, by rw [UInt8.ofNat_toNat]⟩
  merges := nofun

theorem byteLevel_alphabetVocabulary : ByteLevel alphabetVocabulary where
  tokens token htoken c hc := by
    obtain ⟨n, -, rfl⟩ := mem_alphabetVocabulary.mp htoken
    rw [List.mem_singleton.mp hc, gpt2CharToByte_byteToChar]
    rfl
  literal token htoken hliteral := by
    obtain ⟨n, -, rfl⟩ := mem_alphabetVocabulary.mp htoken
    unfold isByteLiteral at hliteral
    rw [Bool.and_eq_true, Bool.and_eq_true, List.isPrefixOf_iff_prefix] at hliteral
    have hlength := hliteral.1.1.length_le
    rw [List.length_singleton] at hlength
    exact absurd hlength (by decide)
  framing id hframing := by
    rcases hframing.1 with heq | heq <;> cases heq
  special := by decide +kernel
  unk := rfl
  bos := .inr rfl
  eos := .inr rfl

namespace Gpt2

end Gpt2
end Ramforge
