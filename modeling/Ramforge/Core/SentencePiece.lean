/-
What a SentencePiece vocabulary makes of a text and reads back.

The path search reads every text back.  The greedy search writes one byte of a character
that starts no token, so it reads back those characters that are one byte.
-/
import Ramforge.Core.VocabularyMaps

namespace Ramforge

open Rust TokenDecoder

variable {S : Type} {v : Vocabulary S}

/-- A vocabulary of the llama kind with a token for each byte, and with no merges and no
special tokens. -/
structure SentencePiece (v : Vocabulary S) : Prop where
  model : v.model = "llama"
  pre : v.pre ≠ some "qwen2"
  merges : v.merges = none
  bytes : ∀ b, byteLiteral b ∈ v.tokens
  special : v.specialTokens = []
  framing : ∀ id, some id = v.bosId ∨ some id = v.eosId → v.tokenTypes[id.toNat]? ≠ some .control
  eos : v.addEos = false ∨ v.eosId = none

/-- A text with no white space in front and without the marks of the vocabulary. -/
structure PlainText (text : List Char) : Prop where
  first : ∀ c ∈ text.head?, Unicode.isWhitespace c = false
  space : '▁' ∉ text
  marker : 'Ġ' ∉ text
  bracket : '<' ∉ text

/-! ## Ids -/

namespace SentencePiece

variable {w : List Char} {id : UInt32} {b : UInt8} (h : SentencePiece v)
include h

theorem pieceOf_eq {token : List Char} (htoken : v.tokens[id.toNat]? = some token) :
    pieceOf v.tokenizer id = some (
      match if isByteLiteral token then u8FromHex (literalDigits token) else none with
      | some byte => .bytes [byte]
      | none =>
        if v.tokenTypes[id.toNat]? = some .byte ∧ Utf8.len token = 1 then
          .bytes ((Utf8.encode token).take 1)
        else .text (normalized token)) := by
  have hgpt2 : v.tokenizer.usesGpt2ByteEncoding = false := by
    show (v.model == "gpt2" || v.model == "qwen2") = false
    rw [h.model]
    decide
  have htokens : v.tokenizer.tokens[id.toNat]? = some token := htoken
  unfold pieceOf
  rw [if_neg (fun hframe => h.framing id hframe.1 hframe.2), htokens, hgpt2]
  rfl

theorem decodes_byte (hid : v.StandsFor b id) (hb : ¬(0x80 ≤ b.toNat ∧ b.toNat ≤ 0xBF)) :
    Decodes v.tokenizer [id] (Utf8.lossy [b]) := by
  refine Decodes.one (p := .bytes [b]) ?_ ⟨b, [], rfl, hb⟩
  obtain ⟨token, htoken, ⟨hliteral, hbyte⟩ | ⟨hliteral, htype, hlen, hhead⟩⟩ := hid
  · rw [h.pieceOf_eq htoken, if_pos hliteral, hbyte]
  · rw [h.pieceOf_eq htoken, if_neg hliteral]
    simp only
    rw [if_pos ⟨htype, hlen⟩]
    obtain ⟨first, rest, hbytes⟩ := List.exists_cons_of_length_pos
      (l := Utf8.encode token) (by rw [← Utf8.len]; omega)
    rw [hbytes, List.head?_cons, Option.some_inj] at hhead
    rw [hbytes, hhead]
    rfl

theorem decodes_token (htoken : v.tokens[id.toNat]? = some w) (hlt : '<' ∉ w) :
    Decodes v.tokenizer [id] (normalized w) := by
  have hliteral : ¬isByteLiteral w = true := fun hliteral => hlt (lt_of_isByteLiteral hliteral)
  have hpiece := h.pieceOf_eq htoken
  rw [if_neg hliteral] at hpiece
  simp only at hpiece
  split at hpiece
  next hbyte =>
    obtain ⟨c, rfl, hc⟩ := Utf8.ascii_of_len hbyte.2
    have hfirst := Utf8.encode_ascii hc
    rw [Utf8.encode_singleton, hfirst] at hpiece
    have hone := Decodes.one (p := .bytes [UInt8.ofNat c.toNat]) hpiece
      ⟨_, [], rfl, by rw [Utf8.byte_toNat (by omega)]; omega⟩
    have halone : alone (.bytes [UInt8.ofNat c.toNat]) = normalized [c] := by
      have hspace : ¬(c = '▁' ∨ c = 'Ġ') := by
        rintro (rfl | rfl)
        · exact absurd hc (by decide)
        · exact absurd hc (by decide)
      rw [alone, Utf8.lossy_first hfirst, if_pos hc, normalized, List.map_singleton, normalizeChar,
        if_neg hspace]
    rwa [halone] at hone
  next => exact Decodes.one hpiece trivial

end SentencePiece

/-! ## The greedy search -/

/-- The greedy search comes to a character that starts no token of the vocabulary. -/
inductive Misses (t : Tokenizer S) : List Char → Char → Prop where
  | here (c : Char) (rest : List Char) : t.longestMatch (c :: rest) = none → Misses t (c :: rest) c
  | next (c : Char) (rest : List Char) (d : Char) :
    t.longestMatch (c :: rest) = none → Misses t rest d → Misses t (c :: rest) d
  | jump (text : List Char) (length : Nat) (id : UInt32) (d : Char) :
    t.longestMatch text = some (length, id) → Misses t (text.drop length) d → Misses t text d

/-- A character that one byte stands for, or that stands for a byte that is none. -/
def OneByte (c : Char) : Prop := c.toNat < 0x80 ∨ c = '\uFFFD'

theorem not_misses_nil {t : Tokenizer S} {d : Char} (h : Misses t [] d) : False := by
  cases h with
  | jump _ length id _ hmatch => cases hmatch

theorem Misses.mem {t : Tokenizer S} {text : List Char} {d : Char} (h : Misses t text d) :
    d ∈ text := by
  induction h with
  | here c rest => exact List.mem_cons_self ..
  | next c rest d _ _ ih => exact List.mem_cons_of_mem c ih
  | jump text length id d _ _ ih => exact List.mem_of_mem_drop ih

theorem misses_cons {t : Tokenizer S} {c d : Char} {rest : List Char}
    (hmatch : t.longestMatch (c :: rest) = none) :
    Misses t (c :: rest) d ↔ d = c ∨ Misses t rest d := by
  constructor
  · intro h
    cases h with
    | here => exact .inl rfl
    | next _ _ _ _ h => exact .inr h
    | jump _ _ _ _ hsome => rw [hmatch] at hsome; cases hsome
  · rintro (rfl | h)
    · exact .here d rest hmatch
    · exact .next c rest d hmatch h

theorem misses_jump {t : Tokenizer S} {text : List Char} {length : Nat} {id : UInt32} {d : Char}
    (hmatch : t.longestMatch text = some (length, id)) :
    Misses t text d ↔ Misses t (text.drop length) d := by
  constructor
  · intro h
    cases h with
    | here _ _ hnone => rw [hmatch] at hnone; cases hnone
    | next _ _ _ hnone => rw [hmatch] at hnone; cases hnone
    | jump _ _ _ _ hsome h =>
      rw [hmatch] at hsome
      cases hsome
      exact h
  · exact fun h => .jump text length id d hmatch h

theorem longestMatch_some {t : Tokenizer S} {text : List Char} {length : Nat} {id : UInt32}
    (h : t.longestMatch text = some (length, id)) :
    0 < length ∧ length ≤ text.length ∧ t.tokenToId.lookup (text.take length) = some id := by
  obtain ⟨k, hk, hfound⟩ := List.exists_of_findSome?_eq_some h
  rw [List.mem_reverse, List.mem_range] at hk
  split at hfound
  next => cases hfound
  next =>
    obtain ⟨id', hid, hpair⟩ := Option.map_eq_some_iff.mp hfound
    cases hpair
    exact ⟨Nat.succ_pos _, hk, hid⟩

theorem longestMatch_none {t : Tokenizer S} {c : Char} {rest : List Char}
    (h : t.longestMatch (c :: rest) = none) : t.tokenToId.lookup [c] = none := by
  have hk := List.findSome?_eq_none_iff.mp h 0 (by simp)
  exact Option.map_eq_none_iff.mp hk

/-- A character as the greedy search reads it back. -/
def Readback (c g : Char) : Prop := g = normalizeChar c ∨ g = '\uFFFD'

theorem readback_normalized (w : List Char) : List.Forall₂ Readback w (normalized w) := by
  induction w with
  | nil => exact .nil
  | cons c w ih => exact .cons (.inl rfl) ih

theorem normalizeChar_iff (c : Char) :
    (if c.toNat < 0x80 then c else '\uFFFD') = normalizeChar c ↔ OneByte c := by
  unfold normalizeChar OneByte
  split
  next hc =>
    have hspace : ¬(c = '▁' ∨ c = 'Ġ') := by
      rintro (rfl | rfl)
      · exact absurd hc (by decide)
      · exact absurd hc (by decide)
    simp [hspace, hc]
  next hc =>
    split
    next hspace =>
      constructor
      · intro hspace'
        cases hspace'
      · rintro (hc' | rfl)
        · exact absurd hc' hc
        · exact absurd hspace (by decide)
    next =>
      constructor
      · exact fun heq => .inr heq.symm
      · rintro (hc' | rfl)
        · exact absurd hc' hc
        · rfl

namespace SentencePiece

/-- What the greedy search reads back, character by character. -/
theorem greedyFrom_decodes (h : SentencePiece v) {fuel : Nat} {text : List Char}
    (hfuel : text.length ≤ fuel) (hlt : '<' ∉ text) :
    ∃ out, Decodes v.tokenizer (v.tokenizer.greedyFrom fuel text) out ∧
      List.Forall₂ Readback text out ∧
      (out = normalized text ↔ ∀ c, Misses v.tokenizer text c → OneByte c) := by
  induction fuel generalizing text with
  | zero =>
    obtain rfl := List.eq_nil_of_length_eq_zero (Nat.le_zero.mp hfuel)
    exact ⟨[], .nil, .nil, fun _ c hmiss => (not_misses_nil hmiss).elim, fun _ => rfl⟩
  | succ fuel ih =>
    cases text with
    | nil => exact ⟨[], .nil, .nil, fun _ c hmiss => (not_misses_nil hmiss).elim, fun _ => rfl⟩
    | cons c rest =>
      rw [List.length_cons] at hfuel
      rw [Tokenizer.greedyFrom]
      split
      next length id hmatch =>
        obtain ⟨hpos, hle, hlookup⟩ := longestMatch_some hmatch
        have hdrop := List.length_drop (i := length) (l := c :: rest)
        rw [List.length_cons] at hdrop hle
        have hshort : ((c :: rest).drop length).length ≤ fuel := by omega
        obtain ⟨out, hdecodes, hread, hiff⟩ := ih hshort (fun hmem => hlt (List.mem_of_mem_drop hmem))
        have htoken := h.decodes_token (Vocabulary.tokens_of_lookup hlookup)
          (fun hmem => hlt (List.mem_of_mem_take hmem))
        have hsplit := List.take_append_drop length (c :: rest)
        refine ⟨normalized ((c :: rest).take length) ++ out, htoken.append hdecodes, ?_, ?_⟩
        · have hall : List.Forall₂ Readback ((c :: rest).take length ++ (c :: rest).drop length)
              (normalized ((c :: rest).take length) ++ out) :=
            List.rel_append (readback_normalized _) hread
          rwa [hsplit] at hall
        · simp only [misses_jump hmatch, ← hiff]
          have hnormal : normalized (c :: rest) =
              normalized ((c :: rest).take length) ++ normalized ((c :: rest).drop length) := by
            rw [normalized, normalized, normalized, ← List.map_append, hsplit]
          rw [hnormal, List.append_right_inj]
      next hmatch =>
        have hshort : rest.length ≤ fuel := by omega
        obtain ⟨out, hdecodes, hread, hiff⟩ := ih hshort (fun hmem => hlt (List.mem_cons_of_mem c hmem))
        obtain ⟨first, others, hfirst, hlead⟩ := Utf8.encode_first c
        obtain ⟨id, hid⟩ := Option.isSome_iff_exists.mp (Vocabulary.isSome_byteTokens (h.bytes first))
        have hunmatched : v.tokenizer.unmatched c = [id] := by
          have hid' : v.tokenizer.byteTokens.lookup first = some id := hid
          rw [Tokenizer.unmatched, longestMatch_none hmatch, Utf8.encode_singleton, hfirst,
            List.headD_cons, hid']
        have hbyte := h.decodes_byte (Vocabulary.standsFor_of_lookup hid) hlead
        rw [Utf8.lossy_first hfirst] at hbyte
        rw [hunmatched]
        refine ⟨_, hbyte.append hdecodes, ?_, ?_⟩
        · refine .cons ?_ hread
          split
          next hc => exact .inl (((normalizeChar_iff c).mpr (.inl hc)).symm ▸ (if_pos hc).symm)
          next => exact .inr rfl
        · simp only [misses_cons hmatch, forall_eq_or_imp]
          rw [← hiff, ← normalizeChar_iff, List.singleton_append, normalized, List.map_cons,
            List.cons.injEq]
          rfl

end SentencePiece
end Ramforge
