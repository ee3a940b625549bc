/-
Which texts a SentencePiece vocabulary reads back.
-/
import Ramforge.Core.SentencePiece

namespace Ramforge

open Rust TokenDecoder
open Tokenizer (Cell Table startTable)

variable {S : Type} [Score S]

/-! ## The path search -/

section Path

variable {t : Tokenizer S} {chars : List Char} {table : Table S}

/-- A position that a path of tokens ends at. -/
def Reached (table : Table S) (pos : Nat) : Prop := pos = 0 ∨ (table pos).id.isSome = true

/-- The table holds paths: the last token of each starts where a path ends. -/
structure Paths (t : Tokenizer S) (chars : List Char) (table : Table S) : Prop where
  scored : ∀ pos, Score.eq (table pos).score Score.negInfinity = false → Reached table pos
  token : ∀ pos id, (table pos).id = some id →
    (table pos).prev < pos ∧ Reached table (table pos).prev ∧
      t.tokenToId.lookup ((chars.drop (table pos).prev).take (pos - (table pos).prev)) = some id

theorem paths_start : Paths t chars startTable where
  scored pos hscore := by
    by_cases hpos : pos = 0
    · exact .inl hpos
    · have heq : Score.eq (startTable (S := S) pos).score Score.negInfinity = true := by
        rw [startTable, if_neg hpos]
        exact Score.eq_negInfinity
      rw [heq] at hscore
      cases hscore
  token _ _ hid := by cases hid

theorem Paths.relax (h : Paths t chars table) {i len : Nat} (hi : Reached table i) (hlen : 0 < len) :
    Paths t chars (t.relax chars i table len) ∧
      ∀ pos, Reached table pos → Reached (t.relax chars i table len) pos := by
  unfold Tokenizer.relax
  split
  next => exact ⟨h, fun _ hpos => hpos⟩
  next id hlookup =>
    simp only
    split
    next =>
      generalize Score.add (table i).score _ = newScore
      have hkeep : ∀ pos, Reached table pos → Reached (fun pos =>
          if pos = i + len then (⟨newScore, some id, i⟩ : Cell S) else table pos) pos := by
        rintro pos (hpos | hpos)
        · exact .inl hpos
        · refine .inr ?_
          simp only
          split
          next => rfl
          next => exact hpos
      refine ⟨⟨fun pos hscore => ?_, fun pos id' hid => ?_⟩, hkeep⟩
      · by_cases hpos : pos = i + len
        · refine .inr ?_
          simp only [if_pos hpos]
          rfl
        · rw [if_neg hpos] at hscore
          exact hkeep pos (h.scored pos hscore)
      · by_cases hpos : pos = i + len
        · subst hpos
          simp only [if_true] at hid ⊢
          cases hid
          refine ⟨by omega, hkeep i hi, ?_⟩
          rwa [Nat.add_sub_cancel_left]
        · simp only [if_neg hpos] at hid ⊢
          obtain ⟨hlt, hreached, htoken⟩ := h.token pos id' hid
          exact ⟨hlt, hkeep _ hreached, htoken⟩
    next => exact ⟨h, fun _ hpos => hpos⟩

theorem Paths.relaxFrom (h : Paths t chars table) (i : Nat) :
    Paths t chars (t.relaxFrom chars table i) := by
  unfold Tokenizer.relaxFrom
  split
  next => exact h
  next hscore =>
    rw [Bool.not_eq_true] at hscore
    have hfold := List.foldlRecOn (List.range' 1 (min (chars.length - i) 32)) (t.relax chars i)
      (motive := fun table => Paths t chars table ∧ Reached table i) ⟨h, h.scored i hscore⟩
      (fun table hpaths len hlen => by
        rw [List.mem_range'_1] at hlen
        obtain ⟨hrelax, hkeep⟩ := hpaths.1.relax hpaths.2 (by omega : 0 < len)
        exact ⟨hrelax, hkeep i hpaths.2⟩)
    exact hfold.1

theorem paths_search (t : Tokenizer S) (chars : List Char) : Paths t chars (t.search chars) :=
  List.foldlRecOn (List.range chars.length) (t.relaxFrom chars) (motive := Paths t chars) paths_start
    fun _ h i _ => h.relaxFrom i

end Path

namespace SentencePiece

variable {v : Vocabulary S}

/-- The tokens of a path read back the text up to its end. -/
theorem backtrack_decodes (h : SentencePiece v) {chars : List Char} {table : Table S}
    (hpaths : Paths v.tokenizer chars table) (hlt : '<' ∉ chars) {fuel pos : Nat}
    (hpos : pos ≤ fuel) (hreached : Reached table pos) :
    Decodes v.tokenizer (v.tokenizer.backtrack chars table fuel pos).reverse
      (normalized (chars.take pos)) := by
  induction fuel generalizing pos with
  | zero =>
    obtain rfl := Nat.le_zero.mp hpos
    exact .nil
  | succ fuel ih =>
    cases pos with
    | zero => exact .nil
    | succ pos =>
      obtain ⟨id, hid⟩ := Option.isSome_iff_exists.mp (hreached.resolve_left (Nat.succ_ne_zero pos))
      obtain ⟨hprev, hprevReached, hlookup⟩ := hpaths.token _ _ hid
      have hle : (table (pos + 1)).prev ≤ fuel := by omega
      have hrest := ih hle hprevReached
      have htoken := h.decodes_token (Vocabulary.tokens_of_lookup hlookup)
        (fun hmem => hlt (List.mem_of_mem_drop (List.mem_of_mem_take hmem)))
      have hsplit : chars.take (pos + 1) = chars.take (table (pos + 1)).prev ++
          (chars.drop (table (pos + 1)).prev).take (pos + 1 - (table (pos + 1)).prev) := by
        rw [← List.take_add, Nat.add_sub_cancel' (by omega)]
      have hids : v.tokenizer.backtrack chars table (fuel + 1) (pos + 1) =
          id :: v.tokenizer.backtrack chars table fuel (table (pos + 1)).prev := by
        rw [Tokenizer.backtrack, hid]
      rw [hids, List.reverse_cons, hsplit, normalized, List.map_append]
      exact hrest.append htoken

/-! ## Round trip -/

variable (v) in
/-- The search for the best path finds none. -/
def PathMissing (text : List Char) : Prop :=
  let processed := v.tokenizer.preprocess text
  Score.eq (v.tokenizer.search processed processed.length).score Score.negInfinity = true

theorem trimStart_readback {s out : List Char} (hread : List.Forall₂ Readback s out)
    (hfirst : ∀ c ∈ s.head?, Unicode.isWhitespace (normalizeChar c) = false) :
    Unicode.trimStart out = out := by
  cases hread with
  | nil => rfl
  | cons hg _ =>
    have hspace : ∀ g, Unicode.isWhitespace g = false → ∀ out,
        Unicode.trimStart (g :: out) = g :: out := by
      intro g hg out
      rw [Unicode.trimStart, List.dropWhile_cons, hg]
      rfl
    refine hspace _ ?_ _
    rcases hg with rfl | rfl
    · exact hfirst _ rfl
    · decide

theorem normalizeChar_of_ne {c : Char} (hspace : c ≠ '▁') (hmarker : c ≠ 'Ġ') :
    normalizeChar c = c := by
  rw [normalizeChar, if_neg (by rintro (h | h); exacts [hspace h, hmarker h])]

theorem map_eq_self {f : Char → Char} {text : List Char} (h : ∀ c ∈ text, f c = c) :
    text.map f = text :=
  (List.map_congr_left h).trans (List.map_id' text)

theorem normalized_plain {text : List Char} (htext : PlainText text) : normalized text = text :=
  map_eq_self fun _ hc => normalizeChar_of_ne (fun heq => htext.space (heq ▸ hc))
    (fun heq => htext.marker (heq ▸ hc))

/-- A space and the mark that stands for it read back the same. -/
theorem normalized_marked {text : List Char} (htext : PlainText text) :
    normalized (text.map fun c => if c = ' ' then '▁' else c) = text := by
  rw [normalized, List.map_map]
  refine map_eq_self fun c hc => ?_
  rw [Function.comp_apply]
  split
  next hspace =>
    rw [hspace]
    rfl
  next =>
    exact normalizeChar_of_ne (fun heq => htext.space (heq ▸ hc)) (fun heq => htext.marker (heq ▸ hc))

omit [Score S] in
theorem not_mem_preprocess {t : Tokenizer S} {text : List Char} (htext : PlainText text) :
    '<' ∉ t.preprocess text := by
  have hmarked : '<' ∉ text.map fun c => if c = ' ' then '▁' else c := by
    rw [List.mem_map]
    rintro ⟨c, hc, heq⟩
    split at heq
    next => cases heq
    next => exact htext.bracket (heq ▸ hc)
  unfold Tokenizer.preprocess
  simp only
  split
  next =>
    split
    next =>
      rw [List.mem_cons]
      rintro (heq | hmem)
      · cases heq
      · exact hmarked hmem
    next => exact hmarked
  next => exact htext.bracket

omit [Score S] in
/-- The text comes back if and only if each character does. -/
theorem leading_readback (h : SentencePiece v) {text out : List Char} (htext : PlainText text)
    (hread : List.Forall₂ Readback (v.tokenizer.preprocess text) out) :
    leading v.tokenizer out = text ↔ out = normalized (v.tokenizer.preprocess text) := by
  have hmodel : v.tokenizer.model = "llama" := h.model
  have hfirst : ∀ c ∈ text.head?, Unicode.isWhitespace (normalizeChar c) = false := by
    intro c hc
    have hmem := List.mem_of_head? hc
    rw [normalizeChar_of_ne (fun heq => htext.space (heq ▸ hmem))
      (fun heq => htext.marker (heq ▸ hmem))]
    exact htext.first c hc
  have hmarkedFirst : ∀ c ∈ (text.map fun c => if c = ' ' then '▁' else c).head?,
      Unicode.isWhitespace (normalizeChar c) = false := by
    intro c hc
    rw [List.head?_map, Option.mem_map] at hc
    obtain ⟨d, hd, rfl⟩ := hc
    have hspace : d ≠ ' ' := by
      rintro rfl
      exact absurd (htext.first _ hd) (by decide)
    rw [if_neg hspace]
    exact hfirst d hd
  rw [leading, if_pos hmodel]
  unfold Tokenizer.preprocess at hread ⊢
  simp only at hread ⊢
  split at hread
  next hmarks =>
    rw [if_pos hmarks]
    split at hread
    next hfront =>
      rw [if_pos hfront]
      cases hread with
      | cons hg hread =>
        rename_i g ys
        have hlength := hread.length_eq
        rw [List.length_map] at hlength
        have hnormal : normalized ('▁' :: text.map fun c => if c = ' ' then '▁' else c) =
            ' ' :: text := by
          rw [normalized, List.map_cons, ← normalized, normalized_marked htext]
          rfl
        rw [hnormal]
        rcases hg with rfl | rfl
        · show Unicode.trimStart (' ' :: ys) = text ↔ ' ' :: ys = ' ' :: text
          have hys : Unicode.trimStart (' ' :: ys) = ys := trimStart_readback hread hmarkedFirst
          rw [hys, List.cons_inj_right]
        · have hys : Unicode.trimStart ('\uFFFD' :: ys) = '\uFFFD' :: ys := rfl
          rw [hys]
          constructor
          · intro heq
            rw [← heq, List.length_cons] at hlength
            omega
          · intro heq
            cases heq
    next hfront =>
      rw [if_neg hfront, trimStart_readback hread hmarkedFirst, normalized_marked htext]
  next hmarks =>
    rw [if_neg hmarks, trimStart_readback hread hfirst, normalized_plain htext]

theorem encode_eq (h : SentencePiece v) (text : List Char) :
    v.tokenizer.encode text false = v.tokenizer.encodeSentencepiece text := by
  have hspecial : v.tokenizer.specialTokens = [] := h.special
  have hplain : ¬(v.tokenizer.model = "gpt2" ∨ v.tokenizer.pre = some "qwen2" ∨
      v.tokenizer.merges.isSome = true) := by
    have hmodel : v.tokenizer.model = "llama" := h.model
    have hmerges : v.tokenizer.merges = none := h.merges
    rw [hmodel, hmerges]
    rintro (hbad | hbad | hbad)
    · exact absurd hbad (by decide)
    · exact h.pre hbad
    · cases hbad
  have heos : (if v.tokenizer.addEos then v.tokenizer.eosId.toList else []) = [] := by
    rcases h.eos with heos | heos
    · exact if_neg (by show ¬v.addEos = true; rw [heos]; exact Bool.false_ne_true)
    · have heos' : v.tokenizer.eosId = none := heos
      rw [heos']
      split <;> rfl
  rw [Tokenizer.encode, if_neg (by simp), List.nil_append, heos, List.append_nil,
    Tokenizer.encodeWithSpecialTokens, if_pos hspecial, Tokenizer.encodePlain, if_neg hplain]

/-- A character of more than one byte that is no token, alone. -/
theorem wide_lost (h : SentencePiece v) {c : Char} (hprocessed : v.tokenizer.preprocess [c] = [c])
    (hmem : [c] ∉ v.tokens) (hwide : ¬c.toNat < 0x80) :
    v.tokenizer.decode (v.tokenizer.encode [c] false) = .ok ['\uFFFD'] := by
  have hlookup : v.tokenizer.tokenToId.lookup [c] = none := by
    rw [← Option.not_isSome_iff_eq_none, Option.isSome_iff_exists]
    rintro ⟨id, hid⟩
    exact hmem (List.mem_of_getElem? (Vocabulary.tokens_of_lookup hid))
  have hsearch : v.tokenizer.search [c] = v.tokenizer.relaxFrom [c] startTable 0 := rfl
  have hrelax : v.tokenizer.relaxFrom [c] startTable 0 = startTable := by
    unfold Tokenizer.relaxFrom
    split
    next => rfl
    next =>
      show v.tokenizer.relax [c] 0 startTable 1 = startTable
      rw [Tokenizer.relax, List.drop_zero, List.take_one, List.head?_cons, Option.toList_some,
        hlookup]
  obtain ⟨first, others, hfirst, hlead⟩ := Utf8.encode_first c
  obtain ⟨id, hid⟩ := Option.isSome_iff_exists.mp (Vocabulary.isSome_byteTokens (h.bytes first))
  have hgreedy : v.tokenizer.encodeGreedy [c] = [id] := by
    have hid' : v.tokenizer.byteTokens.lookup first = some id := hid
    have hmatch : v.tokenizer.longestMatch [c] = none := by
      rw [Tokenizer.longestMatch, List.findSome?_eq_none_iff]
      intro k hk
      rw [List.mem_reverse, List.mem_range, List.length_singleton, Nat.lt_one_iff] at hk
      rw [hk, List.take_one, List.head?_cons, Option.toList_some, hlookup]
      rfl
    rw [Tokenizer.encodeGreedy, List.length_singleton, Tokenizer.greedyFrom, hmatch]
    simp only
    rw [Tokenizer.unmatched, hlookup, Utf8.encode_singleton, hfirst, List.headD_cons, hid',
      Tokenizer.greedyFrom, List.append_nil]
  have hdecodes := h.decodes_byte (Vocabulary.standsFor_of_lookup hid) hlead
  rw [Utf8.lossy_first hfirst, if_neg hwide] at hdecodes
  rw [h.encode_eq, Tokenizer.encodeSentencepiece, if_neg (List.cons_ne_nil c []), hprocessed]
  simp only
  rw [hsearch, hrelax, List.length_singleton, startTable, if_neg Nat.one_ne_zero,
    if_pos Score.eq_negInfinity, hgreedy, hdecodes.decode, leading]
  split <;> rfl

/-- The byte tokens and nothing else. -/
def byteVocabulary : Vocabulary (Option ℚ) where
  model := "llama"
  pre := none
  tokens := (List.range 256).map fun n => byteLiteral (UInt8.ofNat n)
  scores := []
  tokenTypes := List.replicate 256 .byte
  merges := none
  bosId := none
  eosId := none
  unkId := none
  padId := none
  addBos := false
  addEos := false
  size := by
    rw [List.length_map, List.length_range]
    decide

theorem sentencePiece_byteVocabulary : SentencePiece byteVocabulary where
  model := rfl
  pre := nofun
  merges := rfl
  bytes b := by
    have hmem : byteLiteral (UInt8.ofNat b.toNat) ∈
        (List.range 256).map fun n => byteLiteral (UInt8.ofNat n) :=
      List.mem_map_of_mem (List.mem_range.mpr b.toNat_lt)
    rwa [UInt8.ofNat_toNat] at hmem
  special := by decide +kernel
  framing := nofun
  eos := .inr rfl

theorem plainText_ascii : PlainText "a b".toList where
  first c hc := by
    cases hc
    decide
  space := by decide
  marker := by decide
  bracket := by decide

end SentencePiece
end Ramforge
