/-
The pieces of a word, and the bytes their tokens are read back as.
-/
import Ramforge.Core.Gpt2
import Ramforge.Rust.PairReduction

namespace Ramforge

open Rust TokenDecoder

variable {S : Type} {t : Tokenizer S}

/-! ## Pieces -/

/-- The bytes that a text of the alphabet stands for; other characters stand for none. -/
def alphabetBytes (s : List Char) : List UInt8 := s.filterMap gpt2CharToByte

theorem alphabetBytes_append (a b : List Char) :
    alphabetBytes (a ++ b) = alphabetBytes a ++ alphabetBytes b := List.filterMap_append

theorem gpt2TokenBytes_eq {token : List Char}
    (h : ∀ c ∈ token, (gpt2CharToByte c).isSome = true) :
    gpt2TokenBytes token = some (alphabetBytes token) := by
  induction token with
  | nil => rfl
  | cons c token ih =>
    obtain ⟨hc, htoken⟩ := List.forall_mem_cons.mp h
    obtain ⟨b, hb⟩ := Option.isSome_iff_exists.mp hc
    have hbytes : alphabetBytes (c :: token) = b :: alphabetBytes token :=
      List.filterMap_cons_some hb
    rw [gpt2TokenBytes, List.mapM_cons, hb, ← gpt2TokenBytes, ih htoken, hbytes]
    rfl

/-- The pieces that merging gives: a character, or a token. -/
def Merged (v : Vocabulary S) (piece : List Char) : Prop := (∃ c, piece = [c]) ∨ piece ∈ v.tokens

/-- Pieces at a position that have a rank together. -/
def Ranked (t : Tokenizer S) (pieces : List (List Char)) (found : Nat × Nat) : Prop :=
  ∃ pair, (pieces.zip pieces.tail)[found.2]? = some pair ∧
    t.mergesRank.lookup pair = some found.1

/-- The rank of two neighbours. -/
def Tokenizer.pairRank (t : Tokenizer S) (left right : List Char) : Option Nat :=
  t.mergesRank.lookup (left, right)

theorem ranked_iff {pieces : List (List Char)} {i r : Nat} :
    PairReduction.Ranked t.pairRank pieces i r ↔ Ranked t pieces (r, i) := by
  constructor
  · rintro ⟨left, right, hleft, hright, hrank⟩
    refine ⟨(left, right), ?_, hrank⟩
    rw [List.getElem?_zip_eq_some, List.getElem?_tail]
    exact ⟨hleft, hright⟩
  · rintro ⟨⟨left, right⟩, hpair, hrank⟩
    obtain ⟨hleft, hright⟩ := List.getElem?_zip_eq_some.mp hpair
    rw [List.getElem?_tail] at hright
    exact ⟨left, right, hleft, hright, hrank⟩

/-- The ranks of the neighbours, by their places. -/
def Tokenizer.ranks (t : Tokenizer S) (pieces : List (List Char)) (i : Nat) : Option Nat :=
  (pieces.zip pieces.tail)[i]?.bind fun pair => t.mergesRank.lookup pair

theorem ranks_eq_some {pieces : List (List Char)} {i r : Nat} :
    t.ranks pieces i = some r ↔ PairReduction.Ranked t.pairRank pieces i r := by
  rw [ranked_iff]
  exact Option.bind_eq_some_iff

theorem scanned_bestMerge (t : Tokenizer S) (pieces : List (List Char)) :
    PairReduction.Scanned (t.ranks pieces) (pieces.zip pieces.tail).length (t.bestMerge pieces) := by
  have hkeep : t.betterMerge =
      fun best entry => PairReduction.keep best (t.mergesRank.lookup entry.1) entry.2 := by
    funext best entry
    unfold Tokenizer.betterMerge PairReduction.keep
    cases t.mergesRank.lookup entry.1 with
    | none => rfl
    | some rank => cases best <;> rfl
  rw [Tokenizer.bestMerge, hkeep]
  exact PairReduction.scanned_foldl (fun pair => t.mergesRank.lookup pair) (pieces.zip pieces.tail)

theorem lt_of_ranked {pieces : List (List Char)} {i r : Nat}
    (h : PairReduction.Ranked t.pairRank pieces i r) : i < (pieces.zip pieces.tail).length := by
  obtain ⟨pair, hpair, -⟩ := ranked_iff.mp h
  exact (List.getElem?_eq_some_iff.mp hpair).1

/-- A round finds the first of the neighbours with the least rank. -/
theorem lowest_of_bestMerge {pieces : List (List Char)} {rank idx : Nat}
    (h : t.bestMerge pieces = some (rank, idx)) :
    PairReduction.Lowest t.pairRank pieces idx rank := by
  obtain ⟨-, hranked, hleast⟩ := (scanned_bestMerge t pieces).least rank idx h
  refine ⟨ranks_eq_some.mp hranked, fun j s hj => ?_, fun j hj => ?_⟩
  · exact (hleast j (lt_of_ranked hj) s (ranks_eq_some.mpr hj)).1
  · exact (hleast j (lt_of_ranked hj) rank (ranks_eq_some.mpr hj)).2 rfl

theorem not_ranked_of_bestMerge {pieces : List (List Char)} (h : t.bestMerge pieces = none)
    (i r : Nat) : ¬PairReduction.Ranked t.pairRank pieces i r := by
  intro hranked
  have hnone := (scanned_bestMerge t pieces).unranked h i (lt_of_ranked hranked)
  rw [ranks_eq_some.mpr hranked] at hnone
  cases hnone

theorem mergeAt_eq {pieces : List (List Char)} {idx : Nat} {left right : List Char}
    (hleft : pieces[idx]? = some left) (hright : pieces[idx + 1]? = some right) :
    Tokenizer.mergeAt pieces idx =
      pieces.take idx ++ (left ++ right) :: pieces.drop (idx + 2) := by
  have htwo : (pieces.drop idx).take 2 = [left, right] := by
    obtain ⟨hlt, hget⟩ := List.getElem?_eq_some_iff.mp hright
    obtain ⟨hlt', hget'⟩ := List.getElem?_eq_some_iff.mp hleft
    rw [List.drop_eq_getElem_cons hlt', hget', List.drop_eq_getElem_cons hlt, hget]
    rfl
  rw [Tokenizer.mergeAt, htwo, List.flatten_cons, List.flatten_singleton]

theorem length_mergeAt {pieces : List (List Char)} {idx : Nat} (h : idx + 1 < pieces.length) :
    (Tokenizer.mergeAt pieces idx).length + 1 = pieces.length := by
  rw [Tokenizer.mergeAt, List.length_append, List.length_cons, List.length_take, List.length_drop]
  omega

theorem flatten_mergeAt (pieces : List (List Char)) (idx : Nat) :
    (Tokenizer.mergeAt pieces idx).flatten = pieces.flatten := by
  rw [Tokenizer.mergeAt, List.flatten_append, List.flatten_cons, ← List.flatten_append,
    ← List.drop_drop, List.take_append_drop, ← List.flatten_append, List.take_append_drop]

theorem flatten_mergeLoop (t : Tokenizer S) (fuel : Nat) (pieces : List (List Char)) :
    (t.mergeLoop fuel pieces).flatten = pieces.flatten := by
  induction fuel generalizing pieces with
  | zero => rfl
  | succ fuel ih =>
    rw [Tokenizer.mergeLoop]
    split
    next rank idx _ => rw [ih, flatten_mergeAt]
    next => rfl

theorem flatten_bpeWord (t : Tokenizer S) (word : List Char) : (t.bpeWord word).flatten = word := by
  have hsplit : (word.map ([·])).flatten = word := by
    rw [← List.flatMap_def, List.flatMap_singleton']
  rw [Tokenizer.bpeWord]
  split
  next hnil => exact hnil.symm
  next =>
    simp only
    split
    next => exact hsplit
    next => rw [flatten_mergeLoop, hsplit]

/-- Each round leaves one piece less, so the loop ends for want of a rank. -/
theorem reduces_mergeLoop (t : Tokenizer S) {fuel : Nat} {pieces : List (List Char)}
    (hfuel : pieces.length ≤ fuel) :
    PairReduction.Reduces t.pairRank (· ++ ·) pieces (t.mergeLoop fuel pieces) := by
  induction fuel generalizing pieces with
  | zero =>
    obtain rfl := List.eq_nil_of_length_eq_zero (Nat.le_zero.mp hfuel)
    exact .done [] fun i r hranked => absurd (lt_of_ranked hranked) (Nat.not_lt_zero i)
  | succ fuel ih =>
    rw [Tokenizer.mergeLoop]
    split
    next rank idx hbest =>
      have hlowest := lowest_of_bestMerge hbest
      obtain ⟨left, right, hleft, hright, -⟩ := hlowest.ranked
      have hlength := length_mergeAt (List.getElem?_eq_some_iff.mp hright).1
      have hrest := ih (by omega : (Tokenizer.mergeAt pieces idx).length ≤ fuel)
      refine .step pieces _ idx rank left right hlowest hleft hright ?_
      rw [← mergeAt_eq hleft hright]
      exact hrest
    next hbest => exact .done pieces (not_ranked_of_bestMerge hbest)

/-- The pieces of a word put together are the word, no neighbours among them have a rank,
and they are what joining the first neighbours of the least rank comes to. -/
theorem bpeWord_reduces (t : Tokenizer S) (word : List Char) :
    (t.bpeWord word).flatten = word ∧
      (∀ i r, ¬PairReduction.Ranked t.pairRank (t.bpeWord word) i r) ∧
      ∀ pieces, PairReduction.Reduces t.pairRank (· ++ ·) (word.map ([·])) pieces ↔
        pieces = t.bpeWord word := by
  have hreduces : PairReduction.Reduces t.pairRank (· ++ ·) (word.map ([·])) (t.bpeWord word) := by
    rw [Tokenizer.bpeWord]
    split
    next hnil =>
      rw [hnil]
      exact .done [] fun i r hranked => absurd (lt_of_ranked hranked) (Nat.not_lt_zero i)
    next =>
      simp only
      split
      next hempty =>
        refine .done _ fun i r hranked => ?_
        obtain ⟨left, right, -, -, hrank⟩ := hranked
        rw [Tokenizer.pairRank, hempty] at hrank
        cases hrank
      next => exact reduces_mergeLoop t (Nat.le_refl _)
  refine ⟨flatten_bpeWord t word, hreduces.irreducible, fun pieces => ⟨fun h => (hreduces.unique h).symm, ?_⟩⟩
  rintro rfl
  exact hreduces

/-! ## Pieces of a vocabulary's own tokens -/

theorem mem_mergeAt {v : Vocabulary S} (h : Gpt2 v) {pieces : List (List Char)} {rank idx : Nat}
    (hranked : PairReduction.Ranked v.tokenizer.pairRank pieces idx rank) {piece : List Char}
    (hpiece : piece ∈ Tokenizer.mergeAt pieces idx) : piece ∈ pieces ∨ piece ∈ v.tokens := by
  obtain ⟨left, right, hleft, hright, hrank⟩ := hranked
  rw [mergeAt_eq hleft hright, List.mem_append, List.mem_cons] at hpiece
  rcases hpiece with hfront | rfl | hback
  · exact .inl (List.mem_of_mem_take hfront)
  · exact .inr (h.merges _ (HashMap.mem_of_lookup hrank))
  · exact .inl (List.mem_of_mem_drop hback)

theorem mergeLoop_merged {v : Vocabulary S} (h : Gpt2 v) (fuel : Nat) (pieces : List (List Char))
    (hmerged : ∀ piece ∈ pieces, Merged v piece) :
    ∀ piece ∈ v.tokenizer.mergeLoop fuel pieces, Merged v piece := by
  induction fuel generalizing pieces with
  | zero => exact hmerged
  | succ fuel ih =>
    rw [Tokenizer.mergeLoop]
    split
    next rank idx hbest =>
      exact ih (Tokenizer.mergeAt pieces idx) fun piece hpiece =>
        (mem_mergeAt h (lowest_of_bestMerge hbest).ranked hpiece).elim (hmerged piece) .inr
    next => exact hmerged

theorem bpeWord_spec {v : Vocabulary S} (h : Gpt2 v) (word : List Char) :
    (v.tokenizer.bpeWord word).flatten = word ∧
      ∀ piece ∈ v.tokenizer.bpeWord word, Merged v piece := by
  have hchars : ∀ piece ∈ word.map ([·]), Merged v piece := by
    intro piece hpiece
    obtain ⟨c, -, rfl⟩ := List.mem_map.mp hpiece
    exact .inl ⟨c, rfl⟩
  refine ⟨flatten_bpeWord v.tokenizer word, ?_⟩
  rw [Tokenizer.bpeWord]
  split
  next => exact nofun
  next =>
    simp only
    split
    next => exact hchars
    next => exact mergeLoop_merged h _ _ hchars

/-! ## Bytes of ids -/

/-- Ids whose tokens give bytes only. -/
def GivesBytes (t : Tokenizer S) (ids : List UInt32) (bytes : List UInt8) : Prop :=
  ∃ parts : List (List UInt8), pieces t ids = parts.map .bytes ∧ parts.flatten = bytes

theorem givesBytes_nil : GivesBytes t [] [] := ⟨[], rfl, rfl⟩

theorem GivesBytes.eq_nil {bytes : List UInt8} (h : GivesBytes t [] bytes) : bytes = [] := by
  obtain ⟨parts, hparts, rfl⟩ := h
  obtain rfl := List.map_eq_nil_iff.mp hparts.symm
  rfl

theorem givesBytes_none {id : UInt32} (h : pieceOf t id = none) : GivesBytes t [id] [] :=
  ⟨[], by rw [pieces, List.filterMap_cons_none h]; rfl, rfl⟩

theorem givesBytes_one {id : UInt32} {bytes : List UInt8} (h : pieceOf t id = some (.bytes bytes)) :
    GivesBytes t [id] bytes :=
  ⟨[bytes], by rw [pieces, List.filterMap_cons_some h]; rfl, by simp⟩

theorem GivesBytes.append {ids ids' : List UInt32} {bytes bytes' : List UInt8}
    (h : GivesBytes t ids bytes) (h' : GivesBytes t ids' bytes') :
    GivesBytes t (ids ++ ids') (bytes ++ bytes') := by
  obtain ⟨parts, hparts, rfl⟩ := h
  obtain ⟨parts', hparts', rfl⟩ := h'
  refine ⟨parts ++ parts', ?_, List.flatten_append⟩
  rw [pieces, List.filterMap_append, ← pieces, ← pieces, hparts, hparts', List.map_append]

theorem givesBytes_flatMap {A : Type} {l : List A} {f : A → List UInt32} {g : A → List UInt8}
    (h : ∀ a ∈ l, GivesBytes t (f a) (g a)) : GivesBytes t (l.flatMap f) (l.flatMap g) := by
  induction l with
  | nil => exact givesBytes_nil
  | cons a l ih =>
    obtain ⟨ha, hl⟩ := List.forall_mem_cons.mp h
    rw [List.flatMap_cons, List.flatMap_cons]
    exact ha.append (ih hl)

theorem decodeRuns_bytes (parts : List (List UInt8)) (run : List UInt8) :
    decodeRuns run (parts.map .bytes) = ([], run ++ parts.flatten) := by
  induction parts generalizing run with
  | nil => simp [decodeRuns]
  | cons part parts ih =>
    rw [List.map_cons, decodeRuns, ih, List.flatten_cons, List.append_assoc]

theorem GivesBytes.decode {ids : List UInt32} {bytes : List UInt8} (h : GivesBytes t ids bytes)
    (hmodel : t.model ≠ "llama") : t.decode ids = .ok (Utf8.lossy bytes) := by
  obtain ⟨parts, hparts, rfl⟩ := h
  rw [decode_eq, batchText, hparts, decodeRuns_bytes, leading, if_neg hmodel]
  rfl

/-! ## Tokens of the alphabet -/

/-- A control token that frames a text. -/
def Framing (v : Vocabulary S) (id : UInt32) : Prop :=
  (some id = v.bosId ∨ some id = v.eosId) ∧ v.tokenTypes[id.toNat]? = some .control

/-- The alphabet's ASCII characters are the printable ones, and stand for themselves. -/
theorem alphabet_ascii {c : Char} {b : UInt8} (h : gpt2CharToByte c = some b)
    (hc : c.toNat < 0x80) : b = UInt8.ofNat c.toNat ∧ 0x21 ≤ c.toNat ∧ c.toNat ≤ 0x7E := by
  unfold gpt2CharToByte at h
  simp only at h
  by_cases hprint : 0x21 ≤ c.toNat ∧ c.toNat ≤ 0x7E
  · rw [if_pos (.inl hprint)] at h
    exact ⟨(Option.some_inj.mp h).symm, hprint⟩
  · rw [if_neg (by omega), if_neg (by omega), if_neg (by omega), if_neg (by omega)] at h
    cases h

theorem alphabet_printable {c : Char} (hprint : 0x21 ≤ c.toNat ∧ c.toNat ≤ 0x7E) :
    gpt2CharToByte c = some (UInt8.ofNat c.toNat) := if_pos (.inl hprint)

namespace Gpt2

variable {v : Vocabulary S} {id : UInt32} {piece : List Char} (h : Gpt2 v)
include h

theorem alphabet_mem {c : Char} (hc : (gpt2CharToByte c).isSome = true) : [c] ∈ v.tokens := by
  obtain ⟨b, hb⟩ := Option.isSome_iff_exists.mp hc
  have hmem := h.alphabet b
  rwa [gpt2ByteToChar_charToByte hb] at hmem

theorem pieceOf_alphabet (htoken : v.tokens[id.toNat]? = some piece)
    (hliteral : ¬isByteLiteral piece = true) (hframing : ¬Framing v id)
    (halphabet : ∀ c ∈ piece, (gpt2CharToByte c).isSome = true) :
    pieceOf v.tokenizer id = some (.bytes (alphabetBytes piece)) := by
  have htokens : v.tokenizer.tokens[id.toNat]? = some piece := htoken
  have hgpt2 : v.tokenizer.usesGpt2ByteEncoding = true := by
    show (v.model == "gpt2" || v.model == "qwen2") = true
    rw [h.model]
    decide
  unfold pieceOf
  rw [if_neg (fun hframe => hframing ⟨hframe.1, hframe.2⟩), htokens, Option.map_some, if_neg hliteral, hgpt2, if_pos rfl,
    gpt2TokenBytes_eq halphabet]
  simp only
  split
  next hbyte =>
    obtain ⟨c, rfl, hc⟩ := Utf8.ascii_of_len hbyte.2
    obtain ⟨b, hb⟩ := Option.isSome_iff_exists.mp (halphabet c (List.mem_singleton_self c))
    obtain ⟨rfl, -⟩ := alphabet_ascii hb hc
    rw [Utf8.encode_singleton, Utf8.encode_ascii hc, alphabetBytes,
      List.filterMap_cons_some hb]
    rfl
  next => rfl

/-- A piece that is a token gives its bytes. -/
theorem pieceIds_token (hpiece : piece ∈ v.tokens) (hliteral : ¬isByteLiteral piece = true)
    (hframing : ∀ id, v.tokenToId.lookup piece = some id → ¬Framing v id)
    (halphabet : ∀ c ∈ piece, (gpt2CharToByte c).isSome = true) :
    GivesBytes v.tokenizer (v.tokenizer.pieceIds piece) (alphabetBytes piece) ∧
      v.tokenizer.pieceIds piece ≠ [] := by
  obtain ⟨id, hid⟩ := Option.isSome_iff_exists.mp (Vocabulary.isSome_lookup hpiece)
  have hids : v.tokenizer.pieceIds piece = [id] := by
    have hid' : v.tokenizer.tokenToId.lookup piece = some id := hid
    rw [Tokenizer.pieceIds, hid']
  rw [hids]
  exact ⟨givesBytes_one (h.pieceOf_alphabet (Vocabulary.tokens_of_lookup hid) hliteral
    (hframing id hid) halphabet), List.cons_ne_nil id []⟩

theorem has_mark : (v.tokenizer.tokens.any fun token => token.head? = some 'Ġ') = true := by
  have hmem : ['Ġ'] ∈ v.tokenizer.tokens := h.alphabet_mem (by decide)
  exact List.any_eq_true.mpr ⟨['Ġ'], hmem, by decide⟩

/-- The bytes of all pieces are those of the words. -/
theorem words_bytes (text : List Char)
    (hpieces : ∀ word ∈ v.tokenizer.preTokenizeBpe text, ∀ piece ∈ v.tokenizer.bpeWord word,
      GivesBytes v.tokenizer (v.tokenizer.pieceIds piece) (alphabetBytes piece)) :
    GivesBytes v.tokenizer ((v.tokenizer.preTokenizeBpe text).flatMap fun word =>
      (v.tokenizer.bpeWord word).flatMap v.tokenizer.pieceIds)
      (alphabetBytes (squeeze false text)) := by
  have hflat : ∀ parts : List (List Char), parts.flatMap alphabetBytes = alphabetBytes parts.flatten := by
    intro parts
    induction parts with
    | nil => rfl
    | cons part parts ih => rw [List.flatMap_cons, ih, List.flatten_cons, alphabetBytes_append]
  rw [← flatten_preTokenizeBpe h.has_mark, ← hflat]
  refine givesBytes_flatMap fun word hword => ?_
  have hbytes := givesBytes_flatMap (hpieces word hword)
  rwa [hflat, (bpeWord_spec h word).1] at hbytes

end Gpt2

end Ramforge
