/-
Decoding as the tokens come, and decoding them at once.
-/
import Ramforge.Core.Tokenizer

namespace Ramforge

open Rust Outcome

inductive TokenPiece where
  | bytes (bytes : List UInt8)
  | text (text : List Char)
deriving DecidableEq, Repr

namespace TokenDecoder

variable {S : Type} (t : Tokenizer S)

/-- What a token stands for; nothing for the control tokens that frame a text and for a
number that names no token. -/
def pieceOf (id : UInt32) : Option TokenPiece :=
  if (some id = t.bosId ∨ some id = t.eosId) ∧ t.tokenTypes[id.toNat]? = some .control then none
  else
    t.tokens[id.toNat]?.map fun token =>
      match if isByteLiteral token then u8FromHex (literalDigits token) else none with
      | some byte => .bytes [byte]
      | none =>
        if t.tokenTypes[id.toNat]? = some .byte ∧ Utf8.len token = 1 then
          .bytes ((Utf8.encode token).take 1)
        else
          match if t.usesGpt2ByteEncoding then gpt2TokenBytes token else none with
          | some bytes => .bytes bytes
          | none => .text (normalized token)

def pieces (ids : List UInt32) : List TokenPiece := ids.filterMap (pieceOf t)

/-- The text up to the last run of bytes, and that run.  `run` is the one before the pieces. -/
def decodeRuns : List UInt8 → List TokenPiece → List Char × List UInt8
  | run, [] => ([], run)
  | run, .bytes bytes :: rest => decodeRuns (run ++ bytes) rest
  | run, .text text :: rest =>
    (Utf8.lossy run ++ text ++ (decodeRuns [] rest).1, (decodeRuns [] rest).2)

/-- A llama text has no white space in front. -/
def leading (text : List Char) : List Char :=
  if t.model = "llama" then Unicode.trimStart text else text

/-- The text of all tokens, each run of bytes decoded as a whole. -/
def batchText (ids : List UInt32) : List Char :=
  leading t ((decodeRuns [] (pieces t ids)).1 ++ Utf8.lossy (decodeRuns [] (pieces t ids)).2)

/-! ## Emitted text -/

variable {t} {d : TokenDecoder} {bytes : List UInt8}

theorem trimStart_append (a b : List Char) :
    Unicode.trimStart (a ++ b) =
      if Unicode.trimStart a = [] then Unicode.trimStart b else Unicode.trimStart a ++ b := by
  induction a with
  | nil => rfl
  | cons c a ih =>
    unfold Unicode.trimStart at *
    rw [List.cons_append, List.dropWhile_cons, List.dropWhile_cons]
    split
    next => exact ih
    next => rfl

theorem emitText_nil (d : TokenDecoder) : emitText t d [] = ([], d) := by
  unfold emitText
  simp only
  split <;> rfl

/-- Text emitted in two parts is the text emitted at once. -/
theorem emitText_append (d : TokenDecoder) (a b : List Char) :
    emitText t d (a ++ b) = ((emitText t d a).1 ++ (emitText t (emitText t d a).2 b).1,
      (emitText t (emitText t d a).2 b).2) := by
  obtain ⟨pending, atStart⟩ := d
  by_cases hstart : atStart = true ∧ t.model = "llama"
  · obtain ⟨rfl, hmodel⟩ := hstart
    simp only [emitText, hmodel, and_self, if_true, trimStart_append]
    by_cases ha : Unicode.trimStart a = []
    · simp [ha]
    · simp [ha]
  · simp only [emitText, if_neg hstart]
    by_cases ha : a = []
    · simp [ha, hstart]
    · simp [ha]

theorem emitText_with (pending bytes : List UInt8) (atStart : Bool) (text : List Char) :
    emitText t ⟨bytes, atStart⟩ text =
      ((emitText t ⟨pending, atStart⟩ text).1,
        ⟨bytes, (emitText t ⟨pending, atStart⟩ text).2.atStart⟩) := by
  unfold emitText
  simp only
  split <;> split <;> rfl

@[simp] theorem emitText_pendingBytes (d : TokenDecoder) (text : List Char) :
    (emitText t d text).2.pendingBytes = d.pendingBytes := by
  unfold emitText
  simp only
  split <;> split <;> rfl

/-- A drain that emits some text and goes on. -/
theorem emitText_rest (pending bytes : List UInt8) (atStart : Bool) (a b : List Char) :
    emitText t ⟨bytes, atStart⟩ (a ++ b) =
      ((emitText t ⟨pending, atStart⟩ a).1 ++
          (emitText t ⟨bytes, (emitText t ⟨pending, atStart⟩ a).2.atStart⟩ b).1,
        (emitText t ⟨bytes, (emitText t ⟨pending, atStart⟩ a).2.atStart⟩ b).2) := by
  rw [emitText_append, emitText_with pending bytes]

/-! ## Drained bytes -/

/-- The text a drain emits, and the bytes it leaves. -/
def drained (finish : Bool) (bytes : List UInt8) : List Char × List UInt8 :=
  if finish then (Utf8.lossy bytes, []) else Utf8.settle bytes

theorem drained_of_settle {finish : Bool} {rest : List UInt8} {text : List Char}
    (h : Utf8.settle bytes = (text ++ (Utf8.settle rest).1, (Utf8.settle rest).2)) :
    drained finish bytes = (text ++ (drained finish rest).1, (drained finish rest).2) := by
  cases finish with
  | false => exact h
  | true =>
    show (Utf8.lossy bytes, []) = (text ++ Utf8.lossy rest, [])
    rw [Utf8.lossy, h, List.append_assoc, Utf8.lossy]

theorem drainLoop_eq (finish : Bool) {fuel : Nat} (hfuel : d.pendingBytes.length < fuel) :
    drainLoop t finish fuel d =
      .ok (emitText t { d with pendingBytes := (drained finish d.pendingBytes).2 }
        (drained finish d.pendingBytes).1) := by
  induction fuel generalizing d with
  | zero => omega
  | succ fuel ih =>
    obtain ⟨pending, atStart⟩ := d
    simp only at hfuel ⊢
    rw [drainLoop]
    simp only
    split
    next hnil =>
      subst hnil
      rw [show drained finish [] = ([], []) by cases finish <;> rfl, emitText_nil]
      rfl
    next hne =>
      split
      next valid hvalid =>
        have hsettle : Utf8.settle pending =
            (valid ++ (Utf8.settle []).1, (Utf8.settle []).2) := by
          rw [Utf8.fromUtf8_ok hvalid, Utf8.settle_nil, List.append_nil]
        rw [drained_of_settle hsettle, show drained finish [] = ([], []) by cases finish <;> rfl, List.append_nil]
        rfl
      next error herror =>
        split
        next hupTo =>
          obtain ⟨valid, hvalid, hsettle⟩ := Utf8.fromUtf8_validUpTo herror
          have hdrop := List.length_drop (i := error.validUpTo) (l := pending)
          have hpos := List.length_pos_iff.mpr hne
          rw [hvalid]
          simp only [Except.toOption, expect_some, ok_bind]
          rw [ih (by rw [emitText_pendingBytes]; simp only; omega), drained_of_settle hsettle,
            emitText_rest (pending.drop error.validUpTo), emitText_pendingBytes]
          rfl
        next hupTo =>
          obtain ⟨-, hinvalid, hincomplete⟩ := Utf8.fromUtf8_errorLen herror (by omega)
          split
          next n hn =>
            have hscan := hinvalid n hn
            have hlength := Utf8.scan_invalid hscan
            have hdrop := List.length_drop (i := n) (l := pending)
            rw [ih (by rw [emitText_pendingBytes]; simp only; omega), emitText_pendingBytes]
            simp only
            have hsettle : Utf8.settle pending =
                (['\uFFFD'] ++ (Utf8.settle (pending.drop n)).1,
                  (Utf8.settle (pending.drop n)).2) := Utf8.settle_invalid hscan
            rw [drained_of_settle hsettle, emitText_rest (pending.drop n)]
            rfl
          next hnone =>
            split
            next hfinish =>
              rw [hfinish]
              rfl
            next hfinish =>
              rw [Bool.not_eq_true] at hfinish
              rw [hfinish, drained, if_neg Bool.false_ne_true,
                Utf8.settle_incomplete (hincomplete hnone), emitText_nil]
              rfl

theorem drainBytes_eq (finish : Bool) (d : TokenDecoder) :
    drainBytes t finish d =
      .ok (emitText t { d with pendingBytes := (drained finish d.pendingBytes).2 }
        (drained finish d.pendingBytes).1) :=
  drainLoop_eq finish (Nat.lt_succ_self _)

/-! ## One token -/

variable (t d) in
/-- A push, once it is known what the token stands for. -/
def pushPiece : Option TokenPiece → Outcome Empty (List Char × TokenDecoder)
  | none => pure ([], d)
  | some (.bytes bytes) => drainBytes t false { d with pendingBytes := d.pendingBytes ++ bytes }
  | some (.text text) => do
    let drained ← drainBytes t true d
    let emitted := emitText t drained.2 text
    return (drained.1 ++ emitted.1, emitted.2)

theorem push_eq (d : TokenDecoder) (id : UInt32) : push t d id = pushPiece t d (pieceOf t id) := by
  unfold push pieceOf
  split
  next => rfl
  next =>
    cases t.tokens[id.toNat]? with
    | none => rfl
    | some token =>
      simp only [Option.map_some]
      cases (if isByteLiteral token then u8FromHex (literalDigits token) else none) with
      | some byte => rfl
      | none =>
        simp only
        split
        next => rfl
        next => cases (if t.usesGpt2ByteEncoding then gpt2TokenBytes token else none) <;> rfl

theorem pushPiece_bytes (d : TokenDecoder) (bytes : List UInt8) :
    pushPiece t d (some (.bytes bytes)) =
      .ok (emitText t ⟨(Utf8.settle (d.pendingBytes ++ bytes)).2, d.atStart⟩
        (Utf8.settle (d.pendingBytes ++ bytes)).1) := by
  rw [pushPiece, drainBytes_eq]
  rfl

theorem pushPiece_text (d : TokenDecoder) (text : List Char) :
    pushPiece t d (some (.text text)) =
      .ok (emitText t ⟨[], d.atStart⟩ (Utf8.lossy d.pendingBytes ++ text)) := by
  rw [pushPiece, drainBytes_eq, emitText_append]
  rfl

/-! ## All tokens -/

/-- Bytes that are settled need not be kept for the run. -/
theorem decodeRuns_settle (run : List UInt8) (ps : List TokenPiece) :
    (decodeRuns run ps).1 ++ (Utf8.settle (decodeRuns run ps).2).1 =
        (Utf8.settle run).1 ++ ((decodeRuns (Utf8.settle run).2 ps).1 ++
          (Utf8.settle (decodeRuns (Utf8.settle run).2 ps).2).1) ∧
      (Utf8.settle (decodeRuns run ps).2).2 =
        (Utf8.settle (decodeRuns (Utf8.settle run).2 ps).2).2 := by
  have hrest : ∀ run, Utf8.settle (Utf8.settle run).2 = ([], (Utf8.settle run).2) :=
    fun run => Utf8.settle_incomplete (Utf8.scan_rest run)
  induction ps generalizing run with
  | nil => simp [decodeRuns, hrest]
  | cons p ps ih =>
    cases p with
    | bytes bytes =>
      obtain ⟨htext, hopen⟩ := ih (run ++ bytes)
      obtain ⟨htext', hopen'⟩ := ih ((Utf8.settle run).2 ++ bytes)
      rw [decodeRuns, decodeRuns, htext, hopen, htext', hopen', Utf8.settle_append]
      exact ⟨List.append_assoc _ _ _, rfl⟩
    | text text =>
      refine ⟨?_, rfl⟩
      have hlossy : Utf8.lossy run = (Utf8.settle run).1 ++ Utf8.lossy (Utf8.settle run).2 := by
        rw [Utf8.lossy, Utf8.lossy, hrest]
        rfl
      simp only [decodeRuns, hlossy, List.append_assoc]

/-- What the pushes emit, and the bytes they leave: those of the run that are not settled. -/
theorem pushAll_eq (d : TokenDecoder) (ids : List UInt32)
    (hpending : Utf8.scan d.pendingBytes = .incomplete) :
    pushAll t d ids =
      .ok (emitText t ⟨(Utf8.settle (decodeRuns d.pendingBytes (pieces t ids)).2).2, d.atStart⟩
        ((decodeRuns d.pendingBytes (pieces t ids)).1 ++
          (Utf8.settle (decodeRuns d.pendingBytes (pieces t ids)).2).1)) := by
  induction ids generalizing d with
  | nil =>
    obtain ⟨pending, atStart⟩ := d
    simp only [pieces, List.filterMap_nil, decodeRuns]
    rw [Utf8.settle_incomplete hpending, List.append_nil, emitText_nil]
    rfl
  | cons id ids ih =>
    obtain ⟨pending, atStart⟩ := d
    rw [pushAll, push_eq, pieces]
    cases hpiece : pieceOf t id with
    | none =>
      rw [List.filterMap_cons_none hpiece, ← pieces]
      simp only [pushPiece, pure_eq, ok_bind]
      rw [ih _ hpending]
      rfl
    | some piece =>
      rw [List.filterMap_cons_some hpiece, ← pieces]
      cases piece with
      | bytes bytes =>
        obtain ⟨htext, hopen⟩ := decodeRuns_settle (pending ++ bytes) (pieces t ids)
        rw [pushPiece_bytes, ok_bind, ih _ (by rw [emitText_pendingBytes]; exact Utf8.scan_rest _)]
        simp only [decodeRuns, emitText_pendingBytes, ok_bind, pure_eq]
        rw [htext, hopen, emitText_rest (Utf8.settle (pending ++ bytes)).2 _ _
          (Utf8.settle (pending ++ bytes)).1]
      | text text =>
        rw [pushPiece_text, ok_bind, ih _ (by rw [emitText_pendingBytes]; rfl)]
        simp only [decodeRuns, emitText_pendingBytes, ok_bind, pure_eq]
        rw [List.append_assoc (Utf8.lossy pending ++ text), emitText_rest [] _ _
          (Utf8.lossy pending ++ text)]

theorem emitText_new (bytes : List UInt8) (text : List Char) :
    (emitText t ⟨bytes, true⟩ text).1 = leading t text := by
  unfold emitText leading
  simp

theorem decode_eq (ids : List UInt32) : t.decode ids = .ok (batchText t ids) := by
  have hrest := Utf8.settle_incomplete (Utf8.scan_rest (decodeRuns [] (pieces t ids)).2)
  rw [Tokenizer.decode, pushAll_eq new ids rfl, ok_bind, finish, drainBytes_eq, ok_bind, pure_eq,
    batchText, Utf8.lossy, ← List.append_assoc, ← emitText_new []]
  simp only [emitText_pendingBytes, new, drained, if_true]
  rw [emitText_rest (Utf8.settle (decodeRuns [] (pieces t ids)).2).2 _ _
    ((decodeRuns [] (pieces t ids)).1 ++ (Utf8.settle (decodeRuns [] (pieces t ids)).2).1),
    Utf8.lossy, hrest, List.nil_append]

/-- The outputs of the pushes and of the end are the text of all tokens, and no push emits
a part of a character whose last bytes are still to come. -/
theorem decode_streams (t : Tokenizer S) :
    (∀ ids, t.decode ids = .ok (batchText t ids)) ∧
    ∀ ids a p q c, (decodeRuns [] (pieces t ids)).2 = a ++ p → p ≠ [] → q ≠ [] →
      p ++ q = String.utf8EncodeChar c →
      ∃ d, pushAll t new ids =
          .ok (leading t ((decodeRuns [] (pieces t ids)).1 ++ Utf8.lossy a), d) ∧
        d.pendingBytes = p := by
  refine ⟨fun ids => decode_eq ids, fun ids a p q c hopen hp hq hchar => ?_⟩
  obtain ⟨first, rest, hfirst, hlead⟩ := Utf8.encode_first c
  obtain ⟨b, p, rfl⟩ := List.exists_cons_of_ne_nil hp
  obtain rfl : b = first := by
    rw [hfirst] at hchar
    exact (List.cons.inj hchar).1
  have hsettle : Utf8.settle (a ++ b :: p) = (Utf8.lossy a, b :: p) := by
    rw [Utf8.settle_cut hlead, Utf8.settle_prefix hchar hq, List.append_nil]
  have hrun := pushAll_eq (t := t) new ids rfl
  simp only [new] at hrun
  rw [hopen, hsettle] at hrun
  refine ⟨_, hrun.trans (congrArg Outcome.ok (Prod.ext (emitText_new (b :: p) _) rfl)), ?_⟩
  rw [emitText_pendingBytes]

/-- The tokenizer of a euro sign in three byte tokens. -/
def byteTokenizer : Tokenizer ℚ where
  model := "llama"
  pre := none
  tokens := ["<s>", "</s>", "<0xE2>", "<0x82>", "<0xAC>", "▁hello"].map String.toList
  scores := List.replicate 6 0
  tokenTypes := [.control, .control, .byte, .byte, .byte, .normal]
  merges := none
  bosId := some 0
  eosId := some 1
  unkId := none
  padId := none
  addBos := true
  addEos := false
  tokenToId := []
  mergesRank := []
  byteTokens := []
  specialTokens := []

theorem decode_streams_euro :
    byteTokenizer.decode [0, 2, 3, 4, 5, 1] = .ok "€ hello".toList ∧
    ∃ d, pushAll byteTokenizer new [0, 2, 3] = .ok ([], d) ∧ d.pendingBytes = [0xE2, 0x82] := by
  obtain ⟨hbatch, hprefix⟩ := decode_streams byteTokenizer
  refine ⟨(hbatch _).trans (by decide +kernel), ?_⟩
  exact hprefix [0, 2, 3] [] [0xE2, 0x82] [0xAC] '€' (by decide +kernel) (by decide) (by decide)
    (by decide)

/-! ## Pieces that stand apart -/

/-- The first byte of the piece ends what the bytes before it left open. -/
def Apart : TokenPiece → Prop
  | .bytes bytes => ∃ b more, bytes = b :: more ∧ ¬(0x80 ≤ b.toNat ∧ b.toNat ≤ 0xBF)
  | .text _ => True

/-- The text of a piece with nothing around it. -/
def alone : TokenPiece → List Char
  | .bytes bytes => Utf8.lossy bytes
  | .text text => text

theorem decodeRuns_apart {ps : List TokenPiece} (h : ∀ p ∈ ps, Apart p) (run : List UInt8) :
    (decodeRuns run ps).1 ++ Utf8.lossy (decodeRuns run ps).2 = Utf8.lossy run ++ ps.flatMap alone := by
  induction ps generalizing run with
  | nil => simp [decodeRuns]
  | cons p ps ih =>
    obtain ⟨hp, hps⟩ := List.forall_mem_cons.mp h
    cases p with
    | bytes bytes =>
      obtain ⟨b, more, rfl, hb⟩ := hp
      rw [decodeRuns, ih hps, Utf8.lossy_cut hb, List.flatMap_cons, alone, List.append_assoc]
    | text text =>
      have := ih hps []
      rw [Utf8.lossy_nil, List.nil_append] at this
      rw [decodeRuns, List.append_assoc, this, List.flatMap_cons, alone, List.append_assoc]

theorem batchText_apart {ids : List UInt32} (h : ∀ p ∈ pieces t ids, Apart p) :
    batchText t ids = leading t ((pieces t ids).flatMap alone) := by
  rw [batchText, decodeRuns_apart h, Utf8.lossy_nil, List.nil_append]

/-- Ids whose pieces stand apart, and their text. -/
structure Decodes (t : Tokenizer S) (ids : List UInt32) (text : List Char) : Prop where
  apart : ∀ p ∈ pieces t ids, Apart p
  alone : (pieces t ids).flatMap alone = text

theorem Decodes.nil : Decodes t [] [] where
  apart := nofun
  alone := rfl

theorem Decodes.append {ids ids' : List UInt32} {text text' : List Char} (h : Decodes t ids text)
    (h' : Decodes t ids' text') : Decodes t (ids ++ ids') (text ++ text') where
  apart := by
    rw [pieces, List.filterMap_append]
    exact List.forall_mem_append.mpr ⟨h.apart, h'.apart⟩
  alone := by
    rw [pieces, List.filterMap_append, List.flatMap_append, ← h.alone, ← h'.alone]
    rfl

theorem Decodes.one {id : UInt32} {p : TokenPiece} (h : pieceOf t id = some p) (hapart : Apart p) :
    Decodes t [id] (TokenDecoder.alone p) where
  apart := by
    rw [pieces, List.filterMap_cons_some h]
    exact List.forall_mem_singleton.mpr hapart
  alone := by
    rw [pieces, List.filterMap_cons_some h]
    exact List.append_nil _

theorem Decodes.decode {ids : List UInt32} {text : List Char} (h : Decodes t ids text) :
    t.decode ids = .ok (leading t text) := by
  rw [decode_eq, batchText_apart h.apart, h.alone]

end TokenDecoder
end Ramforge
