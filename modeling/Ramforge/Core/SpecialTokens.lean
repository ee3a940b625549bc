/-
The special tokens of a text.

The scan stands at a byte of the text.  It takes the longest special token there, or goes
on behind the next character; what it has passed since the last special token is encoded
as plain text.
-/
import Ramforge.Core.VocabularyMaps
import Ramforge.Rust.Loop

namespace Ramforge

open Rust Rust.Exec

variable {S : Type}

/-! ## The scan in bytes -/

namespace Tokenizer

/-- `normal_start` and `cursor`. -/
structure Cursors where
  normalStart : Nat
  cursor : Nat

def sliceError : String := "byte index is not a char boundary"

section scan

variable [Score S] (t : Tokenizer S)

/-- `ids.extend(self.encode_plain(segment))`. -/
def extendPlain (segment : Option (List Char)) : Exec (List UInt32) Empty Unit := do
  let segment ← expect segment sliceError
  modify (· ++ t.encodePlain segment)

def extendBetween (text : List Char) (start stop : Nat) : Exec (List UInt32) Empty Unit :=
  if start < stop then t.extendPlain (Utf8.slice text start stop) else pure ()

/-- One round of the loop of `encode_with_special_tokens`; `ids` is the state. -/
def specialRound (text : List Char) (b : Cursors) :
    Exec (List UInt32) Empty (RoundEnd Cursors Nat) :=
  if b.cursor < Utf8.len text then do
    let remaining ← expect (Utf8.sliceFrom text b.cursor) sliceError
    match t.specialTokens.find? fun special => special.1.isPrefixOf remaining with
    | some (token, id) => do
      t.extendBetween text b.normalStart b.cursor
      modify (· ++ [id])
      pure (.again
        { normalStart := b.cursor + Utf8.len token
          cursor := b.cursor + Utf8.len token })
    | none =>
      let length := (remaining.head?.map Char.utf8Size).getD 1
      pure (.again { b with cursor := b.cursor + length })
  else pure (.leave b.normalStart)

/-- `encode_with_special_tokens`, which returns the state it leaves. -/
def encodeByCursor (text : List Char) : Exec (List UInt32) Empty Unit :=
  if t.specialTokens = [] then modify (· ++ t.encodePlain text)
  else do
    let normalStart ← loopOn (fun b => Utf8.len text - b.cursor) (t.specialRound text)
      { normalStart := 0
        cursor := 0 }
    if normalStart < Utf8.len text then t.extendPlain (Utf8.sliceFrom text normalStart) else pure ()

end scan
end Tokenizer

/-! ## What a scan from the left finds -/

inductive Segment where
  | plain (text : List Char)
  | special (token : List Char) (id : UInt32)

namespace Segment

def text : Segment → List Char
  | .plain text => text
  | .special token _ => token

def ids [Score S] (t : Tokenizer S) : Segment → List UInt32
  | .plain text => t.encodePlain text
  | .special _ id => [id]

def isPlain : Segment → Bool
  | .plain _ => true
  | .special _ _ => false

end Segment

namespace Vocabulary

variable (v : Vocabulary S)

/-- A control or added token in angle brackets, and its number. -/
structure Special (token : List Char) (id : UInt32) : Prop where
  listed : v.tokens[id.toNat]? = some token
  bracket : token.head? = some '<'
  long : 1 < Utf8.len token
  type : v.tokenTypes[id.toNat]? = some .control ∨ v.tokenTypes[id.toNat]? = some .userDefined

/-- No special token stands anywhere in a text that is followed by more. -/
def Clean (text rest : List Char) : Prop :=
  ∀ front back, text = front ++ back → back ≠ [] →
    ∀ token id, v.Special token id → ¬token <+: back ++ rest

/-- The segments of a text: a special token is the longest that stands there and has its
first number, and in a plain segment, which ends only at a special token or the end of
the text, none stands anywhere. -/
inductive Scanned : List Char → List Segment → Prop where
  | nil : Scanned [] []
  | plain (text rest : List Char) (segments : List Segment) (hne : text ≠ [])
    (hclean : v.Clean text rest)
    (hend : ∀ segment ∈ segments.head?, segment.isPlain = false)
    (h : Scanned rest segments) : Scanned (text ++ rest) (.plain text :: segments)
  | special (token : List Char) (id : UInt32) (rest : List Char) (segments : List Segment)
    (hspecial : v.Special token id)
    (hlongest : ∀ other id', v.Special other id' → other <+: token ++ rest →
      Utf8.len other ≤ Utf8.len token)
    (hfirst : ∀ id', v.Special token id' → id ≤ id')
    (h : Scanned rest segments) : Scanned (token ++ rest) (.special token id :: segments)

variable {v} {text : List Char} {segments : List Segment}

theorem Scanned.flatten (h : v.Scanned text segments) :
    (segments.map Segment.text).flatten = text := by
  induction h with
  | nil => rfl
  | plain _ _ _ _ _ _ _ ih => rw [List.map_cons, List.flatten_cons, ih, Segment.text]
  | special _ _ _ _ _ _ _ _ ih => rw [List.map_cons, List.flatten_cons, ih, Segment.text]

/-! ## The table -/

theorem mem_specialTokens {token : List Char} {id : UInt32} :
    (token, id) ∈ v.specialTokens ↔ v.Special token id := by
  have hspecial : ∀ entry, v.isSpecial entry = true ↔ entry.1.head? = some '<' ∧
      1 < Utf8.len entry.1 ∧ (v.tokenTypes[entry.2]? = some .control ∨
        v.tokenTypes[entry.2]? = some .userDefined) := by
    intro entry
    simp only [isSpecial, Bool.and_eq_true, Bool.or_eq_true, beq_iff_eq, decide_eq_true_eq, and_assoc]
  rw [specialTokens, List.mem_mergeSort, List.mem_map]
  constructor
  · rintro ⟨entry, hentry, heq⟩
    obtain ⟨hmem, htype⟩ := List.mem_filter.mp hentry
    obtain ⟨hbracket, hlong, htype⟩ := (hspecial entry).mp htype
    have hlisted := toNat_ofNat_of_mem hmem
    have hget := List.mem_zipIdx_iff_getElem?.mp hmem
    have hlt := (List.getElem?_eq_some_iff.mp hget).1
    have hsize := v.size
    have hnat : (UInt32.ofNat entry.2).toNat = entry.2 :=
      UInt32.toNat_ofNat_of_lt' (by rw [UInt32.size]; omega)
    cases heq
    refine ⟨hlisted, hbracket, hlong, ?_⟩
    rw [hnat]
    exact htype
  · rintro ⟨hlisted, hbracket, hlong, htype⟩
    refine ⟨(token, id.toNat), List.mem_filter.mpr ⟨?_, (hspecial _).mpr ⟨hbracket, hlong, htype⟩⟩, ?_⟩
    · exact List.mem_zipIdx_iff_getElem?.mpr hlisted
    · rw [UInt32.ofNat_toNat]

/-- Longer tokens come first, and of one token its first number. -/
theorem pairwise_specialTokens : v.specialTokens.Pairwise fun left right =>
    Utf8.len right.1 < Utf8.len left.1 ∨ Utf8.len right.1 = Utf8.len left.1 ∧ left.2 ≤ right.2 := by
  refine (List.pairwise_mergeSort ?_ ?_ _).imp ?_
  · intro a b c hab hbc
    simp only [Bool.or_eq_true, decide_eq_true_eq, Bool.and_eq_true, beq_iff_eq] at hab hbc ⊢
    rcases hab with hab | ⟨hab, hid⟩
    · rcases hbc with hbc | ⟨hbc, -⟩
      · exact .inl (hbc.trans hab)
      · exact .inl (hbc ▸ hab)
    · rcases hbc with hbc | ⟨hbc, hid'⟩
      · exact .inl (hab ▸ hbc)
      · exact .inr ⟨hbc.trans hab, UInt32.le_trans hid hid'⟩
  · intro a b
    simp only [Bool.or_eq_true, decide_eq_true_eq, Bool.and_eq_true, beq_iff_eq]
    rcases Nat.lt_trichotomy (Utf8.len a.1) (Utf8.len b.1) with hlt | heq | hgt
    · exact .inr (.inl hlt)
    · rcases UInt32.le_total a.2 b.2 with hle | hle
      · exact .inl (.inr ⟨heq.symm, hle⟩)
      · exact .inr (.inr ⟨heq, hle⟩)
    · exact .inl (.inl hgt)
  · intro a b hab
    simpa only [Bool.or_eq_true, decide_eq_true_eq, Bool.and_eq_true, beq_iff_eq] using hab

/-- The first token of the table that stands at a text is the longest there, with its first
number. -/
theorem find_specialTokens {rest : List Char} {found : List Char × UInt32}
    (h : v.specialTokens.find? (fun special => special.1.isPrefixOf rest) = some found) :
    v.Special found.1 found.2 ∧ found.1 <+: rest ∧
      (∀ other id', v.Special other id' → other <+: rest → Utf8.len other ≤ Utf8.len found.1) ∧
      ∀ id', v.Special found.1 id' → found.2 ≤ id' := by
  obtain ⟨hstands, front, back, htable, hfront⟩ := List.find?_eq_some_iff_append.mp h
  rw [List.isPrefixOf_iff_prefix] at hstands
  have hpairwise := pairwise_specialTokens (v := v)
  rw [htable, List.pairwise_append, List.pairwise_cons] at hpairwise
  have hafter : ∀ other id', v.Special other id' → other <+: rest →
      (other, id') = found ∨ (other, id') ∈ back := by
    intro other id' hother hstands'
    have hmem := mem_specialTokens.mpr hother
    rw [htable, List.mem_append, List.mem_cons] at hmem
    rcases hmem with hmem | hmem
    · have hnot := hfront _ hmem
      rw [List.isPrefixOf_iff_prefix.mpr hstands'] at hnot
      cases hnot
    · exact hmem
  refine ⟨mem_specialTokens.mp (List.mem_of_find?_eq_some h), hstands, ?_, ?_⟩
  · intro other id' hother hstands'
    rcases hafter other id' hother hstands' with rfl | hmem
    · exact Nat.le_refl _
    · rcases hpairwise.2.1.1 _ hmem with hlt | ⟨heq, -⟩
      · exact hlt.le
      · exact heq.le
  · intro id' hid'
    rcases hafter found.1 id' hid' hstands with heq | hmem
    · rw [← heq]
      exact UInt32.le_refl _
    · rcases hpairwise.2.1.1 _ hmem with hlt | ⟨-, hle⟩
      · exact absurd hlt (Nat.lt_irrefl _)
      · exact hle

theorem not_special_of_find {rest token : List Char} {id : UInt32}
    (h : v.specialTokens.find? (fun special => special.1.isPrefixOf rest) = none)
    (htoken : v.Special token id) : ¬token <+: rest := by
  have hnot := List.find?_eq_none.mp h _ (mem_specialTokens.mpr htoken)
  rwa [List.isPrefixOf_iff_prefix] at hnot

theorem Special.ne_nil {token : List Char} {id : UInt32} (h : v.Special token id) : token ≠ [] := by
  rintro rfl
  cases h.bracket

/-! ## The scan in characters -/

theorem clean_nil (rest : List Char) : v.Clean [] rest := fun _ _ hsplit hne =>
  absurd (List.append_eq_nil_iff.mp hsplit.symm).2 hne

theorem Clean.snoc {normal rest : List Char} {c : Char} (h : v.Clean normal (c :: rest))
    (hc : ∀ token id, v.Special token id → ¬token <+: c :: rest) : v.Clean (normal ++ [c]) rest :=
  Unicode.forall_back_snoc (P := fun s => ∀ token id, v.Special token id → ¬token <+: s) h hc

section segments

variable [Score S]

/-- What the scan has passed is a plain segment, if it is anything. -/
theorem exists_scanned_pending {normal rest : List Char} (hclean : v.Clean normal rest)
    (h : v.Scanned rest segments) (hend : ∀ segment ∈ segments.head?, segment.isPlain = false) :
    ∃ segments', v.Scanned (normal ++ rest) segments' ∧
      (if normal = [] then [] else v.tokenizer.encodePlain normal) ++
          segments.flatMap (Segment.ids v.tokenizer) =
        segments'.flatMap (Segment.ids v.tokenizer) := by
  by_cases hnil : normal = []
  · rw [if_pos hnil, hnil]
    exact ⟨segments, h, rfl⟩
  · rw [if_neg hnil]
    exact ⟨.plain normal :: segments, .plain normal rest segments hnil hclean hend h, rfl⟩

/-- A plain segment that reaches the end of the text. -/
theorem exists_scanned_end (fuel : Nat) {normal : List Char} (hclean : v.Clean normal []) :
    ∃ segments, v.Scanned (normal ++ []) segments ∧
      v.tokenizer.encodeSegments fuel normal [] = segments.flatMap (Segment.ids v.tokenizer) := by
  obtain ⟨segments, hscanned, hids⟩ := exists_scanned_pending hclean .nil (fun _ h => by cases h)
  refine ⟨segments, hscanned, ?_⟩
  rw [← hids, List.flatMap_nil, List.append_nil]
  cases fuel <;> rw [Tokenizer.encodeSegments]

theorem exists_scanned {fuel : Nat} {normal rest : List Char} (hfuel : rest.length ≤ fuel)
    (hclean : v.Clean normal rest) :
    ∃ segments, v.Scanned (normal ++ rest) segments ∧
      v.tokenizer.encodeSegments fuel normal rest = segments.flatMap (Segment.ids v.tokenizer) := by
  induction fuel generalizing normal rest with
  | zero =>
    obtain rfl := List.eq_nil_of_length_eq_zero (Nat.le_zero.mp hfuel)
    exact exists_scanned_end _ hclean
  | succ fuel ih =>
    cases rest with
    | nil =>
      exact exists_scanned_end _ hclean
    | cons c rest =>
      rw [List.length_cons] at hfuel
      have htable : v.tokenizer.specialTokens = v.specialTokens := rfl
      rw [Tokenizer.encodeSegments, htable]
      split
      next token id hfind =>
        obtain ⟨hspecial, ⟨tail, htail⟩, hlongest, hfirst⟩ := find_specialTokens hfind
        have hpos := List.length_pos_iff.mpr hspecial.ne_nil
        have hlength := congrArg List.length htail
        rw [List.length_append, List.length_cons] at hlength
        obtain ⟨segments, hscanned, hids⟩ := ih (by omega) (clean_nil tail)
        rw [← htail] at hclean hlongest ⊢
        obtain ⟨segments', hscanned', hids'⟩ := exists_scanned_pending hclean
          (.special token id tail segments hspecial hlongest hfirst hscanned)
          (fun segment hsegment => by cases hsegment; rfl)
        refine ⟨segments', hscanned', ?_⟩
        rw [List.drop_left, hids, ← hids']
        rfl
      next hfind =>
        obtain ⟨segments, hscanned, hids⟩ := ih (by omega : rest.length ≤ fuel)
          (hclean.snoc fun token id htoken => not_special_of_find hfind htoken)
        rw [List.append_assoc, List.singleton_append] at hscanned
        exact ⟨segments, hscanned, hids⟩

end segments
end Vocabulary

/-! ## The two scans agree -/

namespace Tokenizer

section agree

variable [Score S] {t : Tokenizer S} {text : List Char}

/-- Bounds that are no less than the text make no difference. -/
theorem encodeSegments_bound (htable : ∀ special ∈ t.specialTokens, special.1 ≠ []) {k l : Nat}
    {normal rest : List Char} (hk : rest.length ≤ k) (hl : rest.length ≤ l) :
    t.encodeSegments k normal rest = t.encodeSegments l normal rest := by
  induction k generalizing l normal rest with
  | zero =>
    obtain rfl := List.eq_nil_of_length_eq_zero (Nat.le_zero.mp hk)
    cases l <;> rfl
  | succ k ih =>
    cases rest with
    | nil => cases l <;> rfl
    | cons c rest =>
      rw [List.length_cons] at hk hl
      obtain ⟨l, rfl⟩ : ∃ m, l = m + 1 := ⟨l - 1, by omega⟩
      rw [encodeSegments, encodeSegments]
      split
      next token id hfind =>
        have hpos := List.length_pos_iff.mpr (htable _ (List.mem_of_find?_eq_some hfind))
        have hdrop := List.length_drop (i := token.length) (l := c :: rest)
        rw [List.length_cons] at hdrop
        dsimp only at hpos
        rw [ih (l := l) (by omega) (by omega)]
      next => exact ih (by omega) (by omega)

/-- The cursors stand between characters, and what is left to do is the scan in characters
from there. -/
def Between (t : Tokenizer S) (text : List Char) (b : Cursors) (ids : List UInt32) : Prop :=
  ∃ front normal rest, text = front ++ normal ++ rest ∧ b.normalStart = Utf8.len front ∧
    b.cursor = Utf8.len front + Utf8.len normal ∧
    ids ++ t.encodeSegments rest.length normal rest = t.encodeSegments text.length [] text

theorem extendBetween_run (front normal rest : List Char) (ids : List UInt32) :
    t.extendBetween (front ++ normal ++ rest) (Utf8.len front) (Utf8.len front + Utf8.len normal) ids =
      (.ok (), ids ++ if normal = [] then [] else t.encodePlain normal) := by
  unfold extendBetween
  by_cases hnil : normal = []
  · have hlen : Utf8.len normal = 0 := by rw [hnil]; rfl
    rw [if_neg (by omega), if_pos hnil, List.append_nil]
    rfl
  · have hpos := Utf8.len_pos.mpr hnil
    rw [if_pos (by omega), if_neg hnil, Utf8.slice_append]
    rfl

theorem specialRound_ok (htable : ∀ special ∈ t.specialTokens, special.1 ≠ []) (b : Cursors)
    (ids : List UInt32) (h : Between t text b ids) :
    RoundOk (fun b _ => Utf8.len text - b.cursor) (Between t text)
      (fun o ids => ∃ front normal, text = front ++ normal ∧ o = .ok (Utf8.len front) ∧
        ids ++ (if normal = [] then [] else t.encodePlain normal) =
          t.encodeSegments text.length [] text)
      (Utf8.len text - b.cursor) (t.specialRound text b ids) := by
  obtain ⟨front, normal, rest, htext, hstart, hcursor, hids⟩ := h
  have hlen : Utf8.len text = b.cursor + Utf8.len rest := by
    rw [htext, Utf8.len_append, Utf8.len_append, hcursor]
  unfold specialRound
  split
  next hlt =>
    have hslice : Utf8.sliceFrom text b.cursor = some rest := by
      rw [htext, hcursor, ← Utf8.len_append, Utf8.sliceFrom_append]
    have hne : rest ≠ [] := Utf8.len_pos.mp (by omega)
    obtain ⟨c, rest, rfl⟩ := List.exists_cons_of_ne_nil hne
    rw [List.length_cons, encodeSegments] at hids
    rw [hslice, expect_bind_run]
    dsimp only
    cases hfind : t.specialTokens.find? fun special => special.1.isPrefixOf (c :: rest) with
    | some found =>
      obtain ⟨token, id⟩ := found
      have hpos := Utf8.len_pos.mpr (htable _ (List.mem_of_find?_eq_some hfind))
      have hstands := List.find?_some hfind
      rw [List.isPrefixOf_iff_prefix] at hstands
      obtain ⟨tail, htail⟩ := hstands
      dsimp only at hpos htail
      rw [hfind] at hids
      dsimp only at hids
      have hextend := extendBetween_run (t := t) front normal (c :: rest) ids
      rw [← htext, ← hcursor, ← hstart] at hextend
      dsimp only
      rw [bind_run, hextend]
      refine ⟨⟨front ++ normal ++ token, [], tail, ?_, ?_, ?_, ?_⟩, ?_⟩
      · rw [htext, ← htail, List.append_nil, ← List.append_assoc]
      · show b.cursor + Utf8.len token = Utf8.len (front ++ normal ++ token)
        rw [hcursor, Utf8.len_append, Utf8.len_append]
      · show b.cursor + Utf8.len token = Utf8.len (front ++ normal ++ token) + 0
        rw [hcursor, Utf8.len_append, Utf8.len_append]
        rfl
      · have hlength := congrArg List.length htail
        have htoken := List.length_pos_iff.mpr (Utf8.len_pos.mp hpos)
        rw [List.length_append, List.length_cons] at hlength
        rw [← htail, List.drop_left,
          encodeSegments_bound htable (by omega) (Nat.le_refl tail.length)] at hids
        rw [← hids, List.append_assoc, List.append_assoc]
        rfl
      · show Utf8.len text - (b.cursor + Utf8.len token) < Utf8.len text - b.cursor
        omega
    | none =>
      rw [hfind] at hids
      dsimp only at hids
      refine ⟨⟨front, normal ++ [c], rest, ?_, hstart, ?_, hids⟩, ?_⟩
      · rw [htext, List.append_assoc, List.append_assoc, List.append_assoc, List.singleton_append]
      · show b.cursor + c.utf8Size = Utf8.len front + Utf8.len (normal ++ [c])
        rw [hcursor, Utf8.len_append, Utf8.len_cons, Nat.add_assoc]
        rfl
      · have hc := c.utf8Size_pos
        show Utf8.len text - (b.cursor + c.utf8Size) < Utf8.len text - b.cursor
        omega
  next hge =>
    have hnil : rest = [] := by
      by_contra hne
      have := Utf8.len_pos.mpr hne
      omega
    rw [hnil] at htext hids
    rw [hstart]
    refine ⟨front, normal, ?_, rfl, ?_⟩
    · rw [htext, List.append_nil]
    · exact hids

theorem encodePlain_nil : t.encodePlain [] = [] := by
  unfold encodePlain
  split
  · rfl
  · rfl

theorem encodeByCursor_run (htable : ∀ special ∈ t.specialTokens, special.1 ≠ []) (text : List Char) :
    t.encodeByCursor text [] = (.ok (), t.encodeWithSpecialTokens text) := by
  unfold encodeByCursor encodeWithSpecialTokens
  by_cases hnone : t.specialTokens = []
  · rw [if_pos hnone, if_pos hnone]
    rfl
  · rw [if_neg hnone, if_neg hnone]
    have hloop := loopOn_rule (specialRound_ok htable)
      (⟨[], [], text, rfl, rfl, rfl, rfl⟩ : Between t text ⟨0, 0⟩ [])
    rw [bind_run]
    generalize loopOn (fun b => Utf8.len text - b.cursor) (t.specialRound text) ⟨0, 0⟩ [] = result at hloop
    obtain ⟨outcome, ids⟩ := result
    obtain ⟨front, normal, htext, rfl, hids⟩ := hloop
    dsimp only at hids ⊢
    rw [← hids]
    by_cases hnil : normal = []
    · rw [if_pos hnil, if_neg (by rw [htext, hnil, List.append_nil]; omega), List.append_nil]
      rfl
    · have hpos := Utf8.len_pos.mpr hnil
      rw [if_neg hnil, htext, if_pos (by rw [Utf8.len_append]; omega), Utf8.sliceFrom_append]
      rfl

end agree
end Tokenizer

namespace Vocabulary

/-- The text is cut between characters into the segments of the scan, and what is returned
are the numbers of the special tokens and of the plain segments in between. -/
theorem encodeWithSpecialTokens_scanned [Score S] (v : Vocabulary S) (text : List Char) :
    ∃ segments, v.Scanned text segments ∧ (segments.map Segment.text).flatten = text ∧
      v.tokenizer.encodeByCursor text [] =
        (.ok (), segments.flatMap (Segment.ids v.tokenizer)) := by
  have htable : ∀ special ∈ v.tokenizer.specialTokens, special.1 ≠ [] :=
    fun special hspecial => (mem_specialTokens.mp hspecial).ne_nil
  suffices h : ∃ segments, v.Scanned text segments ∧
      v.tokenizer.encodeWithSpecialTokens text = segments.flatMap (Segment.ids v.tokenizer) by
    obtain ⟨segments, hscanned, hids⟩ := h
    refine ⟨segments, hscanned, hscanned.flatten, ?_⟩
    rw [Tokenizer.encodeByCursor_run htable, hids]
  unfold Tokenizer.encodeWithSpecialTokens
  split
  next hnone =>
    have hclean : v.Clean text [] := by
      intro front back _ _ token id htoken _
      have hmem := mem_specialTokens.mpr htoken
      rw [show v.specialTokens = [] from hnone] at hmem
      cases hmem
    obtain ⟨segments, hscanned, hids⟩ := exists_scanned_pending hclean .nil (fun _ h => by cases h)
    rw [List.append_nil] at hscanned
    refine ⟨segments, hscanned, ?_⟩
    rw [← hids, List.flatMap_nil, List.append_nil]
    split
    next hnil => rw [hnil, Tokenizer.encodePlain_nil]
    next => rfl
  next => exact exists_scanned (Nat.le_refl _) (clean_nil text)

end Vocabulary
end Ramforge
