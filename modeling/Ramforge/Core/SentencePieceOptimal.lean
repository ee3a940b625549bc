/-
The path search finds a best segmentation.

A round at a position offers every token from there to the position behind it, and later
rounds change no position that has had its round.  So the scores obey Bellman's inequality
along every token, and the marks that are followed back obey it with equality.
-/
import Mathlib.Algebra.Order.Monoid.WithTop
import Mathlib.Algebra.Order.Group.Defs
import Ramforge.Core.VocabularyMaps

namespace Ramforge

open Rust
open Tokenizer (Cell Table startTable)

variable {G : Type} [AddCommGroup G] [LinearOrder G]

/-- Scores of an ordered group, below all of them the negative infinity. -/
instance : Score (WithBot G) where
  zero := 0
  negInfinity := ⊥
  add := (· + ·)
  gt a b := decide (b < a)
  eq a b := decide (a = b)
  eq_negInfinity := decide_eq_true rfl

namespace Tokenizer

variable (t : Tokenizer (WithBot G))

/-- The score of a token. -/
def scoreAt (id : UInt32) : WithBot G := t.scores[id.toNat]?.getD 0

/-- A token, of 32 characters at most, that leads from one position to another. -/
structure Edge (chars : List Char) (i len : Nat) (id : UInt32) : Prop where
  pos : 0 < len
  le_window : len ≤ 32
  le_length : i + len ≤ chars.length
  token : t.tokenToId.lookup ((chars.drop i).take len) = some id

/-! ## One round -/

variable {t} {chars : List Char} {i : Nat} {table : Table (WithBot G)}

/-- What a round at `i` makes of the table when it has offered these lengths. -/
structure Offered (t : Tokenizer (WithBot G)) (chars : List Char) (i : Nat) (lens : List Nat)
    (table table' : Table (WithBot G)) : Prop where
  kept : ∀ pos ≤ i, table' pos = table pos
  le : ∀ pos, (table pos).score ≤ (table' pos).score
  closed : ∀ len ∈ lens, ∀ id, t.Edge chars i len id →
    (table i).score + t.scoreAt id ≤ (table' (i + len)).score
  marked : ∀ pos, table' pos = table pos ∨ ∃ len id, pos = i + len ∧ t.Edge chars i len id ∧
    table' pos = ⟨(table i).score + t.scoreAt id, some id, i⟩

theorem Offered.nil : Offered t chars i [] table table :=
  ⟨fun _ _ => rfl, fun _ => le_refl _, fun _ hlen => (by cases hlen), fun _ => .inl rfl⟩

theorem Offered.cons {len : Nat} {lens : List Nat} {table' table'' : Table (WithBot G)}
    (h : Offered t chars i [len] table table') (h' : Offered t chars i lens table' table'') :
    Offered t chars i (len :: lens) table table'' := by
  have hi : table' i = table i := h.kept i (Nat.le_refl i)
  refine ⟨fun pos hpos => ?_, fun pos => (h.le pos).trans (h'.le pos), ?_, fun pos => ?_⟩
  · rw [h'.kept pos hpos, h.kept pos hpos]
  · intro len' hlen id hedge
    rcases List.mem_cons.mp hlen with rfl | hlen
    · exact (h.closed len' (List.mem_singleton_self _) id hedge).trans (h'.le _)
    · rw [← hi]
      exact h'.closed len' hlen id hedge
  · rcases h'.marked pos with hsame | hmark
    · rw [hsame]
      exact h.marked pos
    · rw [hi] at hmark
      exact .inr hmark

theorem relax_offered {len : Nat} (hpos : 0 < len) (hwindow : len ≤ 32)
    (hlength : i + len ≤ chars.length) : Offered t chars i [len] table (t.relax chars i table len) := by
  have hsame (hle : ∀ id, t.Edge chars i len id →
      (table i).score + t.scoreAt id ≤ (table (i + len)).score) : Offered t chars i [len] table table := by
    refine ⟨fun _ _ => rfl, fun _ => le_refl _, fun len' hlen id hedge => ?_, fun _ => .inl rfl⟩
    obtain rfl := List.mem_singleton.mp hlen
    exact hle id hedge
  unfold relax
  split
  next hnone =>
    refine hsame fun id hedge => ?_
    rw [hedge.token] at hnone
    cases hnone
  next id htoken =>
    have hedge : t.Edge chars i len id := ⟨hpos, hwindow, hlength, htoken⟩
    have hunique : ∀ id', t.Edge chars i len id' → id' = id := by
      intro id' hedge'
      have htoken' := hedge'.token
      rw [htoken] at htoken'
      exact (Option.some.inj htoken').symm
    show Offered t chars i [len] table
      (if decide ((table (i + len)).score < (table i).score + t.scoreAt id) = true then
        fun pos => if pos = i + len then ⟨(table i).score + t.scoreAt id, some id, i⟩ else table pos
      else table)
    split
    next hgt =>
      have hlt := of_decide_eq_true hgt
      refine ⟨fun pos hle => if_neg (by omega), fun pos => ?_, fun len' hlen id' hedge' => ?_,
        fun pos => ?_⟩
      · by_cases hend : pos = i + len
        · rw [if_pos hend, hend]
          exact hlt.le
        · rw [if_neg hend]
      · obtain rfl := List.mem_singleton.mp hlen
        rw [if_pos rfl, hunique id' hedge']
      · by_cases hend : pos = i + len
        · exact .inr ⟨len, id, hend, hedge, if_pos hend⟩
        · exact .inl (if_neg hend)
    next hngt =>
      rw [Bool.not_eq_true, decide_eq_false_iff_not, not_lt] at hngt
      refine hsame fun id' hedge' => ?_
      rw [hunique id' hedge']
      exact hngt

theorem foldl_relax_offered {lens : List Nat}
    (hlens : ∀ len ∈ lens, 0 < len ∧ len ≤ 32 ∧ i + len ≤ chars.length) :
    Offered t chars i lens table (lens.foldl (t.relax chars i) table) := by
  induction lens generalizing table with
  | nil => exact .nil
  | cons len lens ih =>
    obtain ⟨⟨hpos, hwindow, hlength⟩, hlens⟩ := List.forall_mem_cons.mp hlens
    exact (relax_offered hpos hwindow hlength).cons (ih hlens)

/-- A round offers every token from its position. -/
theorem relaxFrom_offered (hi : i < chars.length) :
    Offered t chars i (List.range' 1 (min (chars.length - i) 32)) table (t.relaxFrom chars table i) := by
  unfold relaxFrom
  split
  next hscore =>
    have hbot : (table i).score = ⊥ := of_decide_eq_true hscore
    refine ⟨fun _ _ => rfl, fun _ => le_refl _, fun len _ id _ => ?_, fun _ => .inl rfl⟩
    rw [hbot, WithBot.bot_add]
    exact bot_le
  next =>
    refine foldl_relax_offered fun len hlen => ?_
    rw [List.mem_range'_1] at hlen
    omega

/-! ## The rounds -/

/-- The table when the rounds at the positions in front of `k` are over. -/
structure Rounds (t : Tokenizer (WithBot G)) (chars : List Char) (k : Nat)
    (table : Table (WithBot G)) : Prop where
  start : (table 0).score = 0
  closed : ∀ i < k, ∀ len id, t.Edge chars i len id →
    (table i).score + t.scoreAt id ≤ (table (i + len)).score
  marked : ∀ pos, 0 < pos → (table pos).score ≠ ⊥ → ∃ i < k, ∃ len id, pos = i + len ∧
    t.Edge chars i len id ∧ table pos = ⟨(table i).score + t.scoreAt id, some id, i⟩

theorem rounds_start : Rounds t chars 0 (startTable : Table (WithBot G)) where
  start := rfl
  closed i hi := absurd hi (Nat.not_lt_zero i)
  marked pos hpos hscore := by
    refine absurd ?_ hscore
    show (if pos = 0 then (0 : WithBot G) else ⊥) = ⊥
    exact if_neg (by omega)

theorem Rounds.succ {k : Nat} (h : Rounds t chars k table) (hk : k < chars.length) :
    Rounds t chars (k + 1) (t.relaxFrom chars table k) := by
  have hround : Offered t chars k (List.range' 1 (min (chars.length - k) 32)) table
      (t.relaxFrom chars table k) := relaxFrom_offered hk
  refine ⟨?_, fun i hi len id hedge => ?_, fun pos hpos hscore => ?_⟩
  · rw [hround.kept 0 (Nat.zero_le k)]
    exact h.start
  · rw [hround.kept i (by omega)]
    rcases Nat.lt_succ_iff_lt_or_eq.mp hi with hi | rfl
    · exact (h.closed i hi len id hedge).trans (hround.le _)
    · have := hedge.pos
      have := hedge.le_window
      have := hedge.le_length
      exact hround.closed len (by rw [List.mem_range'_1]; omega) id hedge
  · rcases hround.marked pos with hsame | ⟨len, id, hend, hedge, hmark⟩
    · rw [hsame] at hscore ⊢
      obtain ⟨i, hi, len, id, hend, hedge, hmark⟩ := h.marked pos hpos hscore
      refine ⟨i, by omega, len, id, hend, hedge, ?_⟩
      rw [hround.kept i (by omega)]
      exact hmark
    · refine ⟨k, Nat.lt_succ_self k, len, id, hend, hedge, ?_⟩
      rw [hround.kept k (Nat.le_refl k)]
      exact hmark

theorem rounds_search (t : Tokenizer (WithBot G)) (chars : List Char) :
    Rounds t chars chars.length (t.search chars) := by
  have hrounds : ∀ k ≤ chars.length,
      Rounds t chars k ((List.range k).foldl (t.relaxFrom chars) startTable) := by
    intro k
    induction k with
    | zero => exact fun _ => rounds_start
    | succ k ih =>
      intro hk
      rw [List.range_succ, List.foldl_append]
      exact (ih (by omega)).succ (by omega)
  exact hrounds _ (Nat.le_refl _)

end Tokenizer

/-! ## Segmentations -/

namespace Vocabulary

/-- The text cut into tokens of 32 characters at most, none of them empty. -/
structure Segmentation {S : Type} (v : Vocabulary S) (text : List Char) (parts : List (List Char)) :
    Prop where
  flatten : parts.flatten = text
  token : ∀ part ∈ parts, part ∈ v.tokens ∧ part ≠ [] ∧ part.length ≤ 32

/-- The texts of tokens. -/
def texts {S : Type} (v : Vocabulary S) (ids : List UInt32) : List (List Char) :=
  ids.map fun id => v.tokens.getD id.toNat []

theorem preprocess_nil {S : Type} {v : Vocabulary S} : v.tokenizer.preprocess [] = [] := by
  unfold Tokenizer.preprocess
  split
  · rfl
  · rfl

theorem getD_of_lookup {S : Type} {v : Vocabulary S} {part : List Char} {id : UInt32}
    (h : v.tokenizer.tokenToId.lookup part = some id) :
    v.tokens.getD id.toNat [] = part := by
  rw [List.getD_eq_getElem?_getD, tokens_of_lookup h, Option.getD_some]

variable (v : Vocabulary (WithBot G))

/-- The score of a token.  One that is listed twice has the score of its first listing. -/
def scoreOf (part : List Char) : WithBot G := v.scores[v.tokens.idxOf part]?.getD 0

def total (parts : List (List Char)) : WithBot G := (parts.map v.scoreOf).sum

variable {v} {chars part : List Char} {parts : List (List Char)} {i len : Nat} {id : UInt32}
  {table : Table (WithBot G)}

section scores

omit [LinearOrder G]

theorem scoreAt_of_lookup (h : v.tokenizer.tokenToId.lookup part = some id) :
    v.tokenizer.scoreAt id = v.scoreOf part := by
  have hlookup : v.tokenToId.lookup part = some id := h
  rw [lookup_tokenToId] at hlookup
  split at hlookup
  next hmem =>
    have hlt := List.idxOf_lt_length_of_mem hmem
    have hsize := v.size
    show v.scores[id.toNat]?.getD 0 = v.scores[v.tokens.idxOf part]?.getD 0
    rw [← Option.some.inj hlookup, UInt32.toNat_ofNat_of_lt' (by rw [UInt32.size]; omega)]
  next => cases hlookup

theorem edge_of_token {rest : List Char} (hdrop : chars.drop i = part ++ rest)
    (htoken : part ∈ v.tokens) (hne : part ≠ []) (hshort : part.length ≤ 32) :
    ∃ id, v.tokenizer.Edge chars i part.length id ∧ v.tokenizer.scoreAt id = v.scoreOf part := by
  obtain ⟨id, hid⟩ := Option.isSome_iff_exists.mp (isSome_lookup htoken)
  have hpos := List.length_pos_iff.mpr hne
  have hlength := congrArg List.length hdrop
  rw [List.length_drop, List.length_append] at hlength
  refine ⟨id, ⟨hpos, hshort, by omega, ?_⟩, scoreAt_of_lookup hid⟩
  rw [hdrop, List.take_left]
  exact hid

theorem total_ne_bot (hfinite : ∀ score ∈ v.scores, score ≠ ⊥) (parts : List (List Char)) :
    v.total parts ≠ ⊥ := by
  have hscore : ∀ part, v.scoreOf part ≠ ⊥ := by
    intro part
    unfold scoreOf
    cases hget : v.scores[v.tokens.idxOf part]? with
    | none => exact WithBot.zero_ne_bot
    | some score => exact hfinite score (List.mem_of_getElem? hget)
  induction parts with
  | nil => exact WithBot.zero_ne_bot
  | cons part parts ih =>
    rw [total, List.map_cons, List.sum_cons, WithBot.add_ne_bot]
    exact ⟨hscore part, ih⟩

end scores

section ordered

variable [IsOrderedAddMonoid G]

/-- No cut of the rest of the text gains more than the table has at its end. -/
theorem total_le (h : v.tokenizer.Rounds chars chars.length table)
    (hparts : v.Segmentation (chars.drop i) parts) (hi : i ≤ chars.length) :
    (table i).score + v.total parts ≤ (table chars.length).score := by
  induction parts generalizing i with
  | nil =>
    have hdrop : chars.drop i = [] := hparts.flatten.symm
    rw [List.drop_eq_nil_iff] at hdrop
    obtain rfl := Nat.le_antisymm hi hdrop
    rw [total, List.map_nil, List.sum_nil, add_zero]
  | cons part rest ih =>
    obtain ⟨⟨htoken, hne, hshort⟩, hrest⟩ := List.forall_mem_cons.mp hparts.token
    have hdrop : chars.drop i = part ++ rest.flatten := hparts.flatten.symm
    obtain ⟨id, hedge, hscore⟩ := edge_of_token hdrop htoken hne hshort
    have hlength := hedge.le_length
    have hpos := hedge.pos
    have htail : v.Segmentation (chars.drop (i + part.length)) rest := by
      refine ⟨?_, hrest⟩
      rw [← List.drop_drop, hdrop, List.drop_left]
    calc (table i).score + v.total (part :: rest)
        = (table i).score + v.tokenizer.scoreAt id + v.total rest := by
          rw [total, List.map_cons, List.sum_cons, ← hscore, ← add_assoc, total]
      _ ≤ (table (i + part.length)).score + v.total rest :=
          add_le_add_left (h.closed i (by omega) _ id hedge) _
      _ ≤ (table chars.length).score := ih htail hlength

end ordered

/-- The marks lead back over a cut of the text that gains what the table has. -/
theorem backtrack_segmentation (h : v.tokenizer.Rounds chars chars.length table) {fuel pos : Nat}
    (hfuel : pos ≤ fuel) (hscore : (table pos).score ≠ ⊥) :
    v.Segmentation (chars.take pos)
        (v.texts (v.tokenizer.backtrack chars table fuel pos).reverse) ∧
      v.total (v.texts (v.tokenizer.backtrack chars table fuel pos).reverse) = (table pos).score := by
  induction fuel generalizing pos with
  | zero =>
    obtain rfl := Nat.le_zero.mp hfuel
    exact ⟨⟨rfl, fun _ hpart => (by cases hpart)⟩, h.start.symm⟩
  | succ fuel ih =>
    cases pos with
    | zero => exact ⟨⟨rfl, fun _ hpart => (by cases hpart)⟩, h.start.symm⟩
    | succ pos =>
      obtain ⟨i, -, len, id, hend, hedge, hmark⟩ := h.marked (pos + 1) (Nat.succ_pos pos) hscore
      have hpos := hedge.pos
      rw [hmark, WithBot.add_ne_bot] at hscore
      obtain ⟨hparts, htotal⟩ := ih (by omega : i ≤ fuel) hscore.1
      have hids : v.tokenizer.backtrack chars table (fuel + 1) (pos + 1) =
          id :: v.tokenizer.backtrack chars table fuel i := by
        rw [Tokenizer.backtrack, hmark]
      have hlength : ((chars.drop i).take len).length = len := by
        have := hedge.le_length
        rw [List.length_take, List.length_drop]
        omega
      rw [hids, List.reverse_cons, texts, List.map_append, List.map_singleton,
        getD_of_lookup hedge.token]
      refine ⟨⟨?_, ?_⟩, ?_⟩
      · rw [List.flatten_append, List.flatten_singleton, hend, List.take_add]
        exact congrArg (· ++ (chars.drop i).take len) hparts.flatten
      · intro part hpart
        rcases List.mem_append.mp hpart with hpart | hpart
        · exact hparts.token part hpart
        · rw [List.mem_singleton.mp hpart]
          refine ⟨List.mem_of_getElem? (tokens_of_lookup hedge.token), ?_, ?_⟩
          · exact List.ne_nil_of_length_pos (by omega)
          · rw [hlength]
            exact hedge.le_window
      · rw [total, List.map_append, List.sum_append, List.map_singleton, List.sum_singleton,
          ← scoreAt_of_lookup hedge.token, hmark]
        exact congrArg (· + v.tokenizer.scoreAt id) htotal

/-- Where the text can be cut into tokens, it is cut into tokens, and no other cut has a
greater score. -/
theorem encodeSentencepiece_optimal [IsOrderedAddMonoid G] (v : Vocabulary (WithBot G))
    (hfinite : ∀ score ∈ v.scores, score ≠ ⊥) (text : List Char)
    (h : ∃ parts, v.Segmentation (v.tokenizer.preprocess text) parts) :
    v.Segmentation (v.tokenizer.preprocess text) (v.texts (v.tokenizer.encodeSentencepiece text)) ∧
      ∀ parts, v.Segmentation (v.tokenizer.preprocess text) parts →
        v.total parts ≤ v.total (v.texts (v.tokenizer.encodeSentencepiece text)) := by
  have hrounds := Tokenizer.rounds_search v.tokenizer (v.tokenizer.preprocess text)
  have hbest : ∀ parts, v.Segmentation (v.tokenizer.preprocess text) parts →
      v.total parts ≤ (v.tokenizer.search (v.tokenizer.preprocess text)
        (v.tokenizer.preprocess text).length).score := by
    intro parts hparts
    have hle := total_le (i := 0) hrounds hparts (Nat.zero_le _)
    rwa [hrounds.start, zero_add] at hle
  obtain ⟨parts, hparts⟩ := h
  have hscore : (v.tokenizer.search (v.tokenizer.preprocess text)
      (v.tokenizer.preprocess text).length).score ≠ ⊥ :=
    ne_bot_of_le_ne_bot (total_ne_bot hfinite parts) (hbest parts hparts)
  have hids : v.tokenizer.encodeSentencepiece text =
      (v.tokenizer.backtrack (v.tokenizer.preprocess text)
        (v.tokenizer.search (v.tokenizer.preprocess text)) (v.tokenizer.preprocess text).length
          (v.tokenizer.preprocess text).length).reverse := by
    unfold Tokenizer.encodeSentencepiece
    split
    next hnil =>
      rw [hnil, preprocess_nil]
      rfl
    next => exact if_neg (fun heq => hscore (of_decide_eq_true heq))
  obtain ⟨hsegmentation, htotal⟩ := backtrack_segmentation hrounds (Nat.le_refl _) hscore
  rw [List.take_length] at hsegmentation
  rw [hids, htotal]
  exact ⟨hsegmentation, hbest⟩

/-- One long token of little worth, and two short ones. -/
def twoCuts : Vocabulary (WithBot ℤ) where
  model := "llama"
  pre := none
  tokens := ["<unk>".toList, "ab".toList, "a".toList, "b".toList]
  scores := [0, ((-3 : ℤ) : WithBot ℤ), ((-1 : ℤ) : WithBot ℤ), ((-1 : ℤ) : WithBot ℤ)]
  tokenTypes := [.unknown, .normal, .normal, .normal]
  merges := none
  bosId := none
  eosId := none
  unkId := some 0
  padId := none
  addBos := true
  addEos := false
  size := by decide

theorem encodeSentencepiece_optimal_twoCuts :
    twoCuts.texts (twoCuts.tokenizer.encodeSentencepiece "ab".toList) = ["a".toList, "b".toList] ∧
      ∀ parts, twoCuts.Segmentation (twoCuts.tokenizer.preprocess "ab".toList) parts →
        twoCuts.total parts ≤ twoCuts.total ["a".toList, "b".toList] := by
  have htexts : twoCuts.texts (twoCuts.tokenizer.encodeSentencepiece "ab".toList) =
      ["a".toList, "b".toList] := by
    decide +kernel
  obtain ⟨-, hbest⟩ := encodeSentencepiece_optimal twoCuts (by decide +kernel) "ab".toList
    ⟨["ab".toList], by decide +kernel, by decide +kernel⟩
  rw [htexts] at hbest
  exact ⟨htexts, hbest⟩

end Vocabulary
end Ramforge
