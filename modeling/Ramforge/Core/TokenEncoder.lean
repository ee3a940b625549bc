/-
The encoder of text.

The scores of a vocabulary are any numbers with a sum, an order and a negative infinity:
no result depends on how they round.
-/
import Ramforge.Core.Tokenizer

namespace Ramforge

open Rust

/-- What the search does with `f32`. -/
class Score (S : Type) where
  zero : S
  negInfinity : S
  add : S → S → S
  gt : S → S → Bool
  eq : S → S → Bool
  eq_negInfinity : eq negInfinity negInfinity = true

/-- Exact scores, with a negative infinity. -/
instance : Score (Option ℚ) where
  zero := some 0
  negInfinity := none
  add a b := a.bind fun x => b.map fun y => x + y
  gt
    | some a, some b => decide (b < a)
    | some _, none => true
    | none, _ => false
  eq a b := a == b
  eq_negInfinity := rfl

/-- What a file says about its tokenizer.  A token is named by a `u32`. -/
structure Vocabulary (S : Type) where
  model : String
  pre : Option String
  tokens : List (List Char)
  scores : List S
  tokenTypes : List TokenType
  merges : Option (List (List Char))
  bosId : Option UInt32
  eosId : Option UInt32
  unkId : Option UInt32
  padId : Option UInt32
  addBos : Bool
  addEos : Bool
  size : tokens.length ≤ 2 ^ 32

namespace Vocabulary

variable {S : Type} (v : Vocabulary S)

/-- The first token of each text. -/
def tokenToId : List (List Char × UInt32) :=
  v.tokens.zipIdx.foldl (fun m entry => HashMap.orInsert m entry.1 (UInt32.ofNat entry.2)) []

def mergeParts (merge : List Char) : Option (List Char × List Char) :=
  match Unicode.splitWhitespace merge with
  | left :: [right] => some (left, right)
  | left :: right :: rest => some (left, List.intercalate [' '] (right :: rest))
  | _ => none

def mergesRank : List ((List Char × List Char) × Nat) :=
  (v.merges.getD []).zipIdx.foldl
    (fun m entry =>
      match mergeParts entry.1 with
      | some parts => HashMap.insert m parts entry.2
      | none => m) []

/-- One round of the loop over the tokens that finds those of single bytes. -/
def byteToken (m : List (UInt8 × UInt32)) (entry : List Char × Nat) : List (UInt8 × UInt32) :=
  if isByteLiteral entry.1 then
    match u8FromHex (literalDigits entry.1) with
    | some b => HashMap.insert m b (UInt32.ofNat entry.2)
    | none => m
  else if Utf8.len entry.1 = 1 then
    match v.tokenToId.lookup entry.1 with
    | none => m
    | some id =>
      if v.tokenTypes[id.toNat]? = some .byte then
        match (Utf8.encode entry.1).head? with
        | some first => HashMap.orInsert m first id
        | none => m
      else m
  else m

def byteTokens : List (UInt8 × UInt32) := v.tokens.zipIdx.foldl v.byteToken []

def isSpecial (entry : List Char × Nat) : Bool :=
  entry.1.head? == some '<' && 1 < Utf8.len entry.1 &&
    (v.tokenTypes[entry.2]? == some .control || v.tokenTypes[entry.2]? == some .userDefined)

/-- Longest first. -/
def specialTokens : List (List Char × UInt32) :=
  ((v.tokens.zipIdx.filter v.isSpecial).map fun entry => (entry.1, UInt32.ofNat entry.2)).mergeSort
    fun left right =>
      Utf8.len right.1 < Utf8.len left.1 ||
        (Utf8.len right.1 == Utf8.len left.1 && left.2 ≤ right.2)

/-- The end of `from_gguf`. -/
def tokenizer : Tokenizer S where
  model := v.model
  pre := v.pre
  tokens := v.tokens
  scores := v.scores
  tokenTypes := v.tokenTypes
  merges := v.merges
  bosId := v.bosId
  eosId := v.eosId
  unkId := v.unkId
  padId := v.padId
  addBos := v.addBos
  addEos := v.addEos
  tokenToId := v.tokenToId
  mergesRank := v.mergesRank
  byteTokens := v.byteTokens
  specialTokens := v.specialTokens

end Vocabulary

namespace Tokenizer

variable {S : Type} (t : Tokenizer S)

/-! ## The greedy search -/

/-- The longest token, of 32 characters at most, that starts the text. -/
def longestMatch (text : List Char) : Option (Nat × UInt32) :=
  (List.range text.length).reverse.findSome? fun k =>
    if 32 < k + 1 then none else (t.tokenToId.lookup (text.take (k + 1))).map fun id => (k + 1, id)

/-- The ids of a character that starts no token. -/
def unmatched (c : Char) : List UInt32 :=
  match t.tokenToId.lookup [c] with
  | some id => [id]
  | none =>
    match t.byteTokens.lookup ((Utf8.encode [c]).headD 0) with
    | some id => [id]
    | none => t.unkId.toList

def greedyFrom : Nat → List Char → List UInt32
  | _, [] => []
  | 0, _ => []
  | fuel + 1, c :: rest =>
    match t.longestMatch (c :: rest) with
    | some (length, id) => id :: greedyFrom fuel ((c :: rest).drop length)
    | none => t.unmatched c ++ greedyFrom fuel rest

def encodeGreedy (text : List Char) : List UInt32 := t.greedyFrom text.length text

/-! ## The search for the best path -/

section Path

variable [Score S]

/-- The best path to a position: its score, its last token, and where that starts. -/
structure Cell (S : Type) where
  score : S
  id : Option UInt32
  prev : Nat

/-- The columns `best_score`, `best_id` and `best_prev` of all positions. -/
abbrev Table (S : Type) : Type := Nat → Cell S

def startTable : Table S := fun pos =>
  { score := if pos = 0 then Score.zero else Score.negInfinity
    id := none
    prev := 0 }

/-- The token from `i` of `len` characters. -/
def relax (chars : List Char) (i : Nat) (table : Table S) (len : Nat) : Table S :=
  match t.tokenToId.lookup ((chars.drop i).take len) with
  | none => table
  | some id =>
    let newScore := Score.add (table i).score (t.scores[id.toNat]?.getD Score.zero)
    if Score.gt newScore (table (i + len)).score then
      fun pos =>
        if pos = i + len then
          { score := newScore
            id := some id
            prev := i }
        else table pos
    else table

def relaxFrom (chars : List Char) (table : Table S) (i : Nat) : Table S :=
  if Score.eq (table i).score Score.negInfinity then table
  else (List.range' 1 (min (chars.length - i) 32)).foldl (t.relax chars i) table

def search (chars : List Char) : Table S :=
  (List.range chars.length).foldl (t.relaxFrom chars) startTable

/-- The tokens of the path that ends at a position, the last one first. -/
def backtrack (chars : List Char) (table : Table S) : Nat → Nat → List UInt32
  | 0, _ => []
  | _, 0 => []
  | fuel + 1, pos + 1 =>
    match (table (pos + 1)).id with
    | some id => id :: backtrack chars table fuel (table (pos + 1)).prev
    | none =>
      let byte := UInt8.ofNat ((chars[pos]?.map Char.toNat).getD 0)
      let ids :=
        match t.byteTokens.lookup byte with
        | some id => [id]
        | none => t.unkId.toList
      ids ++ backtrack chars table fuel pos

/-- `text.replace(' ', "▁")`, with one more in front where there is none. -/
def preprocess (text : List Char) : List Char :=
  if t.tokens.any fun token => token.contains '▁' then
    let s := text.map fun c => if c = ' ' then '▁' else c
    if s.head? ≠ some '▁' ∧ text ≠ [] then '▁' :: s else s
  else text

def encodeSentencepiece (text : List Char) : List UInt32 :=
  if text = [] then []
  else
    let processed := t.preprocess text
    let n := processed.length
    let table := t.search processed
    if Score.eq (table n).score Score.negInfinity then t.encodeGreedy processed
    else (t.backtrack processed table n n).reverse

end Path

/-! ## Byte pairs -/

def preTokenizeBpe (text : List Char) : List (List Char) :=
  if t.tokens.any fun token => token.head? = some 'Ġ' then
    let words :=
      match Unicode.splitWhitespace text with
      | [] => []
      | first :: rest => first :: rest.map ('Ġ' :: ·)
    match words with
    | [] => []
    | first :: rest =>
      if (text.head?.any Unicode.isWhitespace) then ('Ġ' :: first) :: rest else first :: rest
  else [text]

/-- A pair and its position against the best rank and position so far. -/
def betterMerge (best : Option (Nat × Nat)) (entry : (List Char × List Char) × Nat) :
    Option (Nat × Nat) :=
  match t.mergesRank.lookup entry.1 with
  | none => best
  | some rank =>
    match best with
    | none => some (rank, entry.2)
    | some found => if rank < found.1 then some (rank, entry.2) else some found

/-- The first of the pairs with the least rank. -/
def bestMerge (pieces : List (List Char)) : Option (Nat × Nat) :=
  (pieces.zip pieces.tail).zipIdx.foldl t.betterMerge none

/-- `pieces[idx]` and the piece after it, put together. -/
def mergeAt (pieces : List (List Char)) (idx : Nat) : List (List Char) :=
  pieces.take idx ++ ((pieces.drop idx).take 2).flatten :: pieces.drop (idx + 2)

/-- The loop of `bpe_word`.  Each round leaves one piece less. -/
def mergeLoop : Nat → List (List Char) → List (List Char)
  | 0, pieces => pieces
  | fuel + 1, pieces =>
    match t.bestMerge pieces with
    | some (_, idx) => mergeLoop fuel (mergeAt pieces idx)
    | none => pieces

def bpeWord (word : List Char) : List (List Char) :=
  if word = [] then []
  else
    let pieces := word.map ([·])
    if t.mergesRank = [] then pieces else t.mergeLoop pieces.length pieces

/-- The ids of a piece: its token, or a token for each of its bytes. -/
def pieceIds (piece : List Char) : List UInt32 :=
  match t.tokenToId.lookup piece with
  | some id => [id]
  | none =>
    (Utf8.encode piece).flatMap fun b =>
      match t.byteTokens.lookup b with
      | some id => [id]
      | none =>
        match t.tokenToId.lookup piece with
        | some id => [id]
        | none => t.unkId.toList

def encodeBpe (text : List Char) : List UInt32 :=
  if text = [] then []
  else
    let ids := (t.preTokenizeBpe text).flatMap fun word => (t.bpeWord word).flatMap t.pieceIds
    if ids = [] then t.encodeGreedy text else ids

/-! ## Encoding -/

variable [Score S]

def encodePlain (text : List Char) : List UInt32 :=
  if t.model = "gpt2" ∨ t.pre = some "qwen2" ∨ t.merges.isSome then t.encodeBpe text
  else t.encodeSentencepiece text

/-- The loop of `encode_with_special_tokens`: `normal` is what no special token has taken
yet.  Each round takes a character at least. -/
def encodeSegments : Nat → List Char → List Char → List UInt32
  | _, normal, [] => if normal = [] then [] else t.encodePlain normal
  | 0, _, _ => []
  | fuel + 1, normal, c :: rest =>
    match t.specialTokens.find? fun special => special.1.isPrefixOf (c :: rest) with
    | some (token, id) =>
      (if normal = [] then [] else t.encodePlain normal) ++
        id :: encodeSegments fuel [] ((c :: rest).drop token.length)
    | none => encodeSegments fuel (normal ++ [c]) rest

def encodeWithSpecialTokens (text : List Char) : List UInt32 :=
  if t.specialTokens = [] then t.encodePlain text else t.encodeSegments text.length [] text

def encode (text : List Char) (addBos : Bool) : List UInt32 :=
  (if addBos ∧ t.addBos then t.bosId.toList else []) ++ t.encodeWithSpecialTokens text ++
    (if t.addEos then t.eosId.toList else [])

end Tokenizer
end Ramforge
