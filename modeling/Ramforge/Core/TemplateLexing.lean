/-
The lexer of chat templates at its byte cursors, and what it makes of comments.

The search for a closing marker passes over markers in quotes, in every kind of tag.  In
a comment a quote is text, and one that is left open hides the end of the comment.
-/
import Ramforge.Core.ChatTemplate
import Ramforge.Rust.Loop
import Ramforge.Rust.Utf8

namespace Ramforge

open Rust Rust.Exec

namespace ChatTemplate

/-! ## The end of a tag in bytes -/

def sliceError : String := "byte index is not a char boundary"

section search

variable {σ ε : Type}

/-- `quote`, `escaped` and `cursor` of `find_tag_end`. -/
structure TagSearch where
  quote : Option Char
  escaped : Bool
  cursor : Nat

/-- What a round does at a character; `stands` says whether the marker does there. -/
def TagSearch.round (b : TagSearch) (stands : Bool) (character : Char) :
    RoundEnd TagSearch (Option Nat) :=
  let cursor := b.cursor + character.utf8Size
  if b.escaped then .again ⟨b.quote, false, cursor⟩
  else
    match b.quote with
    | some active =>
      if character = '\\' then .again ⟨some active, true, cursor⟩
      else if character = active then .again ⟨none, false, cursor⟩
      else .again ⟨some active, false, cursor⟩
    | none =>
      if character = '\'' ∨ character = '"' then .again ⟨some character, false, cursor⟩
      else if stands then .leave (some b.cursor)
      else .again ⟨none, false, cursor⟩

def findTagEndRound (source marker : List Char) (b : TagSearch) :
    Exec σ ε (RoundEnd TagSearch (Option Nat)) :=
  if b.cursor < Utf8.len source then do
    let remaining ← expect (Utf8.sliceFrom source b.cursor) sliceError
    match remaining with
    | [] => pure (.leave none)
    | character :: _ => pure (b.round (marker.isPrefixOf remaining) character)
  else pure (.leave none)

/-- `find_tag_end`: the byte where the closing marker starts. -/
def findTagEndAt (source marker : List Char) : Exec σ ε (Option Nat) :=
  loopOn (fun b => Utf8.len source - b.cursor) (findTagEndRound source marker) ⟨none, false, 0⟩

end search

/-! ## The lexer in bytes -/

/-- `cursor`, `text_start` and `trim_next_text` of `tokenize_template`. -/
structure LexCursors where
  cursor : Nat
  textStart : Nat
  trimNextText : Bool

/-- The closing marker of the tag whose opening is the two bytes at `cursor`. -/
def openingAt (bytes : List UInt8) (cursor : Nat) : Option (List Char) :=
  let two := (bytes.drop cursor).take 2
  if two = Utf8.encode ['{', '{'] then some ['}', '}']
  else if two = Utf8.encode ['{', '%'] then some ['%', '}']
  else if two = Utf8.encode ['{', '#'] then some ['#', '}']
  else none

/-- `b'-'`. -/
def dash : UInt8 := UInt8.ofNat '-'.toNat

/-- `content_end > content_start && bytes[content_end - 1] == b'-'`. -/
def trimsAfterAt {σ ε : Type} (bytes : List UInt8) (contentStart contentEnd : Nat) : Exec σ ε Bool :=
  if contentStart < contentEnd then do
    let last ← expect bytes[contentEnd - 1]? "index out of bounds"
    pure (last == dash)
  else pure false

def pushTag (closeMarker content : List Char) (cursor : Nat) :
    Exec (List TemplateToken) ChatTemplateError Unit :=
  if closeMarker = ['#', '}'] then pure ()
  else if content = [] then throw (.parse s!"empty template tag at byte {cursor}")
  else if closeMarker = ['}', '}'] then modify (· ++ [.expression content])
  else if closeMarker = ['%', '}'] then modify (· ++ [.statement content])
  else Exec.panic "internal error: entered unreachable code"

section lexer

variable (source : List Char)

def tagRound (b : LexCursors) (closeMarker : List Char) :
    Exec (List TemplateToken) ChatTemplateError (RoundEnd LexCursors LexCursors) := do
  let trimBefore := (Utf8.encode source)[b.cursor + 2]? == some dash
  let contentStart := if trimBefore then b.cursor + 3 else b.cursor + 2
  let content ← expect (Utf8.sliceFrom source contentStart) sliceError
  let relativeClose ← findTagEndAt content closeMarker
  let relativeClose ←
    okOr relativeClose (.parse s!"unterminated template tag at byte {b.cursor}")
  let closeStart := contentStart + relativeClose
  let trimAfter ← trimsAfterAt (Utf8.encode source) contentStart closeStart
  let contentEnd := if trimAfter then closeStart - 1 else closeStart
  let text ← expect (Utf8.slice source b.textStart b.cursor) sliceError
  modify (· ++ textToken b.trimNextText trimBefore text)
  let content ← expect (Utf8.slice source contentStart contentEnd) sliceError
  pushTag closeMarker (Unicode.trim content) b.cursor
  let cursor := closeStart + Utf8.len closeMarker
  pure (.again ⟨cursor, cursor, trimAfter⟩)

/-- One round of the loop of `tokenize_template`; `tokens` is the state. -/
def lexRound (b : LexCursors) :
    Exec (List TemplateToken) ChatTemplateError (RoundEnd LexCursors LexCursors) :=
  if b.cursor + 1 < Utf8.len source then
    match openingAt (Utf8.encode source) b.cursor with
    | some closeMarker => tagRound source b closeMarker
    | none => do
      let remaining ← expect (Utf8.sliceFrom source b.cursor) sliceError
      let length := (remaining.head?.map Char.utf8Size).getD 1
      pure (.again ⟨b.cursor + length, b.textStart, b.trimNextText⟩)
  else pure (.leave b)

/-- `tokenize_template`. -/
def tokenizeByCursor : Exec (List TemplateToken) ChatTemplateError (List TemplateToken) := do
  let b ← loopOn (fun b => Utf8.len source - b.cursor) (lexRound source) ⟨0, 0, false⟩
  let tail ← expect (Utf8.sliceFrom source b.textStart) sliceError
  modify (· ++ textToken b.trimNextText false tail)
  self

end lexer

/-! ## Quotes -/

/-- The quote that is open behind a character, and whether the next one is escaped. -/
def quoteStep : Option Char × Bool → Char → Option Char × Bool
  | (quote, true), _ => (quote, false)
  | (some active, false), c =>
    if c = '\\' then (some active, true) else if c = active then (none, false) else (some active, false)
  | (none, false), c => if c = '\'' ∨ c = '"' then (some c, false) else (none, false)

/-- No quote is open at the end of a text. -/
def Balanced (s : List Char) : Prop := s.foldl quoteStep (none, false) = (none, false)

instance (s : List Char) : Decidable (Balanced s) :=
  inferInstanceAs (Decidable (s.foldl quoteStep (none, false) = (none, false)))

/-- The marker behind `inside` is the first outside quotes. -/
def FirstOutsideQuotes (marker inside after : List Char) : Prop :=
  Balanced inside ∧ ∀ front back, inside = front ++ back → back ≠ [] → Balanced front →
    ¬marker <+: back ++ marker ++ after

/-! ## Tags -/

inductive TagKind where
  | output
  | statement
  | comment
deriving DecidableEq

namespace TagKind

def opening : TagKind → List Char
  | .output => ['{', '{']
  | .statement => ['{', '%']
  | .comment => ['{', '#']

def closing : TagKind → List Char
  | .output => ['}', '}']
  | .statement => ['%', '}']
  | .comment => ['#', '}']

/-- The token of a tag, of which there is none for a comment. -/
def tokens : TagKind → List Char → List TemplateToken
  | .output, body => [.expression body]
  | .statement, body => [.statement body]
  | .comment, _ => []

end TagKind

/-- The text between the markers of a tag, without a dash in front. -/
def innerOf (inside : List Char) : List Char :=
  if inside.head? = some '-' then inside.tail else inside

def bodyOf (inside : List Char) : List Char :=
  Unicode.trim (if (innerOf inside).getLast? = some '-' then (innerOf inside).dropLast
    else innerOf inside)

/-- A tag by the text between its markers.  Only a comment may be empty. -/
structure Tag where
  kind : TagKind
  inside : List Char
  filled : kind ≠ .comment → bodyOf inside ≠ []

namespace Tag

variable (t : Tag)

def source : List Char := t.kind.opening ++ t.inside ++ t.kind.closing

def trimBefore : Bool := t.inside.head? == some '-'

def trimAfter : Bool := (innerOf t.inside).getLast? == some '-'

def tokens : List TemplateToken := t.kind.tokens (bodyOf t.inside)

/-- A comment ends at the first `#}`, another tag at the first marker outside quotes. -/
def Closes (after : List Char) : Prop :=
  if t.kind = .comment then ¬t.kind.closing <:+: t.inside
  else FirstOutsideQuotes t.kind.closing t.inside after

end Tag

/-! ## The search -/

section search

variable {σ ε : Type} {marker : List Char}

/-- Where the search finds the marker: outside quotes, and not at a quote. -/
def StopsAt (marker : List Char) (state : Option Char × Bool) (c : Char) (rest : List Char) : Prop :=
  state = (none, false) ∧ ¬(c = '\'' ∨ c = '"') ∧ marker.isPrefixOf (c :: rest) = true

instance (state : Option Char × Bool) (c : Char) (rest : List Char) :
    Decidable (StopsAt marker state c rest) :=
  inferInstanceAs (Decidable (_ ∧ _ ∧ _))

theorem findTagEnd_cons (marker : List Char) (state : Option Char × Bool) (c : Char)
    (rest : List Char) :
    findTagEnd marker state.1 state.2 (c :: rest) =
      if StopsAt marker state c rest then some ([], (c :: rest).drop marker.length)
      else (findTagEnd marker (quoteStep state c).1 (quoteStep state c).2 rest).map
        fun parts => (c :: parts.1, parts.2) := by
  obtain ⟨quote | active, _ | _⟩ := state
  · by_cases hquote : c = '\'' ∨ c = '"'
    · rw [findTagEnd, if_pos hquote, if_neg fun h => h.2.1 hquote, quoteStep, if_pos hquote]
    · rw [findTagEnd, if_neg hquote, quoteStep, if_neg hquote]
      by_cases hmarker : marker.isPrefixOf (c :: rest) = true
      · rw [if_pos hmarker, if_pos ⟨rfl, hquote, hmarker⟩]
      · rw [if_neg hmarker, if_neg fun h => hmarker h.2.2]
  · rw [findTagEnd, if_neg fun h => by cases h.1]
    rfl
  · have hopen : ¬StopsAt marker (some active, false) c rest := fun h => by cases h.1
    rw [findTagEnd, if_neg hopen, quoteStep]
    split
    · rfl
    · split <;> rfl
  · rw [findTagEnd, if_neg fun h => by cases h.1]
    rfl

theorem TagSearch.round_eq (b : TagSearch) (marker : List Char) (c : Char) (rest : List Char) :
    b.round (marker.isPrefixOf (c :: rest)) c =
      if StopsAt marker (b.quote, b.escaped) c rest then .leave (some b.cursor)
      else .again ⟨(quoteStep (b.quote, b.escaped) c).1, (quoteStep (b.quote, b.escaped) c).2,
        b.cursor + c.utf8Size⟩ := by
  obtain ⟨quote | active, _ | _, cursor⟩ := b
  · by_cases hquote : c = '\'' ∨ c = '"'
    · have hnot : ¬StopsAt marker (none, false) c rest := fun h => h.2.1 hquote
      rw [TagSearch.round, if_neg Bool.false_ne_true, if_neg hnot, quoteStep, if_pos hquote]
      dsimp only
      rw [if_pos hquote]
    · rw [TagSearch.round, if_neg Bool.false_ne_true, quoteStep, if_neg hquote]
      dsimp only
      rw [if_neg hquote]
      by_cases hmarker : marker.isPrefixOf (c :: rest) = true
      · rw [if_pos hmarker, if_pos ⟨rfl, hquote, hmarker⟩]
      · rw [if_neg hmarker, if_neg fun h => hmarker h.2.2]
  · rw [if_neg fun h => by cases h.1]
    rfl
  · rw [if_neg fun h => by cases h.1]
    unfold TagSearch.round quoteStep
    dsimp only
    rw [if_neg Bool.false_ne_true]
    split
    · rfl
    · split <;> rfl
  · rw [if_neg fun h => by cases h.1]
    rfl

/-- The search stands between characters, and finds from there what it finds in all. -/
def Searching (marker source : List Char) (s₀ : σ) (b : TagSearch) (s : σ) : Prop :=
  s = s₀ ∧ ∃ front rest, source = front ++ rest ∧ b.cursor = Utf8.len front ∧
    (findTagEnd marker none false source).map (fun parts => Utf8.len parts.1) =
      (findTagEnd marker b.quote b.escaped rest).map fun parts => b.cursor + Utf8.len parts.1

theorem findTagEndRound_ok (source : List Char) (s₀ : σ) (b : TagSearch) (s : σ)
    (h : Searching marker source s₀ b s) :
    RoundOk (fun b _ => Utf8.len source - b.cursor) (Searching marker source s₀)
      (fun o s => o = .ok ((findTagEnd marker none false source).map fun parts => Utf8.len parts.1) ∧
        s = s₀)
      (Utf8.len source - b.cursor) (findTagEndRound (ε := ε) source marker b s) := by
  obtain ⟨rfl, front, rest, hsource, hcursor, hfound⟩ := h
  have hlen : Utf8.len source = b.cursor + Utf8.len rest := by rw [hsource, Utf8.len_append, hcursor]
  unfold findTagEndRound
  split
  next hlt =>
    have hslice : Utf8.sliceFrom source b.cursor = some rest := by
      rw [hsource, hcursor, Utf8.sliceFrom_append]
    have hne : rest ≠ [] := Utf8.len_pos.mp (by omega)
    obtain ⟨c, rest, rfl⟩ := List.exists_cons_of_ne_nil hne
    rw [hslice, expect_bind_run]
    dsimp only
    rw [b.round_eq]
    rw [findTagEnd_cons marker (b.quote, b.escaped)] at hfound
    split
    next hstops =>
      rw [if_pos hstops, Option.map_some] at hfound
      exact ⟨congrArg Outcome.ok hfound.symm, rfl⟩
    next hstops =>
      rw [if_neg hstops, Option.map_map] at hfound
      have hc := c.utf8Size_pos
      rw [Utf8.len_cons] at hlen
      refine ⟨⟨rfl, front ++ [c], rest, ?_, ?_, ?_⟩, ?_⟩
      · rw [hsource, List.append_assoc, List.singleton_append]
      · show b.cursor + c.utf8Size = _
        rw [Utf8.len_append, Utf8.len_cons, hcursor]
        rfl
      · rw [hfound]
        congr 1
        funext parts
        show b.cursor + Utf8.len (c :: parts.1) = b.cursor + c.utf8Size + Utf8.len parts.1
        rw [Utf8.len_cons, Nat.add_assoc]
      · show Utf8.len source - (b.cursor + c.utf8Size) < Utf8.len source - b.cursor
        omega
  next hge =>
    have hnil : rest = [] := by
      by_contra hne
      have := Utf8.len_pos.mpr hne
      omega
    rw [hnil] at hfound
    refine ⟨?_, rfl⟩
    rw [hfound]
    obtain ⟨quote | active, _ | _, cursor⟩ := b <;> rfl

theorem findTagEndAt_run (source marker : List Char) (s : σ) :
    (findTagEndAt source marker : Exec σ ε (Option Nat)) s =
      (.ok ((findTagEnd marker none false source).map fun parts => Utf8.len parts.1), s) := by
  have hstart : Searching marker source s ⟨none, false, 0⟩ s := by
    refine ⟨rfl, [], source, rfl, rfl, ?_⟩
    congr 1
    funext parts
    exact (Nat.zero_add _).symm
  have hloop := loopOn_rule (findTagEndRound_ok (ε := ε) source s) hstart
  exact Prod.ext hloop.1 hloop.2

end search

/-! ### The first marker -/

/-- Outside quotes, the marker stands nowhere before the end of a text. -/
def FirstFrom (marker : List Char) (state : Option Char × Bool) (inside after : List Char) : Prop :=
  ∀ front back, inside = front ++ back → back ≠ [] →
    front.foldl quoteStep state = (none, false) → ¬marker <+: back ++ marker ++ after

section first

variable {marker inside after rest : List Char} {state : Option Char × Bool} {c : Char}

theorem firstFrom_nil : FirstFrom marker state [] after := fun _ _ hnil hback =>
  absurd (List.append_eq_nil_iff.mp hnil.symm).2 hback

theorem firstFrom_cons : FirstFrom marker state (c :: inside) after ↔
    (state = (none, false) → ¬marker <+: c :: inside ++ marker ++ after) ∧
      FirstFrom marker (quoteStep state c) inside after := by
  constructor
  · intro h
    refine ⟨fun hstate => h [] (c :: inside) rfl (List.cons_ne_nil _ _) hstate, ?_⟩
    intro front back hsplit hback hfront
    exact h (c :: front) back (by rw [hsplit]; rfl) hback hfront
  · rintro ⟨hhead, htail⟩ front back hsplit hback hfront
    cases front with
    | nil =>
      rw [← hsplit.trans (List.nil_append back)]
      exact hhead hfront
    | cons d front =>
      obtain ⟨rfl, hinside⟩ := List.cons.inj hsplit
      exact htail front back hinside hback hfront

theorem stopsAt_iff (hmarker : ∃ c m, marker = c :: m ∧ ¬(c = '\'' ∨ c = '"')) :
    StopsAt marker state c rest ↔ state = (none, false) ∧ marker <+: c :: rest := by
  constructor
  · exact fun h => ⟨h.1, List.isPrefixOf_iff_prefix.mp h.2.2⟩
  · rintro ⟨hstate, hstands⟩
    refine ⟨hstate, ?_, List.isPrefixOf_iff_prefix.mpr hstands⟩
    obtain ⟨m₀, m, rfl, hquote⟩ := hmarker
    rwa [← (List.cons_prefix_cons.mp hstands).1]

end first

/-- The search finds the first marker outside quotes. -/
theorem findTagEnd_eq_some_iff {marker : List Char} (hmarker : ∃ c m, marker = c :: m ∧ ¬(c = '\'' ∨ c = '"'))
    {state : Option Char × Bool} {s inside after : List Char} :
    findTagEnd marker state.1 state.2 s = some (inside, after) ↔
      s = inside ++ marker ++ after ∧ inside.foldl quoteStep state = (none, false) ∧
        FirstFrom marker state inside after := by
  induction s generalizing state inside with
  | nil =>
    have hnone : findTagEnd marker state.1 state.2 [] = none := by
      obtain ⟨quote | active, _ | _⟩ := state <;> rfl
    rw [hnone]
    constructor
    · exact fun h => by cases h
    · rintro ⟨hnil, -⟩
      obtain ⟨m₀, m, hm, -⟩ := hmarker
      rw [hm, eq_comm, List.append_assoc, List.append_eq_nil_iff] at hnil
      exact absurd hnil.2 (List.cons_ne_nil _ _)
  | cons c rest ih =>
    rw [findTagEnd_cons]
    by_cases hstops : StopsAt marker state c rest
    · rw [if_pos hstops]
      obtain ⟨rfl, hstands⟩ := (stopsAt_iff hmarker).mp hstops
      constructor
      · intro h
        cases h
        exact ⟨(List.prefix_iff_eq_append.mp hstands).symm, rfl, firstFrom_nil⟩
      · rintro ⟨hs, -, hfirst⟩
        cases inside with
        | nil => rw [hs, List.nil_append, List.drop_left]
        | cons d inside =>
          rw [hs] at hstands
          exact absurd hstands ((firstFrom_cons.mp hfirst).1 rfl)
    · rw [if_neg hstops, Option.map_eq_some_iff]
      cases inside with
      | nil =>
        constructor
        · rintro ⟨parts, -, heq⟩
          cases heq
        · rintro ⟨hs, hopen, -⟩
          refine absurd ((stopsAt_iff hmarker).mpr ⟨hopen, ?_⟩) hstops
          rw [hs]
          exact List.prefix_append marker after
      | cons d inside =>
        constructor
        · rintro ⟨⟨inside', after'⟩, hfound, heq⟩
          cases heq
          obtain ⟨rfl, hopen, hfirst⟩ := ih.mp hfound
          refine ⟨rfl, hopen, firstFrom_cons.mpr ⟨fun hstate hstands => ?_, hfirst⟩⟩
          exact hstops ((stopsAt_iff hmarker).mpr ⟨hstate, hstands⟩)
        · rintro ⟨hs, hopen, hfirst⟩
          obtain ⟨rfl, htail⟩ := List.cons.inj hs
          exact ⟨(inside, after), ih.mpr ⟨htail, hopen, (firstFrom_cons.mp hfirst).2⟩, rfl⟩

/-! ## The markers -/

namespace TagKind

theorem closing_head (kind : TagKind) : ∃ c m, kind.closing = c :: m ∧ ¬(c = '\'' ∨ c = '"') := by
  cases kind
  · exact ⟨'}', ['}'], rfl, by decide⟩
  · exact ⟨'%', ['}'], rfl, by decide⟩
  · exact ⟨'#', ['}'], rfl, by decide⟩

theorem closing_ne_dash (kind : TagKind) (s : List Char) : (kind.closing ++ s).head? ≠ some '-' := by
  cases kind <;> exact fun h => absurd (Option.some_inj.mp h) (by decide)

end TagKind

theorem closeMarker_eq (s : List Char) :
    closeMarker s = if ['{', '{'] <+: s then some ['}', '}']
      else if ['{', '%'] <+: s then some ['%', '}']
      else if ['{', '#'] <+: s then some ['#', '}'] else none := by
  unfold closeMarker
  split
  next => rw [if_pos ⟨_, rfl⟩]
  next => rw [if_neg (by simp), if_pos ⟨_, rfl⟩]
  next => rw [if_neg (by simp), if_neg (by simp), if_pos ⟨_, rfl⟩]
  next houtput hstatement hcomment =>
    rw [if_neg, if_neg, if_neg]
    · rintro ⟨content, rfl⟩
      exact hcomment content rfl
    · rintro ⟨content, rfl⟩
      exact hstatement content rfl
    · rintro ⟨content, rfl⟩
      exact houtput content rfl

theorem closeMarker_opening (kind : TagKind) (s : List Char) :
    closeMarker (kind.opening ++ s) = some kind.closing := by
  cases kind <;> rfl

theorem exists_kind {s marker : List Char} (h : closeMarker s = some marker) :
    ∃ kind content, s = TagKind.opening kind ++ content ∧ marker = kind.closing := by
  unfold closeMarker at h
  split at h
  · exact ⟨.output, _, rfl, (Option.some_inj.mp h).symm⟩
  · exact ⟨.statement, _, rfl, (Option.some_inj.mp h).symm⟩
  · exact ⟨.comment, _, rfl, (Option.some_inj.mp h).symm⟩
  · cases h

theorem openingAt_eq (front rest : List Char) :
    openingAt (Utf8.encode (front ++ rest)) (Utf8.len front) = closeMarker rest := by
  have htwo : ∀ p : List Char, Utf8.len p = 2 →
      ((((Utf8.encode (front ++ rest)).drop (Utf8.len front)).take 2 = Utf8.encode p) ↔ p <+: rest) := by
    intro p hp
    rw [Utf8.drop_encode_append, ← hp, Utf8.take_encode_iff]
  unfold openingAt
  dsimp only
  simp only [htwo ['{', '{'] rfl, htwo ['{', '%'] rfl, htwo ['{', '#'] rfl]
  exact (closeMarker_eq rest).symm

/-! ## The text between the markers -/

/-- The dash in front of a text, if there is one. -/
def dashIn (content : List Char) : List Char := if content.head? = some '-' then ['-'] else []

theorem dashIn_append_innerOf (content : List Char) : dashIn content ++ innerOf content = content := by
  unfold dashIn innerOf
  split
  next h =>
    obtain ⟨rest, rfl⟩ := List.head?_eq_some_iff.mp h
    rfl
  next => rfl

theorem findTagEnd_innerOf (kind : TagKind) (content : List Char) :
    findTagEnd kind.closing none false content =
      (findTagEnd kind.closing none false (innerOf content)).map
        fun parts => (dashIn content ++ parts.1, parts.2) := by
  unfold dashIn innerOf
  split
  next h =>
    obtain ⟨rest, rfl⟩ := List.head?_eq_some_iff.mp h
    have hnot : ¬StopsAt kind.closing (none, false) '-' rest := by
      rintro ⟨-, -, hstands⟩
      obtain ⟨more, hmore⟩ := List.isPrefixOf_iff_prefix.mp hstands
      exact kind.closing_ne_dash more (by rw [hmore]; rfl)
    rw [findTagEnd_cons kind.closing (none, false), if_neg hnot]
    rfl
  next =>
    cases findTagEnd kind.closing none false content <;> rfl

theorem firstOutsideQuotes_iff {kind : TagKind} {content inside after : List Char} :
    findTagEnd kind.closing none false content = some (inside, after) ↔
      content = inside ++ kind.closing ++ after ∧ FirstOutsideQuotes kind.closing inside after :=
  @findTagEnd_eq_some_iff _ kind.closing_head (none, false) content inside after

theorem head_inside (kind : TagKind) (inside after : List Char) :
    (inside ++ kind.closing ++ after).head? = some '-' ↔ inside.head? = some '-' := by
  cases inside with
  | nil =>
    rw [List.nil_append]
    exact ⟨fun h => absurd h (kind.closing_ne_dash after), fun h => by cases h⟩
  | cons c inside => exact Iff.rfl

/-- What the search finds behind the dash, by the text between the markers. -/
theorem findTagEnd_inside {kind : TagKind} {content inside after : List Char}
    (h : findTagEnd kind.closing none false content = some (inside, after)) :
    findTagEnd kind.closing none false (innerOf content) = some (innerOf inside, after) ∧
      dashIn content = dashIn inside ∧ content = inside ++ kind.closing ++ after := by
  have hcontent := (firstOutsideQuotes_iff.mp h).1
  have hhead := head_inside kind inside after
  rw [← hcontent] at hhead
  have hdash : dashIn content = dashIn inside := by
    unfold dashIn
    rw [if_congr hhead rfl rfl]
  rw [findTagEnd_innerOf, Option.map_eq_some_iff] at h
  obtain ⟨⟨inner, after'⟩, hfound, heq⟩ := h
  obtain ⟨hinside, hafter⟩ := Prod.mk.inj heq
  have hsplit := dashIn_append_innerOf inside
  rw [← hdash] at hsplit
  have hinner : innerOf inside = inner := List.append_cancel_left (hsplit.trans hinside.symm)
  rw [hfound, hinner]
  exact ⟨congrArg (fun rest => some (inner, rest)) hafter, hdash, hcontent⟩

theorem findTagEnd_innerOf_eq_none {kind : TagKind} {content : List Char}
    (h : findTagEnd kind.closing none false content = none) :
    findTagEnd kind.closing none false (innerOf content) = none := by
  rwa [findTagEnd_innerOf, Option.map_eq_none_iff] at h

/-- The text between the markers without the dashes. -/
theorem exists_cut (inner : List Char) : ∃ cut,
    (if inner.getLast? = some '-' then inner.dropLast else inner) = cut ∧
      inner = cut ++ (if inner.getLast? = some '-' then ['-'] else []) ∧
      ∀ start, (if inner.getLast? == some '-' then start + Utf8.len inner - 1
        else start + Utf8.len inner) = start + Utf8.len cut := by
  by_cases hlast : inner.getLast? = some '-'
  · obtain ⟨cut, rfl⟩ := List.getLast?_eq_some_iff.mp hlast
    have hdash : Utf8.len ['-'] = 1 := rfl
    rw [if_pos hlast, if_pos hlast, List.dropLast_concat, hlast]
    refine ⟨cut, rfl, rfl, fun start => ?_⟩
    rw [if_pos (beq_self_eq_true _), Utf8.len_append, hdash]
    omega
  · rw [if_neg hlast, if_neg hlast]
    refine ⟨inner, rfl, (List.append_nil inner).symm, fun start => ?_⟩
    rw [if_neg (by rwa [beq_iff_eq])]

/-- A tag is the text of its token between delimiters: a marker, a dash where there is one,
and white space. -/
theorem Tag.source_eq (t : Tag) : ∃ front back,
    t.source = t.kind.opening ++ (if t.trimBefore then ['-'] else []) ++ front ++ bodyOf t.inside ++
        back ++ (if t.trimAfter then ['-'] else []) ++ t.kind.closing ∧
      (∀ c ∈ front, Unicode.isWhitespace c = true) ∧ ∀ c ∈ back, Unicode.isWhitespace c = true := by
  obtain ⟨cut, hcut, hinner, -⟩ := exists_cut (innerOf t.inside)
  obtain ⟨front, back, hsplit, hfront, hback⟩ := Unicode.exists_trim cut
  have hinside := dashIn_append_innerOf t.inside
  have hbody : Unicode.trim cut = bodyOf t.inside := by rw [bodyOf, hcut]
  rw [hbody] at hsplit
  rw [hinner, hsplit, dashIn] at hinside
  refine ⟨front, back, ?_, hfront, hback⟩
  simp only [Tag.trimBefore, Tag.trimAfter, beq_iff_eq]
  refine (congrArg (fun s => t.kind.opening ++ s ++ t.kind.closing) hinside).symm.trans ?_
  simp only [List.append_assoc]

/-! ## A round -/

/-- The cursors stand between characters: `text` is what has come since the last tag. -/
def At (source : List Char) (b : LexCursors) (text rest : List Char) : Prop :=
  ∃ front, source = front ++ text ++ rest ∧ b.textStart = Utf8.len front ∧
    b.cursor = Utf8.len front + Utf8.len text

theorem at_start (source : List Char) : At source ⟨0, 0, false⟩ [] source := ⟨[], rfl, rfl, rfl⟩

theorem trimsAfterAt_run {σ ε : Type} (front inner rest : List Char) (s : σ) :
    (trimsAfterAt (Utf8.encode (front ++ inner ++ rest)) (Utf8.len front)
        (Utf8.len front + Utf8.len inner) : Exec σ ε Bool) s =
      (.ok (inner.getLast? == some '-'), s) := by
  unfold trimsAfterAt
  by_cases hnil : inner = []
  · rw [hnil, if_neg (by show ¬Utf8.len front < Utf8.len front + 0; omega)]
    rfl
  · have hpos := Utf8.len_pos.mpr hnil
    have hlast : (Utf8.encode (front ++ inner ++ rest))[Utf8.len front + Utf8.len inner - 1]? =
        (Utf8.encode inner)[Utf8.len inner - 1]? := by
      rw [List.append_assoc, Nat.add_sub_assoc hpos, Utf8.getElem_encode_append, Utf8.encode_append,
        List.getElem?_append_left (by rw [← Utf8.len]; omega)]
    have hdash := Utf8.last_encode_iff (c := '-') (by decide) hnil
    rw [if_pos (by omega), hlast, expect_bind_run]
    have hlt : Utf8.len inner - 1 < (Utf8.encode inner).length := by
      rw [← Utf8.len]
      omega
    rw [List.getElem?_eq_getElem hlt] at hdash ⊢
    refine congrArg (fun trim => (Outcome.ok trim, s)) ?_
    rw [Bool.eq_iff_iff, beq_iff_eq, beq_iff_eq, ← hdash, Option.some_inj, dash]

theorem pushTag_run {kind : TagKind} {body : List Char} (h : kind ≠ .comment → body ≠ [])
    (cursor : Nat) (tokens : List TemplateToken) :
    pushTag kind.closing body cursor tokens = (.ok (), tokens ++ kind.tokens body) := by
  cases kind with
  | comment => exact congrArg (Prod.mk _) (List.append_nil tokens).symm
  | output =>
    show pushTag ['}', '}'] body cursor tokens = _
    rw [pushTag, if_neg (by decide), if_neg (h (by decide)), if_pos rfl]
    rfl
  | statement =>
    show pushTag ['%', '}'] body cursor tokens = _
    rw [pushTag, if_neg (by decide), if_neg (h (by decide)), if_neg (by decide), if_pos rfl]
    rfl

theorem pushTag_empty {kind : TagKind} (hkind : kind ≠ .comment) (cursor : Nat)
    (tokens : List TemplateToken) :
    pushTag kind.closing [] cursor tokens =
      (.err (.parse s!"empty template tag at byte {cursor}"), tokens) := by
  unfold pushTag
  rw [if_neg (by cases kind <;> first | exact absurd rfl hkind | decide), if_pos rfl]
  rfl

variable {source text content rest : List Char} {b : LexCursors} {kind : TagKind}
  {inside after : List Char} {tokens : List TemplateToken}

theorem At.slice (h : At source b text rest) : Utf8.slice source b.textStart b.cursor = some text := by
  obtain ⟨front, hsource, hstart, hcursor⟩ := h
  rw [hsource, hstart, hcursor, Utf8.slice_append]

/-- The cursor is behind the opening and the dash. -/
theorem tagRound_content (h : At source b text (kind.opening ++ content)) :
    ((Utf8.encode source)[b.cursor + 2]? == some dash) = (content.head? == some '-') ∧
    (if content.head? == some '-' then b.cursor + 3 else b.cursor + 2) =
      b.cursor + 2 + Utf8.len (dashIn content) ∧
    ∃ front, source = front ++ innerOf content ∧
      b.cursor + 2 + Utf8.len (dashIn content) = Utf8.len front := by
  obtain ⟨front, hsource, -, hcursor⟩ := h
  have htwo : Utf8.len kind.opening = 2 := by cases kind <;> rfl
  have hopen : b.cursor + 2 = Utf8.len (front ++ text ++ kind.opening) := by
    rw [Utf8.len_append, Utf8.len_append, htwo, hcursor]
  rw [← List.append_assoc] at hsource
  have hbyte : (Utf8.encode source)[b.cursor + 2]? = (Utf8.encode content)[0]? := by
    rw [hsource, hopen]
    exact Utf8.getElem_encode_append _ _ 0
  have hdash := Utf8.head_encode_iff (c := '-') (s := content) (by decide)
  refine ⟨?_, ?_, front ++ text ++ kind.opening ++ dashIn content, ?_, ?_⟩
  · rw [hbyte, Bool.eq_iff_iff, beq_iff_eq, beq_iff_eq]
    exact hdash
  · unfold dashIn
    by_cases hhead : content.head? = some '-'
    · rw [hhead]
      rfl
    · rw [if_neg hhead, if_neg (by rwa [beq_iff_eq])]
      rfl
  · rw [hsource, List.append_assoc _ (dashIn content), dashIn_append_innerOf]
  · rw [Utf8.len_append _ (dashIn content), hopen]

theorem tagRound_unterminated (h : At source b text (kind.opening ++ content))
    (hfound : findTagEnd kind.closing none false content = none) :
    tagRound source b kind.closing tokens =
      (.err (.parse s!"unterminated template tag at byte {b.cursor}"), tokens) := by
  obtain ⟨hbyte, hstart, front, hsource, hfront⟩ := tagRound_content h
  unfold tagRound
  dsimp only
  rw [hbyte, hstart, hsource, hfront, Utf8.sliceFrom_append, expect_bind_run]
  dsimp only
  rw [bind_of_ok (findTagEndAt_run _ _ tokens), findTagEnd_innerOf_eq_none hfound, Option.map_none,
    okOr_bind_run]

/-- What a round does at a tag that ends, up to its token. -/
theorem tagRound_closed (h : At source b text (kind.opening ++ content))
    (hfound : findTagEnd kind.closing none false content = some (inside, after)) :
    tagRound source b kind.closing tokens =
      (pushTag kind.closing (bodyOf inside) b.cursor >>= fun _ =>
        pure (RoundEnd.again ⟨b.cursor + Utf8.len (kind.opening ++ inside ++ kind.closing),
          b.cursor + Utf8.len (kind.opening ++ inside ++ kind.closing),
          (innerOf inside).getLast? == some '-'⟩))
      (tokens ++ textToken b.trimNextText (inside.head? == some '-') text) := by
  obtain ⟨hinner, hdash, hcontent⟩ := findTagEnd_inside hfound
  obtain ⟨hbyte, hstart, front, hsource, hfront⟩ := tagRound_content h
  have hrest := (firstOutsideQuotes_iff.mp hinner).1
  obtain ⟨cut, hcut, hback, hend⟩ := exists_cut (innerOf inside)
  have hslice : Utf8.slice source (Utf8.len front) (Utf8.len front + Utf8.len cut) = some cut := by
    rw [hsource, hrest, hback, List.append_assoc, List.append_assoc, ← List.append_assoc front]
    exact Utf8.slice_append front cut _
  have hlast : (trimsAfterAt (Utf8.encode source) (Utf8.len front)
      (Utf8.len front + Utf8.len (innerOf inside)) : Exec (List TemplateToken) ChatTemplateError Bool)
      tokens = (.ok ((innerOf inside).getLast? == some '-'), tokens) := by
    rw [hsource, hrest, List.append_assoc, ← List.append_assoc front]
    exact trimsAfterAt_run front (innerOf inside) _ tokens
  unfold tagRound
  dsimp only
  rw [hbyte, hstart, hfront]
  rw [show Utf8.sliceFrom source (Utf8.len front) = some (innerOf content) by
    rw [hsource, Utf8.sliceFrom_append], expect_bind_run]
  dsimp only
  rw [bind_of_ok (findTagEndAt_run _ _ tokens), hinner, Option.map_some, okOr_bind_run]
  dsimp only
  rw [bind_of_ok hlast, h.slice, expect_bind_run]
  dsimp only
  rw [modify_bind_run, hend, hslice, expect_bind_run]
  have hhead : (content.head? == some '-') = (inside.head? == some '-') := by
    rw [Bool.eq_iff_iff, beq_iff_eq, beq_iff_eq, hcontent]
    exact head_inside kind inside after
  have hcursor : Utf8.len front + Utf8.len (innerOf inside) + Utf8.len kind.closing =
      b.cursor + Utf8.len (kind.opening ++ inside ++ kind.closing) := by
    have htwo : Utf8.len kind.opening = 2 := by cases kind <;> rfl
    have hinside := congrArg Utf8.len (dashIn_append_innerOf inside)
    rw [Utf8.len_append, ← hdash] at hinside
    rw [Utf8.len_append, Utf8.len_append, htwo]
    omega
  dsimp only
  rw [hhead, hcursor, ← hcut]
  rfl

/-- The ways through a round, by what stands behind the cursor. -/
inductive RoundStep (b : LexCursors) (text : List Char) (tokens : List TemplateToken) : List Char →
    Outcome ChatTemplateError (RoundEnd LexCursors LexCursors) × List TemplateToken → Prop where
  | leave (rest : List Char) (hend : Utf8.len rest ≤ 1) :
    RoundStep b text tokens rest (.ok (.leave b), tokens)
  | char (c : Char) (rest : List Char) (hplain : closeMarker (c :: rest) = none) :
    RoundStep b text tokens (c :: rest)
      (.ok (.again ⟨b.cursor + c.utf8Size, b.textStart, b.trimNextText⟩), tokens)
  | tag (tag : Tag) (after : List Char)
    (hfirst : FirstOutsideQuotes tag.kind.closing tag.inside after) :
    RoundStep b text tokens (tag.source ++ after)
      (.ok (.again ⟨b.cursor + Utf8.len tag.source, b.cursor + Utf8.len tag.source, tag.trimAfter⟩),
        tokens ++ textToken b.trimNextText tag.trimBefore text ++ tag.tokens)
  | unterminated (kind : TagKind) (content : List Char)
    (hfound : findTagEnd kind.closing none false content = none) :
    RoundStep b text tokens (kind.opening ++ content)
      (.err (.parse s!"unterminated template tag at byte {b.cursor}"), tokens)
  | empty (kind : TagKind) (inside after : List Char) (hkind : kind ≠ .comment)
    (hempty : bodyOf inside = []) (hfirst : FirstOutsideQuotes kind.closing inside after) :
    RoundStep b text tokens (kind.opening ++ (inside ++ kind.closing ++ after))
      (.err (.parse s!"empty template tag at byte {b.cursor}"),
        tokens ++ textToken b.trimNextText (inside.head? == some '-') text)

theorem tagRound_tag {tag : Tag} (h : At source b text (tag.source ++ after))
    (hfirst : FirstOutsideQuotes tag.kind.closing tag.inside after) :
    tagRound source b tag.kind.closing tokens =
      (.ok (.again ⟨b.cursor + Utf8.len tag.source, b.cursor + Utf8.len tag.source, tag.trimAfter⟩),
        tokens ++ textToken b.trimNextText tag.trimBefore text ++ tag.tokens) := by
  have hsource : tag.source ++ after =
      tag.kind.opening ++ (tag.inside ++ tag.kind.closing ++ after) := by
    simp only [Tag.source, List.append_assoc]
  rw [hsource] at h
  rw [tagRound_closed h (firstOutsideQuotes_iff.mpr ⟨rfl, hfirst⟩), bind_run,
    pushTag_run tag.filled]
  rfl

theorem tagRound_empty (h : At source b text (kind.opening ++ (inside ++ kind.closing ++ after)))
    (hkind : kind ≠ .comment) (hempty : bodyOf inside = [])
    (hfirst : FirstOutsideQuotes kind.closing inside after) :
    tagRound source b kind.closing tokens =
      (.err (.parse s!"empty template tag at byte {b.cursor}"),
        tokens ++ textToken b.trimNextText (inside.head? == some '-') text) := by
  rw [tagRound_closed h (firstOutsideQuotes_iff.mpr ⟨rfl, hfirst⟩), hempty, bind_run,
    pushTag_empty hkind]

theorem At.openingAt (h : At source b text rest) :
    ChatTemplate.openingAt (Utf8.encode source) b.cursor = closeMarker rest := by
  obtain ⟨front, hsource, -, hcursor⟩ := h
  rw [hsource, hcursor, ← Utf8.len_append, openingAt_eq]

theorem At.len (h : At source b text rest) : Utf8.len source = b.cursor + Utf8.len rest := by
  obtain ⟨front, hsource, -, hcursor⟩ := h
  rw [hsource, Utf8.len_append, Utf8.len_append, hcursor]

theorem lexRound_opening (h : At source b text (kind.opening ++ content)) :
    lexRound source b tokens = tagRound source b kind.closing tokens := by
  have hlen := h.len
  have htwo : Utf8.len kind.opening = 2 := by cases kind <;> rfl
  rw [Utf8.len_append, htwo] at hlen
  rw [lexRound, if_pos (by omega), h.openingAt, closeMarker_opening]

theorem lexRound_tag {tag : Tag} (h : At source b text (tag.source ++ after))
    (hfirst : FirstOutsideQuotes tag.kind.closing tag.inside after) :
    lexRound source b tokens =
      (.ok (.again ⟨b.cursor + Utf8.len tag.source, b.cursor + Utf8.len tag.source, tag.trimAfter⟩),
        tokens ++ textToken b.trimNextText tag.trimBefore text ++ tag.tokens) := by
  have hopening := h
  rw [Tag.source, List.append_assoc, List.append_assoc] at hopening
  rw [lexRound_opening hopening, tagRound_tag h hfirst]

theorem lexRound_char {c : Char} (h : At source b text (c :: rest))
    (hlen : 1 < Utf8.len (c :: rest)) (hplain : closeMarker (c :: rest) = none) :
    lexRound source b tokens =
      (.ok (.again ⟨b.cursor + c.utf8Size, b.textStart, b.trimNextText⟩), tokens) := by
  have htotal := h.len
  rw [lexRound, if_pos (by omega), h.openingAt, hplain]
  obtain ⟨front, hsource, -, hcursor⟩ := h
  dsimp only
  rw [hsource, hcursor, ← Utf8.len_append, Utf8.sliceFrom_append, expect_bind_run]
  rfl

theorem lexRound_step (h : At source b text rest) (tokens : List TemplateToken) :
    RoundStep b text tokens rest (lexRound source b tokens) := by
  by_cases hend : Utf8.len rest ≤ 1
  · have htotal := h.len
    rw [lexRound, if_neg (by omega)]
    exact .leave rest hend
  · cases hclose : closeMarker rest with
    | none =>
      cases rest with
      | nil => exact absurd (Nat.zero_le 1) hend
      | cons c rest =>
        rw [lexRound_char h (by omega) hclose]
        exact .char c rest hclose
    | some marker =>
      obtain ⟨kind, content, rfl, rfl⟩ := exists_kind hclose
      rw [lexRound_opening h]
      cases hfound : findTagEnd kind.closing none false content with
      | none =>
        rw [tagRound_unterminated h hfound]
        exact .unterminated kind content hfound
      | some found =>
        obtain ⟨inside, after⟩ := found
        obtain ⟨rfl, hfirst⟩ := firstOutsideQuotes_iff.mp hfound
        by_cases hempty : kind ≠ .comment ∧ bodyOf inside = []
        · rw [tagRound_empty h hempty.1 hempty.2 hfirst]
          exact .empty kind inside after hempty.1 hempty.2 hfirst
        · let tag : Tag := ⟨kind, inside, fun hkind hnil => hempty ⟨hkind, hnil⟩⟩
          have hsource : kind.opening ++ (inside ++ kind.closing ++ after) = tag.source ++ after := by
            simp only [Tag.source, List.append_assoc, tag]
          rw [hsource] at h ⊢
          rw [tagRound_tag h hfirst]
          exact .tag tag after hfirst

theorem At.snoc {c : Char} (h : At source b text (c :: rest)) :
    At source ⟨b.cursor + c.utf8Size, b.textStart, b.trimNextText⟩ (text ++ [c]) rest := by
  obtain ⟨front, hsource, hstart, hcursor⟩ := h
  refine ⟨front, ?_, hstart, ?_⟩
  · rw [hsource, ← List.append_assoc front text [c], List.append_assoc _ [c], List.singleton_append]
  · show b.cursor + c.utf8Size = _
    rw [hcursor, Utf8.len_append, Utf8.len_cons]
    exact Nat.add_assoc _ _ _

theorem At.behind {front : List Char} (h : At source b text (front ++ rest)) (trimAfter : Bool) :
    At source ⟨b.cursor + Utf8.len front, b.cursor + Utf8.len front, trimAfter⟩ [] rest := by
  obtain ⟨before, hsource, -, hcursor⟩ := h
  have hlen : b.cursor + Utf8.len front = Utf8.len (before ++ text ++ front) := by
    rw [Utf8.len_append, Utf8.len_append, hcursor]
  exact ⟨before ++ text ++ front, by rw [hsource, List.append_nil, List.append_assoc _ front], hlen, hlen⟩

/-! ## The two lexers agree -/

theorem utf8Length_eq (s : List Char) : utf8Length s = Utf8.len s := by
  induction s with
  | nil => rfl
  | cons c s ih =>
    rw [Utf8.len_cons, ← ih, utf8Length, List.map_cons, List.sum_cons, utf8Length]

theorem closeMarker_short {s : List Char} (h : Utf8.len s ≤ 1) : closeMarker s = none := by
  obtain rfl | ⟨c, rfl⟩ := Utf8.eq_nil_or_singleton h
  · rfl
  · unfold closeMarker
    split
    next heq => cases heq
    next heq => cases heq
    next heq => cases heq
    next => rfl

section agree

variable {fuel cursor : Nat} {trimNextText : Bool}

theorem tokenizeFrom_char {c : Char} (hplain : closeMarker (c :: rest) = none) :
    tokenizeFrom (fuel + 1) cursor trimNextText text (c :: rest) =
      tokenizeFrom fuel (cursor + c.utf8Size) trimNextText (text ++ [c]) rest := by
  rw [tokenizeFrom, hplain]

theorem tokenizeFrom_short (hfuel : rest.length < fuel) (hend : Utf8.len rest ≤ 1) :
    tokenizeFrom fuel cursor trimNextText text rest = .ok (textToken trimNextText false (text ++ rest)) := by
  obtain ⟨fuel, rfl⟩ : ∃ m, fuel = m + 1 := ⟨fuel - 1, by omega⟩
  obtain rfl | ⟨c, rfl⟩ := Utf8.eq_nil_or_singleton hend
  · rw [List.append_nil]
    rfl
  · rw [List.length_singleton] at hfuel
    obtain ⟨fuel, rfl⟩ : ∃ m, fuel = m + 1 := ⟨fuel - 1, by omega⟩
    rw [tokenizeFrom_char (closeMarker_short hend)]
    rfl

theorem drop_opening (kind : TagKind) (content : List Char) :
    (kind.opening ++ content).drop 2 = content := by
  cases kind <;> rfl

theorem drop_dash (content : List Char) :
    (if content.head? = some '-' then content.drop 1 else content) = innerOf content := by
  rw [innerOf, List.drop_one]

theorem trim_undashed (inside : List Char) :
    Unicode.trim (if (innerOf inside).getLast? = some '-' then (innerOf inside).dropLast
      else innerOf inside) = bodyOf inside := rfl

theorem tokenizeFrom_unterminated (hfound : findTagEnd kind.closing none false content = none) :
    tokenizeFrom (fuel + 1) cursor trimNextText text (kind.opening ++ content) =
      .error (.parse s!"unterminated template tag at byte {cursor}") := by
  simp only [tokenizeFrom, closeMarker_opening, drop_opening, drop_dash, findTagEnd_innerOf_eq_none hfound]
  rfl

theorem tokenizeFrom_empty (hkind : kind ≠ .comment) (hempty : bodyOf inside = [])
    (hfirst : FirstOutsideQuotes kind.closing inside after) :
    tokenizeFrom (fuel + 1) cursor trimNextText text
        (kind.opening ++ (inside ++ kind.closing ++ after)) =
      .error (.parse s!"empty template tag at byte {cursor}") := by
  have hinner := (findTagEnd_inside (firstOutsideQuotes_iff.mpr ⟨rfl, hfirst⟩)).1
  have hclosing : kind.closing ≠ ['#', '}'] := by
    cases kind
    · decide
    · decide
    · exact absurd rfl hkind
  simp only [tokenizeFrom, closeMarker_opening, drop_opening, drop_dash, hinner, trim_undashed]
  rw [if_neg hclosing, if_pos hempty]
  rfl

theorem tokenizeFrom_tag {tag : Tag} (hfirst : FirstOutsideQuotes tag.kind.closing tag.inside after) :
    tokenizeFrom (fuel + 1) cursor trimNextText text (tag.source ++ after) =
      (tokenizeFrom fuel (cursor + Utf8.len tag.source) tag.trimAfter [] after).map
        (textToken trimNextText tag.trimBefore text ++ tag.tokens ++ ·) := by
  have hsource : tag.source ++ after =
      tag.kind.opening ++ (tag.inside ++ tag.kind.closing ++ after) := by
    simp only [Tag.source, List.append_assoc]
  have hinner := (findTagEnd_inside (firstOutsideQuotes_iff.mpr ⟨rfl, hfirst⟩)).1
  have hlen : 2 + (if tag.inside.head? = some '-' then 1 else 0) + utf8Length (innerOf tag.inside) + 2 =
      Utf8.len tag.source := by
    have hopening : Utf8.len tag.kind.opening = 2 := by cases tag.kind <;> rfl
    have hclosing : Utf8.len tag.kind.closing = 2 := by cases tag.kind <;> rfl
    have hdash : Utf8.len (dashIn tag.inside) = if tag.inside.head? = some '-' then 1 else 0 := by
      unfold dashIn
      split <;> rfl
    have hinside := congrArg Utf8.len (dashIn_append_innerOf tag.inside)
    rw [Utf8.len_append, hdash] at hinside
    rw [Tag.source, Utf8.len_append, Utf8.len_append, hopening, hclosing, utf8Length_eq, ← hinside]
    omega
  have hbefore : decide (tag.inside.head? = some '-') = tag.trimBefore := by
    rw [Tag.trimBefore, Bool.eq_iff_iff, decide_eq_true_iff, beq_iff_eq]
  have hafter : decide ((innerOf tag.inside).getLast? = some '-') = tag.trimAfter := by
    rw [Tag.trimAfter, Bool.eq_iff_iff, decide_eq_true_iff, beq_iff_eq]
  simp only [hsource, tokenizeFrom, closeMarker_opening, drop_opening, drop_dash, hinner]
  simp only [head_inside, hlen, hbefore, hafter, trim_undashed]
  rw [Tag.tokens]
  have hfilled := tag.filled
  generalize tokenizeFrom fuel (cursor + Utf8.len tag.source) tag.trimAfter [] after = tokens
  generalize hkind : tag.kind = kind at hfilled ⊢
  cases kind with
  | output =>
    rw [if_neg (by decide), if_neg (hfilled (by decide)), if_pos (by decide)]
    cases tokens <;> rfl
  | statement =>
    rw [if_neg (by decide), if_neg (hfilled (by decide)), if_neg (by decide)]
    cases tokens <;> rfl
  | comment =>
    rw [if_pos (by decide)]
    cases tokens <;> rfl

end agree

/-- What is left to do at the cursors is the lexer in characters from there. -/
def Agrees (source : List Char) (b : LexCursors) (tokens : List TemplateToken) : Prop :=
  ∃ text rest fuel, At source b text rest ∧ rest.length < fuel ∧
    (tokenizeFrom fuel b.cursor b.trimNextText text rest).map (tokens ++ ·) =
      tokenizeFrom (source.length + 1) 0 false [] source

/-- How the loop ends when the lexer in characters ends with `result`. -/
def EndsWith (source : List Char) (result : Except ChatTemplateError (List TemplateToken))
    (o : Outcome ChatTemplateError LexCursors) (tokens : List TemplateToken) : Prop :=
  (∃ error, o = .err error ∧ result = .error error) ∨
    ∃ b front tail, o = .ok b ∧ source = front ++ tail ∧ b.textStart = Utf8.len front ∧
      result = .ok (tokens ++ textToken b.trimNextText false tail)

theorem lexRound_agrees (b : LexCursors) (tokens : List TemplateToken) (h : Agrees source b tokens) :
    RoundOk (fun b _ => Utf8.len source - b.cursor) (Agrees source)
      (EndsWith source (tokenizeFrom (source.length + 1) 0 false [] source))
      (Utf8.len source - b.cursor) (lexRound source b tokens) := by
  obtain ⟨text, rest, fuel, hat, hfuel, hresult⟩ := h
  have hlen := hat.len
  have hstep := lexRound_step hat tokens
  obtain ⟨fuel, rfl⟩ : ∃ m, fuel = m + 1 := ⟨fuel - 1, by omega⟩
  generalize lexRound source b tokens = result at hstep ⊢
  cases hstep with
  | leave _ hend =>
    rw [tokenizeFrom_short hfuel hend] at hresult
    obtain ⟨front, hsource, hstart, -⟩ := hat
    exact .inr ⟨b, front, text ++ rest, rfl, by rw [hsource, List.append_assoc], hstart, hresult.symm⟩
  | char c rest hplain =>
    rw [tokenizeFrom_char hplain] at hresult
    have hc := c.utf8Size_pos
    rw [Utf8.len_cons] at hlen
    rw [List.length_cons] at hfuel
    refine ⟨⟨text ++ [c], rest, fuel, hat.snoc, by omega, hresult⟩, ?_⟩
    show Utf8.len source - (b.cursor + c.utf8Size) < Utf8.len source - b.cursor
    omega
  | tag tag after hfirst =>
    rw [tokenizeFrom_tag hfirst] at hresult
    have hopening : 2 ≤ Utf8.len tag.source ∧ 2 ≤ tag.source.length := by
      rw [Tag.source, List.append_assoc, Utf8.len_append, List.length_append]
      cases tag.kind <;> exact ⟨Nat.le_add_right _ _, Nat.le_add_right _ _⟩
    rw [Utf8.len_append] at hlen
    rw [List.length_append] at hfuel
    refine ⟨⟨[], after, fuel, hat.behind tag.trimAfter, by omega, ?_⟩, ?_⟩
    · rw [← hresult]
      cases tokenizeFrom fuel (b.cursor + Utf8.len tag.source) tag.trimAfter [] after with
      | error => rfl
      | ok more => exact congrArg Except.ok (by simp only [List.append_assoc])
    · show Utf8.len source - (b.cursor + Utf8.len tag.source) < Utf8.len source - b.cursor
      omega
  | unterminated kind content hfound =>
    rw [tokenizeFrom_unterminated hfound] at hresult
    exact .inl ⟨_, rfl, hresult.symm⟩
  | empty kind inside after hkind hempty hfirst =>
    rw [tokenizeFrom_empty hkind hempty hfirst] at hresult
    exact .inl ⟨_, rfl, hresult.symm⟩

/-- The lexer in bytes ends as the lexer in characters does. -/
theorem tokenizeByCursor_run (source : List Char) :
    (tokenizeByCursor source []).1 =
      ((ofResult (tokenizeFrom (source.length + 1) 0 false [] source) :
        Exec Unit ChatTemplateError (List TemplateToken)) ()).1 := by
  have hagrees : Agrees source ⟨0, 0, false⟩ [] := by
    refine ⟨[], source, source.length + 1, at_start source, Nat.lt_succ_self _, ?_⟩
    cases tokenizeFrom (source.length + 1) 0 false [] source <;> rfl
  have hloop := loopOn_rule lexRound_agrees hagrees
  unfold tokenizeByCursor
  rw [bind_run]
  generalize loopOn (fun b => Utf8.len source - b.cursor) (lexRound source) ⟨0, 0, false⟩ [] = result
    at hloop
  obtain ⟨outcome, tokens⟩ := result
  obtain ⟨error, rfl, hresult⟩ | ⟨b, front, tail, rfl, hsource, hstart, hresult⟩ := hloop
  · rw [hresult]
    rfl
  · rw [hresult]
    dsimp only
    rw [hstart, hsource, Utf8.sliceFrom_append]
    rfl

end ChatTemplate
end Ramforge
