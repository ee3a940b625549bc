/-
Comments of chat templates.

Lexing keeps a source's text and skips a comment up to its first closing marker, unless
a comment leaves a quote open: then its end is hidden.
-/
import Ramforge.Core.TemplateLexing

namespace Ramforge

open Rust Rust.Exec

namespace ChatTemplate

/-! ## What lexing is for -/

/-- No tag opens in a text that is followed by more. -/
def Plain (text rest : List Char) : Prop :=
  ∀ front back, text = front ++ back → back ≠ [] → closeMarker (back ++ rest) = none

/-- The tokens of a source and the source they stand for: white space is gone from a text
only where a dash in the tag next to it says so, and from the padding in a tag. -/
inductive Emitted : Bool → List Char → List TemplateToken → Prop where
  | tail (trimNextText : Bool) (text : List Char) (hplain : Plain text []) :
    Emitted trimNextText text (textToken trimNextText false text)
  | tag (trimNextText : Bool) (text : List Char) (tag : Tag) (rest : List Char)
    (tokens : List TemplateToken) (hplain : Plain text (tag.source ++ rest)) (hcloses : tag.Closes rest)
    (h : Emitted tag.trimAfter rest tokens) :
    Emitted trimNextText (text ++ tag.source ++ rest)
      (textToken trimNextText tag.trimBefore text ++ tag.tokens ++ tokens)

/-- The cursors and tokens that the rounds over a source come to. -/
inductive Reached (source : List Char) : LexCursors → List TemplateToken → Prop where
  | start : Reached source ⟨0, 0, false⟩ []
  | round (b b' : LexCursors) (tokens tokens' : List TemplateToken) (h : Reached source b tokens)
    (hround : lexRound source b tokens = (.ok (.again b'), tokens')) : Reached source b' tokens'

/-- What is left of a source where lexing comes to, when a comment ends at its first `#}`. -/
inductive Remains (source : List Char) : List Char → Prop where
  | start : Remains source source
  | char (c : Char) (rest : List Char) (h : Remains source (c :: rest))
    (hplain : closeMarker (c :: rest) = none) : Remains source rest
  | tag (tag : Tag) (rest : List Char) (h : Remains source (tag.source ++ rest))
    (hcloses : tag.Closes rest) : Remains source rest

/-- Lexing ends without a panic, its tokens stand for the source, and the round at a
comment goes on right behind the first `#}`. -/
structure LexesFaithfully (source : List Char) : Prop where
  ends : ∀ message, (tokenizeByCursor source []).1 ≠ .panic message
  emits : ∀ tokens, (tokenizeByCursor source []).1 = .ok tokens → Emitted false source tokens
  comments : ∀ front (comment : Tag) after b tokens, source = front ++ comment.source ++ after →
    comment.kind = .comment → comment.Closes after → Reached source b tokens →
    b.cursor = Utf8.len front → ∃ text, Utf8.slice source b.textStart b.cursor = some text ∧
      lexRound source b tokens = (.ok (.again ⟨Utf8.len (front ++ comment.source),
        Utf8.len (front ++ comment.source), comment.trimAfter⟩),
        tokens ++ textToken b.trimNextText comment.trimBefore text)

/-- Every comment that lexing comes to leaves no quote open. -/
def QuietComments (source : List Char) : Prop :=
  ∀ (comment : Tag) after, comment.kind = .comment → Remains source (comment.source ++ after) →
    comment.Closes after → Balanced comment.inside

/-! ## The end of a comment -/

variable {source text rest after : List Char} {b : LexCursors} {tokens : List TemplateToken}

/-- The marker that ends a comment does not stand across the end of its text. -/
theorem not_closing_prefix {front back after : List Char}
    (h : ¬TagKind.comment.closing <:+: front ++ back) (hback : back ≠ []) :
    ¬TagKind.comment.closing <+: back ++ TagKind.comment.closing ++ after := by
  intro hstands
  cases back with
  | nil => exact hback rfl
  | cons c back =>
    obtain ⟨more, hmore⟩ := hstands
    obtain ⟨rfl, htail⟩ := List.cons.inj hmore
    cases back with
    | nil => exact absurd (List.cons.inj htail).1 (by decide)
    | cons d back =>
      obtain ⟨rfl, -⟩ := List.cons.inj htail
      exact h ⟨front, back, by rw [List.append_assoc]; rfl⟩

theorem firstOutsideQuotes_comment {inside : List Char} (after : List Char)
    (h : ¬TagKind.comment.closing <:+: inside) :
    FirstOutsideQuotes TagKind.comment.closing inside after ↔ Balanced inside := by
  constructor
  · exact fun hfirst => hfirst.1
  · intro hbalanced
    refine ⟨hbalanced, fun front back hsplit hback _ => ?_⟩
    rw [hsplit] at h
    exact not_closing_prefix h hback

theorem Tag.Closes.first {tag : Tag} {after : List Char} (h : tag.Closes after)
    (hquiet : tag.kind = .comment → Balanced tag.inside) :
    FirstOutsideQuotes tag.kind.closing tag.inside after := by
  unfold Tag.Closes at h
  split at h
  next hkind =>
    rw [hkind] at h ⊢
    exact (firstOutsideQuotes_comment after h).mpr (hquiet hkind)
  next => exact h

theorem plain_nil (rest : List Char) : Plain [] rest := fun _ _ hnil hne =>
  absurd (List.append_eq_nil_iff.mp hnil.symm).2 hne

theorem Plain.snoc {c : Char} (h : Plain text (c :: rest)) (hplain : closeMarker (c :: rest) = none) :
    Plain (text ++ [c]) rest :=
  Unicode.forall_back_snoc (P := fun s => closeMarker s = none) h hplain

theorem Plain.end (h : Plain text rest) (hend : Utf8.len rest ≤ 1) : Plain (text ++ rest) [] := by
  obtain rfl | ⟨c, rfl⟩ := Utf8.eq_nil_or_singleton hend
  · rwa [List.append_nil]
  · exact h.snoc (closeMarker_short hend)

/-- At the cursors all is as lexing should have it: what is left remains, and what is emitted
for it goes with the tokens so far. -/
def InStep (source : List Char) (b : LexCursors) (tokens : List TemplateToken) : Prop :=
  ∃ text rest, At source b text rest ∧ Remains source rest ∧ Plain text rest ∧
    ∀ more, Emitted b.trimNextText (text ++ rest) more → Emitted false source (tokens ++ more)

theorem inStep_start (source : List Char) : InStep source ⟨0, 0, false⟩ [] :=
  ⟨[], source, at_start source, .start, plain_nil source, fun _ h => h⟩

theorem QuietComments.closes {tag : Tag} (hquiet : QuietComments source)
    (hremains : Remains source (tag.source ++ after))
    (hfirst : FirstOutsideQuotes tag.kind.closing tag.inside after) : tag.Closes after := by
  unfold Tag.Closes
  split
  next hkind =>
    intro hinfix
    rw [hkind] at hfirst hinfix
    obtain ⟨inside, back, hinside, hnot⟩ := Unicode.exists_first_infix (by decide) hinfix
    let comment : Tag := ⟨.comment, inside, fun h => absurd rfl h⟩
    have hsource : tag.source ++ after =
        comment.source ++ (back ++ TagKind.comment.closing ++ after) := by
      rw [Tag.source, hkind, hinside]
      simp only [Tag.source, comment, List.append_assoc]
    have hclosed : comment.Closes (back ++ TagKind.comment.closing ++ after) := by
      unfold Tag.Closes
      rw [if_pos rfl]
      exact hnot
    rw [hsource] at hremains
    refine hfirst.2 inside (TagKind.comment.closing ++ back) ?_ ?_ ?_ ?_
    · rw [hinside, List.append_assoc]
    · exact fun h => absurd (List.append_eq_nil_iff.mp h).1 (by decide)
    · exact hquiet comment _ rfl hremains hclosed
    · rw [List.append_assoc, List.append_assoc]
      exact List.prefix_append _ _
  next => exact hfirst

theorem lexRound_inStep (hquiet : QuietComments source) (b : LexCursors) (tokens : List TemplateToken)
    (h : InStep source b tokens) :
    RoundOk (fun b _ => Utf8.len source - b.cursor) (InStep source)
      (fun o tokens => ∀ b, o = .ok b → ∃ front tail, source = front ++ tail ∧
        b.textStart = Utf8.len front ∧
        Emitted false source (tokens ++ textToken b.trimNextText false tail))
      (Utf8.len source - b.cursor) (lexRound source b tokens) := by
  obtain ⟨text, rest, hat, hremains, hplain, hemitted⟩ := h
  have hlen := hat.len
  have hstep := lexRound_step hat tokens
  generalize lexRound source b tokens = result at hstep ⊢
  cases hstep with
  | leave _ hend =>
    obtain ⟨front, hsource, hstart, -⟩ := hat
    intro _ h
    cases h
    exact ⟨front, text ++ rest, by rw [hsource, List.append_assoc], hstart,
      hemitted _ (.tail _ _ (hplain.end hend))⟩
  | char c rest hchar =>
    have hc := c.utf8Size_pos
    rw [Utf8.len_cons] at hlen
    refine ⟨⟨text ++ [c], rest, hat.snoc, .char c rest hremains hchar, hplain.snoc hchar, ?_⟩, ?_⟩
    · intro more hmore
      rw [List.append_assoc, List.singleton_append] at hmore
      exact hemitted more hmore
    · show Utf8.len source - (b.cursor + c.utf8Size) < Utf8.len source - b.cursor
      omega
  | tag tag after hfirst =>
    have hcloses := hquiet.closes hremains hfirst
    have hpos : 0 < Utf8.len tag.source := by
      rw [Tag.source, List.append_assoc, Utf8.len_append]
      cases tag.kind <;> exact Nat.lt_of_lt_of_le (by decide) (Nat.le_add_right 2 _)
    rw [Utf8.len_append] at hlen
    refine ⟨⟨[], after, hat.behind tag.trimAfter, .tag tag after hremains hcloses, plain_nil after,
      ?_⟩, ?_⟩
    · intro more hmore
      have htag := Emitted.tag b.trimNextText text tag after more hplain hcloses hmore
      rw [List.append_assoc] at htag
      have hall := hemitted _ htag
      simp only [List.append_assoc] at hall ⊢
      exact hall
    · show Utf8.len source - (b.cursor + Utf8.len tag.source) < Utf8.len source - b.cursor
      omega
  | unterminated kind content hfound => exact fun _ h => by cases h
  | empty kind inside after hkind hempty hfirst => exact fun _ h => by cases h

theorem Reached.inStep (hquiet : QuietComments source) (h : Reached source b tokens) :
    InStep source b tokens := by
  induction h with
  | start => exact inStep_start source
  | round b b' tokens tokens' _ hround ih =>
    have hok := lexRound_inStep hquiet b tokens ih
    rw [hround] at hok
    exact hok.1

theorem At.eq_of_cursor {front behind : List Char} (h : At source b text rest)
    (hsource : source = front ++ behind) (hcursor : b.cursor = Utf8.len front) : rest = behind := by
  obtain ⟨front', hsource', -, hcursor'⟩ := h
  have hrest := Utf8.sliceFrom_append (front' ++ text) rest
  rw [← hsource', Utf8.len_append, ← hcursor', hcursor, hsource, Utf8.sliceFrom_append] at hrest
  exact (Option.some_inj.mp hrest).symm

theorem lexesFaithfully_of_quiet (hquiet : QuietComments source) : LexesFaithfully source where
  ends := by
    intro message
    rw [tokenizeByCursor_run]
    cases tokenizeFrom (source.length + 1) 0 false [] source <;> nofun
  emits := by
    intro tokens h
    have hloop := loopOn_rule (lexRound_inStep hquiet) (inStep_start source)
    obtain ⟨final, htokens⟩ : ∃ final, tokenizeByCursor source [] = (.ok tokens, final) :=
      ⟨_, Prod.ext h rfl⟩
    unfold tokenizeByCursor at htokens
    obtain ⟨b, before, hrun, htokens⟩ := Exec.of_bind_ok htokens
    rw [hrun] at hloop
    obtain ⟨front, tail, hsource, hstart, hemitted⟩ := hloop b rfl
    rw [hstart, hsource, Utf8.sliceFrom_append] at htokens
    cases htokens
    exact hemitted
  comments := by
    intro front comment after b tokens hsource hkind hcloses hreached hcursor
    obtain ⟨text, rest, hat, hremains, -, -⟩ := hreached.inStep hquiet
    rw [List.append_assoc] at hsource
    obtain rfl := hat.eq_of_cursor hsource hcursor
    have hfirst := hcloses.first fun hkind => hquiet comment after hkind hremains hcloses
    refine ⟨text, hat.slice, ?_⟩
    rw [lexRound_tag hat hfirst, Utf8.len_append, ← hcursor, Tag.tokens, hkind, TagKind.tokens,
      List.append_nil]

theorem exists_reached (h : LexesFaithfully source) (hremains : Remains source rest)
    (hlen : 1 < Utf8.len rest) : ∃ b tokens text, Reached source b tokens ∧ At source b text rest := by
  induction hremains with
  | start => exact ⟨_, _, [], .start, at_start source⟩
  | char c rest _ hplain ih =>
    have hmore : 1 < Utf8.len (c :: rest) := by
      rw [Utf8.len_cons]
      omega
    obtain ⟨b, tokens, text, hreached, hat⟩ := ih hmore
    exact ⟨_, _, _, .round b _ tokens _ hreached (lexRound_char hat hmore hplain), hat.snoc⟩
  | tag tag rest _ hcloses ih =>
    obtain ⟨b, tokens, text, hreached, hat⟩ := ih (by rw [Utf8.len_append]; omega)
    by_cases hkind : tag.kind = .comment
    · have hcomment := hat
      obtain ⟨front, hsource, hstart, hcursor⟩ := hat
      rw [← List.append_assoc] at hsource
      obtain ⟨_, -, hround⟩ := h.comments (front ++ text) tag rest b tokens hsource hkind hcloses hreached
        (by rw [hcursor, Utf8.len_append])
      have hbehind := hcomment.behind tag.trimAfter
      rw [hcursor, ← Utf8.len_append, ← Utf8.len_append] at hbehind
      exact ⟨_, _, _, .round b _ tokens _ hreached hround, hbehind⟩
    · have hfirst := hcloses.first fun hcomment => absurd hcomment hkind
      exact ⟨_, _, _, .round b _ tokens _ hreached (lexRound_tag hat hfirst), hat.behind _⟩

theorem quiet_of_lexesFaithfully (h : LexesFaithfully source) : QuietComments source := by
  intro comment after hkind hremains hcloses
  have hlen : 1 < Utf8.len (comment.source ++ after) := by
    rw [Tag.source, hkind, List.append_assoc, List.append_assoc, Utf8.len_append]
    exact Nat.lt_of_lt_of_le (by decide) (Nat.le_add_right 2 _)
  obtain ⟨b, tokens, text, hreached, hat⟩ := exists_reached h hremains hlen
  have hcomment := hat
  obtain ⟨front, hsource, -, hcursor⟩ := hcomment
  rw [← List.append_assoc] at hsource
  obtain ⟨_, -, hround⟩ := h.comments (front ++ text) comment after b tokens hsource hkind hcloses
    hreached (by rw [hcursor, Utf8.len_append])
  have hopening : comment.source ++ after = TagKind.comment.opening ++
      (comment.inside ++ TagKind.comment.closing ++ after) := by
    simp only [Tag.source, hkind, List.append_assoc]
  have hcursor' : Utf8.len (front ++ text ++ comment.source) = b.cursor + Utf8.len comment.source := by
    rw [Utf8.len_append, Utf8.len_append, hcursor]
  rw [hopening] at hat
  rw [lexRound_opening hat, hcursor'] at hround
  cases hfound : findTagEnd TagKind.comment.closing none false
      (comment.inside ++ TagKind.comment.closing ++ after) with
  | none =>
    rw [tagRound_unterminated hat hfound] at hround
    cases hround
  | some found =>
    obtain ⟨inside, after'⟩ := found
    rw [tagRound_closed hat hfound, bind_run, pushTag_run fun h => absurd rfl h] at hround
    have hends := (LexCursors.mk.inj (RoundEnd.again.inj (Outcome.ok.inj (congrArg Prod.fst hround)))).1
    obtain ⟨hcontent, hfirst⟩ := firstOutsideQuotes_iff.mp hfound
    rw [Tag.source, hkind, Utf8.len_append, Utf8.len_append, Utf8.len_append, Utf8.len_append] at hends
    rw [List.append_assoc, List.append_assoc] at hcontent
    rw [(Utf8.append_inj hcontent (by omega)).1]
    exact hfirst.1

/-- Lexing is as it should be exactly where every comment leaves no quote open. -/
theorem lexesFaithfully_iff (source : List Char) : LexesFaithfully source ↔ QuietComments source :=
  ⟨quiet_of_lexesFaithfully, lexesFaithfully_of_quiet⟩

/-- A comment with an apostrophe in it. -/
def apostrophe : List Char := "\x7b# don't #\x7d".toList

theorem not_lexesFaithfully_apostrophe : ¬LexesFaithfully apostrophe := by
  intro h
  let comment : Tag := ⟨.comment, " don't ".toList, fun h => absurd rfl h⟩
  have hcloses : comment.Closes [] := by
    unfold Tag.Closes
    rw [if_pos rfl]
    decide
  obtain ⟨text, -, hround⟩ := h.comments [] comment [] ⟨0, 0, false⟩ [] rfl rfl hcloses .start rfl
  have hfails : (lexRound apostrophe ⟨0, 0, false⟩ []).1 =
      .err (.parse "unterminated template tag at byte 0") := rfl
  rw [hround] at hfails
  cases hfails

/-- The text between two such comments is lost. -/
example : (tokenizeByCursor "\x7b# it's #\x7dHello\x7b# it's #\x7d!".toList []).1 = .ok [.text ['!']] := rfl

end ChatTemplate
end Ramforge
