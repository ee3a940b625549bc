/-
White space in `str` and `char`.

Rust's `char::is_whitespace` is the Unicode property `White_Space`; Lean's
`Char.isWhitespace` is not.  Strings are lists of characters here.
-/
import Mathlib.Data.List.DropRight
import Mathlib.Tactic

namespace Rust
namespace Unicode

/-- `char::is_whitespace`. -/
def isWhitespace (c : Char) : Bool :=
  let n := c.toNat
  9 ≤ n ∧ n ≤ 13 ∨ n = 0x20 ∨ n = 0x85 ∨ n = 0xA0 ∨ n = 0x1680 ∨ 0x2000 ≤ n ∧ n ≤ 0x200A ∨
    n = 0x2028 ∨ n = 0x2029 ∨ n = 0x202F ∨ n = 0x205F ∨ n = 0x3000

def trimStart (s : List Char) : List Char := s.dropWhile isWhitespace

def trimEnd (s : List Char) : List Char := s.rdropWhile isWhitespace

def trim (s : List Char) : List Char := trimEnd (trimStart s)

/-- `s.split_whitespace().next().unwrap_or_default()`. -/
def firstWord (s : List Char) : List Char := (trimStart s).takeWhile fun c => !isWhitespace c

/-- `s.strip_prefix(p)`. -/
def stripPrefix (p s : List Char) : Option (List Char) :=
  if p.isPrefixOf s then some (s.drop p.length) else none

/-- `s.split_once(p)`. -/
def splitOnce (p : List Char) : List Char → Option (List Char × List Char)
  | [] => if p = [] then some ([], []) else none
  | c :: rest =>
    if p.isPrefixOf (c :: rest) then some ([], (c :: rest).drop p.length)
    else (splitOnce p rest).map fun parts => (c :: parts.1, parts.2)

/-- The words of a text, after the characters of the word it starts in. -/
def wordsFrom (word : List Char) : List Char → List (List Char)
  | [] => if word = [] then [] else [word]
  | c :: rest =>
    if isWhitespace c then (if word = [] then [] else [word]) ++ wordsFrom [] rest
    else wordsFrom (word ++ [c]) rest

/-- `s.split_whitespace()`. -/
def splitWhitespace (s : List Char) : List (List Char) := wordsFrom [] s

/-- `s.replace(pattern, text)` for a pattern that is not empty; `skip` characters of a match
are still to be passed over. -/
def replaceFrom (pattern text : List Char) : Nat → List Char → List Char
  | _, [] => []
  | 0, c :: rest =>
    if pattern.isPrefixOf (c :: rest) then text ++ replaceFrom pattern text (pattern.length - 1) rest
    else c :: replaceFrom pattern text 0 rest
  | skip + 1, _ :: rest => replaceFrom pattern text skip rest

def replace (pattern text s : List Char) : List Char := replaceFrom pattern text 0 s

/-! ## Parts of a text -/

/-- A text is cut at the first place where another stands. -/
theorem exists_first_infix {p s : List Char} (hp : p ≠ []) (h : p <:+: s) :
    ∃ front back, s = front ++ p ++ back ∧ ¬p <:+: front := by
  induction s with
  | nil => exact absurd (List.infix_nil.mp h) hp
  | cons c s ih =>
    by_cases hstands : p <+: c :: s
    · obtain ⟨back, hback⟩ := hstands
      exact ⟨[], back, hback.symm, fun hnil => hp (List.infix_nil.mp hnil)⟩
    · obtain ⟨front, back, rfl, hfirst⟩ := ih ((List.infix_cons_iff.mp h).resolve_left hstands)
      refine ⟨c :: front, back, rfl, fun hinfix => ?_⟩
      rcases List.infix_cons_iff.mp hinfix with hhead | htail
      · refine hstands (hhead.trans ?_)
        rw [List.append_assoc, ← List.cons_append]
        exact List.prefix_append _ _
      · exact hfirst htail

/-- What trimming takes from a text is white space at its ends. -/
theorem exists_trim (s : List Char) : ∃ front back, s = front ++ trim s ++ back ∧
    (∀ c ∈ front, isWhitespace c = true) ∧ ∀ c ∈ back, isWhitespace c = true := by
  refine ⟨s.takeWhile isWhitespace, (trimStart s).rtakeWhile isWhitespace, ?_,
    fun c hc => List.mem_takeWhile_imp hc, fun c hc => List.mem_rtakeWhile_imp hc⟩
  rw [List.append_assoc, trim, trimEnd, List.rdropWhile_append_rtakeWhile, trimStart,
    List.takeWhile_append_dropWhile]

/-- What holds wherever more of a text is left still does when the text takes one more
character, if it holds where only that character is left. -/
theorem forall_back_snoc {P : List Char → Prop} {text rest : List Char} {c : Char}
    (h : ∀ front back, text = front ++ back → back ≠ [] → P (back ++ c :: rest)) (hc : P (c :: rest)) :
    ∀ front back, text ++ [c] = front ++ back → back ≠ [] → P (back ++ rest) := by
  intro front back hsplit hne
  obtain ⟨back, d, rfl⟩ := (List.eq_nil_or_concat back).resolve_left hne
  rw [List.concat_eq_append, ← List.append_assoc] at hsplit
  obtain ⟨htext, hd⟩ := List.append_inj' hsplit rfl
  obtain rfl := List.singleton_inj.mp hd
  rw [List.concat_eq_append, List.append_assoc, List.singleton_append]
  by_cases hback : back = []
  · rw [hback]
    exact hc
  · exact h front back htext hback

/-! ## Words -/

section words

variable {s t word : List Char} {c : Char}

theorem wordsFrom_append (hc : isWhitespace c = true) (word s t : List Char) :
    wordsFrom word (s ++ c :: t) = wordsFrom word s ++ wordsFrom [] t := by
  induction s generalizing word with
  | nil =>
    show (if isWhitespace c = true then _ else _) = _
    rw [if_pos hc]
    rfl
  | cons d s ih =>
    rw [List.cons_append, wordsFrom, wordsFrom, ih, ih]
    split
    · rw [List.append_assoc]
    · rfl

theorem wordsFrom_of_plain (hs : ∀ c ∈ s, isWhitespace c = false) (hne : word ++ s ≠ []) :
    wordsFrom word s = [word ++ s] := by
  induction s generalizing word with
  | nil =>
    rw [List.append_nil] at hne ⊢
    rw [wordsFrom, if_neg hne]
  | cons c s ih =>
    have hc := hs c List.mem_cons_self
    rw [wordsFrom, if_neg (by rw [hc]; exact Bool.false_ne_true),
      ih (fun d hd => hs d (List.mem_cons_of_mem _ hd)) (by simp), List.append_assoc]
    rfl

/-- A word that was begun comes out. -/
theorem wordsFrom_ne_nil (h : word ≠ []) (s : List Char) : wordsFrom word s ≠ [] := by
  induction s generalizing word with
  | nil => rw [wordsFrom, if_neg h]; exact List.cons_ne_nil _ _
  | cons c s ih =>
    rw [wordsFrom, if_neg h]
    split
    · exact List.cons_ne_nil _ _
    · exact ih (by simp)

theorem splitWhitespace_append (s t : List Char) :
    splitWhitespace (s ++ ' ' :: t) = splitWhitespace s ++ splitWhitespace t :=
  wordsFrom_append (by decide) [] s t

theorem splitWhitespace_of_plain (hs : ∀ c ∈ s, isWhitespace c = false) (hne : s ≠ []) :
    splitWhitespace s = [s] := wordsFrom_of_plain hs hne

theorem splitWhitespace_cons_ne_nil (hc : isWhitespace c = false) (s : List Char) :
    splitWhitespace (c :: s) ≠ [] := by
  rw [splitWhitespace, wordsFrom, if_neg (by rw [hc]; exact Bool.false_ne_true)]
  exact wordsFrom_ne_nil (by simp) s

/-- Fields with a space before each but the first. -/
def joinSpaces (field : List Char) (fields : List (List Char)) : List Char :=
  field ++ fields.flatMap fun f => ' ' :: f

theorem splitWhitespace_joinSpaces (field : List Char) (fields : List (List Char)) :
    splitWhitespace (joinSpaces field fields) =
      splitWhitespace field ++ fields.flatMap splitWhitespace := by
  induction fields generalizing field with
  | nil => simp [joinSpaces]
  | cons f fields ih =>
    have hjoin : joinSpaces field (f :: fields) = field ++ ' ' :: joinSpaces f fields := by
      simp [joinSpaces]
    rw [hjoin, splitWhitespace_append, ih, List.flatMap_cons]

/-! ## The separator between groups of fields -/

def separator : List Char := [' ', '-', ' ']

theorem splitOnce_append_plain (hs : ∀ c ∈ s, c ≠ ' ') (t : List Char) :
    splitOnce separator (s ++ t) =
      (splitOnce separator t).map fun parts => (s ++ parts.1, parts.2) := by
  induction s with
  | nil =>
    rw [List.nil_append]
    cases splitOnce separator t <;> rfl
  | cons c s ih =>
    have hc : ¬separator.isPrefixOf (c :: (s ++ t)) = true := by
      rw [List.isPrefixOf_iff_prefix, separator, List.cons_prefix_cons]
      exact fun h => hs c List.mem_cons_self h.1.symm
    rw [List.cons_append, splitOnce, if_neg hc, ih fun d hd => hs d (List.mem_cons_of_mem _ hd),
      Option.map_map]
    rfl

/-- A field does not begin the separator unless it is a dash. -/
theorem not_separator_prefix {f : List Char} (hf : ∀ c ∈ f, c ≠ ' ') (hdash : f ≠ ['-'])
    (rest : List Char) : ¬separator.isPrefixOf (' ' :: (f ++ ' ' :: rest)) = true := by
  rw [List.isPrefixOf_iff_prefix, separator, List.cons_prefix_cons]
  rintro ⟨-, h⟩
  rcases f with _ | ⟨c, _ | ⟨d, f⟩⟩
  · rw [List.nil_append, List.cons_prefix_cons] at h
    exact absurd h.1 (by decide)
  · rw [List.singleton_append, List.cons_prefix_cons] at h
    exact hdash (by rw [← h.1])
  · rw [List.cons_append, List.cons_append, List.cons_prefix_cons, List.cons_prefix_cons] at h
    exact hf d (by simp) h.2.1.symm

/-- The first separator stands behind the fields. -/
theorem splitOnce_joinSpaces {field : List Char} {fields : List (List Char)}
    (hfield : ∀ c ∈ field, c ≠ ' ') (hfields : ∀ f ∈ fields, (∀ c ∈ f, c ≠ ' ') ∧ f ≠ ['-'])
    (rest : List Char) :
    splitOnce separator (joinSpaces field fields ++ separator ++ rest) =
      some (joinSpaces field fields, rest) := by
  have hempty : splitOnce separator (separator ++ rest) = some ([], rest) := by
    rw [separator, List.cons_append, splitOnce, if_pos (by simp [List.isPrefixOf])]
    rfl
  have htail : ∀ fields : List (List Char), (∀ f ∈ fields, (∀ c ∈ f, c ≠ ' ') ∧ f ≠ ['-']) →
      splitOnce separator ((fields.flatMap fun f => ' ' :: f) ++ (separator ++ rest)) =
        some (fields.flatMap fun f => ' ' :: f, rest) := by
    intro fields
    induction fields with
    | nil => exact fun _ => hempty
    | cons f fields ih =>
      intro h
      obtain ⟨hspace, hdash⟩ := h f List.mem_cons_self
      have hnext := ih fun g hg => h g (List.mem_cons_of_mem _ hg)
      obtain ⟨next, hnextSpace⟩ : ∃ next, (fields.flatMap fun f => ' ' :: f) ++ (separator ++ rest) =
          ' ' :: next := by
        cases fields with
        | nil => exact ⟨_, rfl⟩
        | cons g fields => exact ⟨_, rfl⟩
      rw [List.flatMap_cons, List.cons_append, List.cons_append, List.append_assoc]
      have hno : ¬separator.isPrefixOf (' ' :: (f ++ ((fields.flatMap fun f => ' ' :: f) ++
          (separator ++ rest)))) = true := by
        rw [hnextSpace]
        exact not_separator_prefix hspace hdash next
      rw [splitOnce, if_neg hno, splitOnce_append_plain hspace, hnext]
      rfl
  rw [joinSpaces, List.append_assoc, List.append_assoc, splitOnce_append_plain hfield,
    htail fields hfields]
  rfl

end words

/-! ## Escapes -/

/-- Characters written as a marker and a code of a fixed width. -/
structure EscapeCode (marker : Char) (code : Char → Option (List Char)) (width : Nat) : Prop where
  length : ∀ c ds, code c = some ds → ds.length = width
  plain : ∀ c ds, code c = some ds → marker ∉ ds
  inj : ∀ c c' ds, code c = some ds → code c' = some ds → c = c'
  marker : (code marker).isSome = true

/-- A character as it is written when the escapes of some characters are undone. -/
def escapeRest (marker : Char) (code : Char → Option (List Char)) (undone : List Char) (c : Char) :
    List Char :=
  if c ∈ undone then [c]
  else
    match code c with
    | some ds => marker :: ds
    | none => [c]

section escapes

variable {marker c e : Char} {code : Char → Option (List Char)} {width : Nat}
  {undone ds text rest : List Char}

theorem escapeRest_of_mem (h : c ∈ undone) : escapeRest marker code undone c = [c] := if_pos h

theorem escapeRest_of_some (hc : c ∉ undone) (h : code c = some ds) :
    escapeRest marker code undone c = marker :: ds := by
  rw [escapeRest, if_neg hc, h]

theorem escapeRest_of_none (h : code c = none) : escapeRest marker code undone c = [c] := by
  rw [escapeRest, h]
  split <;> rfl

theorem replaceFrom_skip (pattern text xs rest : List Char) :
    replaceFrom pattern text xs.length (xs ++ rest) = replaceFrom pattern text 0 rest := by
  induction xs with
  | nil => rfl
  | cons x xs ih => exact ih

theorem replaceFrom_of_ne (hc : c ≠ marker) :
    replaceFrom (marker :: ds) text 0 (c :: rest) = c :: replaceFrom (marker :: ds) text 0 rest := by
  rw [replaceFrom, if_neg]
  rw [List.isPrefixOf_iff_prefix, List.cons_prefix_cons]
  exact fun h => hc h.1.symm

theorem replaceFrom_plain {xs : List Char} (hxs : marker ∉ xs) (rest : List Char) :
    replaceFrom (marker :: ds) text 0 (xs ++ rest) = xs ++ replaceFrom (marker :: ds) text 0 rest := by
  induction xs with
  | nil => rfl
  | cons x xs ih =>
    have hx : x ≠ marker := fun h => hxs (h ▸ List.mem_cons_self)
    rw [List.cons_append, replaceFrom_of_ne hx, ih fun h => hxs (List.mem_cons_of_mem _ h),
      List.cons_append]

theorem replaceFrom_self :
    replaceFrom (marker :: ds) text 0 (marker :: ds ++ rest) =
      text ++ replaceFrom (marker :: ds) text 0 rest := by
  rw [List.cons_append, replaceFrom, if_pos, List.length_cons, Nat.add_sub_cancel, replaceFrom_skip]
  rw [List.isPrefixOf_iff_prefix, ← List.cons_append]
  exact List.prefix_append _ _

theorem replaceFrom_other {ds' : List Char} (hlen : ds'.length = ds.length) (hne : ds ≠ ds')
    (hplain : marker ∉ ds') :
    replaceFrom (marker :: ds) text 0 (marker :: ds' ++ rest) =
      marker :: ds' ++ replaceFrom (marker :: ds) text 0 rest := by
  rw [List.cons_append, replaceFrom, if_neg, replaceFrom_plain hplain, List.cons_append]
  rw [List.isPrefixOf_iff_prefix, List.cons_prefix_cons]
  rintro ⟨-, h⟩
  have hle := List.prefix_of_prefix_length_le h (List.prefix_append ds' rest) hlen.ge
  exact hne (hle.eq_of_length hlen.symm)

/-- Undoing one escape leaves the others. -/
theorem replace_escapeRest (h : EscapeCode marker code width) (hundone : marker ∉ undone)
    (he : code e = some ds) (hnew : e ∉ undone) (s : List Char) :
    replace (marker :: ds) [e] (s.flatMap (escapeRest marker code undone)) =
      s.flatMap (escapeRest marker code (e :: undone)) := by
  induction s with
  | nil => rfl
  | cons c s ih =>
    rw [replace] at ih ⊢
    rw [List.flatMap_cons, List.flatMap_cons, ← ih]
    by_cases hc : c ∈ undone
    · have hmarker : c ≠ marker := fun heq => hundone (heq ▸ hc)
      rw [escapeRest_of_mem hc, escapeRest_of_mem (List.mem_cons_of_mem _ hc), List.singleton_append,
        replaceFrom_of_ne hmarker, List.singleton_append]
    · cases hcode : code c with
      | none =>
        have hmarker : c ≠ marker := by
          rintro rfl
          have hsome := h.marker
          rw [hcode] at hsome
          cases hsome
        rw [escapeRest_of_none hcode, escapeRest_of_none hcode, List.singleton_append,
          replaceFrom_of_ne hmarker, List.singleton_append]
      | some ds' =>
        by_cases hce : c = e
        · subst hce
          obtain rfl := Option.some.inj (he.symm.trans hcode)
          rw [escapeRest_of_some hc hcode, escapeRest_of_mem List.mem_cons_self, replaceFrom_self]
        · have hout : c ∉ e :: undone := List.not_mem_cons_of_ne_of_not_mem hce hc
          have hne : ds ≠ ds' := fun heq => hce (h.inj c e ds' hcode (heq ▸ he))
          rw [escapeRest_of_some hc hcode, escapeRest_of_some hout hcode,
            replaceFrom_other ((h.length c ds' hcode).trans (h.length e ds he).symm) hne
              (h.plain c ds' hcode)]

end escapes

end Unicode
end Rust
