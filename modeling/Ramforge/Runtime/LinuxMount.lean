/-
The mount of a path in the text of `/proc/self/mountinfo`.

A mount table is rendered as the kernel writes it: a line for each mount, with space, tab,
line feed and backslash written as octal escapes.  The mount in effect for a path is the last
listed one with the longest mount point above the path.
-/
import Ramforge.Runtime.PageResidency
import Ramforge.Rust.Text

namespace Ramforge

open Rust Rust.Unicode

/-- `Path::starts_with`. -/
def pathStartsWith (path base : String) : Bool :=
  let (absolute, parts) := Planner.pathComponents path
  let (baseAbsolute, baseParts) := Planner.pathComponents base
  (baseAbsolute == absolute || (!baseAbsolute && baseParts.isEmpty)) && baseParts.isPrefixOf parts

/-- `as_os_str().len()`. -/
def byteLength (s : List Char) : Nat := (s.map Char.utf8Size).sum

structure LinuxMount where
  mountPoint : List Char
  majorMinor : List Char
  filesystemType : List Char
deriving DecidableEq, Repr

namespace LinuxMount

def decodeMountField (value : List Char) : List Char :=
  replace ['\\', '1', '3', '4'] ['\\']
    (replace ['\\', '0', '1', '2'] ['\n']
      (replace ['\\', '0', '1', '1'] ['\t']
        (replace ['\\', '0', '4', '0'] [' '] value)))

/-- What a line offers for a path. -/
def candidate (path : String) (line : List Char) : Option LinuxMount :=
  match splitOnce separator line with
  | none => none
  | some (left, right) =>
    match splitWhitespace left, splitWhitespace right with
    | _ :: _ :: majorMinor :: _ :: point :: _, filesystemType :: _ =>
      let mountPoint := decodeMountField point
      if pathStartsWith path (String.ofList mountPoint) then
        some ⟨mountPoint, majorMinor, filesystemType⟩
      else none
    | _, _ => none

/-- A round of the loop over the lines. -/
def choose (best : Option LinuxMount) : Option LinuxMount → Option LinuxMount
  | none => best
  | some candidate =>
    match best with
    | some current =>
      if byteLength current.mountPoint < byteLength candidate.mountPoint then some candidate else best
    | none => some candidate

def findLinuxMount (contents : List Char) (path : String) : Option LinuxMount :=
  (PageResidency.linesFrom [] contents).foldl (fun best line => choose best (candidate path line)) none

end LinuxMount

/-! ## The kernel's mount table -/

/-- The digits of the octal escape of a character. -/
def octalCode (c : Char) : Option (List Char) :=
  if c = ' ' then some ['0', '4', '0']
  else if c = '\t' then some ['0', '1', '1']
  else if c = '\n' then some ['0', '1', '2']
  else if c = '\\' then some ['1', '3', '4']
  else none

def escape (s : List Char) : List Char := s.flatMap (escapeRest '\\' octalCode [])

/-- A field of a line besides the escaped ones. -/
structure IsField (field : List Char) : Prop where
  noSpace : ∀ c ∈ field, c ≠ ' '
  noLineFeed : '\n' ∉ field
  noDash : field ≠ ['-']

/-- A component of a mount point. -/
structure IsName (name : List Char) : Prop where
  ne : name ≠ []
  noSlash : '/' ∉ name
  noDot : name ≠ ['.']

/-- A mount as the kernel lists it, with the components of its mount point. -/
structure Mount where
  id : Nat
  parent : Nat
  major : Nat
  minor : Nat
  root : List Char
  point : List (List Char)
  options : List Char
  optional : List (List Char)
  fstype : List Char
  source : List Char
  superOptions : List Char
  root_start : ∃ c rest, root = c :: rest ∧ isWhitespace c = false
  root_noDash : root ≠ ['-']
  point_names : ∀ name ∈ point, IsName name
  options_field : IsField options
  optional_fields : ∀ field ∈ optional, IsField field
  fstype_ne : fstype ≠ []
  superOptions_line : '\n' ∉ superOptions

namespace Mount

def pointText (point : List (List Char)) : List Char :=
  if point = [] then ['/'] else point.flatMap fun name => '/' :: name

/-- The device numbers as they are written. -/
def device (m : Mount) : List Char := (Nat.repr m.major).toList ++ ':' :: (Nat.repr m.minor).toList

def fields (m : Mount) : List (List Char) :=
  [(Nat.repr m.parent).toList, m.device, escape m.root, escape (pointText m.point), m.options] ++
    m.optional

def leftText (m : Mount) : List Char := joinSpaces (Nat.repr m.id).toList m.fields

def line (m : Mount) : List Char :=
  m.leftText ++ separator ++ (escape m.fstype ++ ' ' :: (escape m.source ++ ' ' :: m.superOptions))

def render (mounts : List Mount) : List Char := mounts.flatMap fun m => m.line ++ ['\n']

/-- The mount point is the path or above it. -/
def Covers (path : String) (m : Mount) : Prop := m.point <+: (Planner.pathComponents path).2

/-- The mount in effect: no mount point above the path is longer, and none that is listed
later is as long. -/
def InEffect (path : String) (mounts : List Mount) (m : Mount) : Prop :=
  ∃ before after, mounts = before ++ m :: after ∧ Covers path m ∧
    (∀ x ∈ before, Covers path x → x.point.length ≤ m.point.length) ∧
    ∀ x ∈ after, Covers path x → x.point.length < m.point.length

/-- The first listed of the mounts with the longest mount point above the path. -/
def ListedFirst (path : String) (mounts : List Mount) (m : Mount) : Prop :=
  ∃ before after, mounts = before ++ m :: after ∧ Covers path m ∧
    (∀ x ∈ before, Covers path x → x.point.length < m.point.length) ∧
    ∀ x ∈ after, Covers path x → x.point.length ≤ m.point.length

/-- The device numbers and the file system type of the mount in effect are found. -/
def FindsEffective (mounts : List Mount) (path : String) : Prop :=
  (∀ m, InEffect path mounts m → ∃ found, LinuxMount.findLinuxMount (render mounts) path = some found ∧
    found.majorMinor = m.device ∧ found.filesystemType = m.fstype) ∧
  ((∀ m ∈ mounts, ¬Covers path m) → LinuxMount.findLinuxMount (render mounts) path = none)

/-- The line has no white space inside its fields that is not escaped, and its file system type
is written as it is. -/
structure Plain (m : Mount) : Prop where
  root : ∀ c ∈ m.root, isWhitespace c = true → c = ' ' ∨ c = '\t' ∨ c = '\n'
  point : ∀ name ∈ m.point, ∀ c ∈ name, isWhitespace c = true → c = ' ' ∨ c = '\t' ∨ c = '\n'
  fstype : ∀ c ∈ m.fstype, isWhitespace c = false ∧ c ≠ '\\'

/-- Neither the mount point nor a word of the root or the mount point is above the path. -/
structure Unrelated (path : String) (m : Mount) : Prop where
  point : ¬Covers path m
  words : ∀ word ∈ splitWhitespace (escape m.root ++ ' ' :: escape (pointText m.point)),
    pathStartsWith path (String.ofList (LinuxMount.decodeMountField word)) = false

end Mount

/-! ## Escapes -/

theorem escapeCode_octalCode : EscapeCode '\\' octalCode 3 where
  length c ds h := by
    unfold octalCode at h
    split_ifs at h <;> cases h <;> rfl
  plain c ds h := by
    unfold octalCode at h
    split_ifs at h <;> cases h <;> decide
  inj c c' ds h h' := by
    unfold octalCode at h h'
    split_ifs at h <;> cases h <;> split_ifs at h' <;> simp_all
  marker := rfl

theorem mem_octalCode {c : Char} {ds : List Char} (h : octalCode c = some ds) :
    ∀ d ∈ '\\' :: ds, d ∈ ['\\', '0', '1', '2', '3', '4'] := by
  unfold octalCode at h
  split_ifs at h <;> cases h <;> simp

/-- What an escaped text is made of. -/
theorem mem_escape {s : List Char} {c : Char} (h : c ∈ escape s) :
    c ∈ ['\\', '0', '1', '2', '3', '4'] ∨ (c ∈ s ∧ octalCode c = none) := by
  rw [escape, List.mem_flatMap] at h
  obtain ⟨d, hd, hc⟩ := h
  cases hcode : octalCode d with
  | none =>
    rw [escapeRest_of_none hcode, List.mem_singleton] at hc
    exact .inr (hc ▸ ⟨hd, hcode⟩)
  | some ds =>
    rw [escapeRest_of_some List.not_mem_nil hcode] at hc
    exact .inl (mem_octalCode hcode c hc)

theorem octalCode_eq_none {c : Char} (h : octalCode c = none) :
    c ≠ ' ' ∧ c ≠ '\t' ∧ c ≠ '\n' ∧ c ≠ '\\' := by
  unfold octalCode at h
  split_ifs at h with h1 h2 h3 h4
  exact ⟨h1, h2, h3, h4⟩

/-- An escaped text has none of the characters that end a field or a line. -/
theorem ne_of_mem_escape {s : List Char} {c : Char} (h : c ∈ escape s) : c ≠ ' ' ∧ c ≠ '\n' := by
  rcases mem_escape h with h | ⟨-, h⟩
  · refine ⟨?_, ?_⟩
    · rintro rfl
      exact absurd h (by decide)
    · rintro rfl
      exact absurd h (by decide)
  · exact ⟨(octalCode_eq_none h).1, (octalCode_eq_none h).2.2.1⟩

theorem isWhitespace_of_mem_escape {s : List Char}
    (hs : ∀ c ∈ s, isWhitespace c = true → c = ' ' ∨ c = '\t' ∨ c = '\n') :
    ∀ c ∈ escape s, isWhitespace c = false := by
  have hdigits : ∀ c ∈ ['\\', '0', '1', '2', '3', '4'], isWhitespace c = false := by
    simp [isWhitespace]
  intro c hc
  rcases mem_escape hc with h | ⟨hmem, h⟩
  · exact hdigits c h
  · by_contra hspace
    obtain ⟨h1, h2, h3, -⟩ := octalCode_eq_none h
    rcases hs c hmem (Bool.not_eq_false _ |>.mp hspace) with heq | heq | heq
    · exact h1 heq
    · exact h2 heq
    · exact h3 heq

theorem escape_eq_self {s : List Char} (hs : ∀ c ∈ s, isWhitespace c = false ∧ c ≠ '\\') :
    escape s = s := by
  induction s with
  | nil => rfl
  | cons c s ih =>
    have hcode : octalCode c = none := by
      obtain ⟨hspace, hslash⟩ := hs c List.mem_cons_self
      unfold octalCode
      split_ifs with h1 h2 h3
      · subst h1
        cases hspace
      · subst h2
        cases hspace
      · subst h3
        cases hspace
      · rfl
    rw [escape, List.flatMap_cons, escapeRest_of_none hcode]
    exact congrArg (c :: ·) (ih fun d hd => hs d (List.mem_cons_of_mem _ hd))

/-- The four replacements undo the escapes, the backslash last. -/
theorem decodeMountField_escape (s : List Char) : LinuxMount.decodeMountField (escape s) = s := by
  have hcode := escapeCode_octalCode
  rw [LinuxMount.decodeMountField, escape,
    replace_escapeRest hcode (e := ' ') (by decide) rfl (by decide),
    replace_escapeRest hcode (e := '\t') (by decide) rfl (by decide),
    replace_escapeRest hcode (e := '\n') (by decide) rfl (by decide),
    replace_escapeRest hcode (e := '\\') (by decide) rfl (by decide)]
  refine (List.flatMap_congr fun c _ => ?_).trans (List.flatMap_singleton' s)
  by_cases hc : c ∈ ['\\', '\n', '\t', ' ']
  · exact escapeRest_of_mem hc
  · refine escapeRest_of_none ?_
    unfold octalCode
    split_ifs <;> simp_all

/-! ## Lines -/

namespace Mount

variable {m : Mount} {path : String}

theorem isDigit_of_isWhitespace {c : Char} (h : isWhitespace c = true) : c.isDigit = false := by
  rw [Char.isDigit, Bool.and_eq_false_iff, decide_eq_false_iff_not, decide_eq_false_iff_not,
    ge_iff_le, UInt32.le_iff_toNat_le, UInt32.le_iff_toNat_le]
  unfold isWhitespace at h
  simp only [decide_eq_true_eq] at h
  have hval : c.val.toNat = c.toNat := rfl
  have hzero : '0'.val.toNat = 48 := rfl
  have hnine : '9'.val.toNat = 57 := rfl
  omega

theorem isWhitespace_of_mem_repr {n : Nat} : ∀ c ∈ (Nat.repr n).toList, isWhitespace c = false := by
  intro c hc
  by_contra h
  exact Text.notMem_repr (isDigit_of_isWhitespace (Bool.not_eq_false _ |>.mp h)) hc

theorem isWhitespace_of_mem_device : ∀ c ∈ m.device, isWhitespace c = false := by
  intro c hc
  rcases List.mem_append.mp hc with hc | hc
  · exact isWhitespace_of_mem_repr c hc
  · rcases List.mem_cons.mp hc with rfl | hc
    · rfl
    · exact isWhitespace_of_mem_repr c hc

theorem ne_of_plain {s : List Char} (hs : ∀ c ∈ s, isWhitespace c = false) :
    (∀ c ∈ s, c ≠ ' ') ∧ '\n' ∉ s := by
  refine ⟨?_, fun h => ?_⟩
  · rintro c hc rfl
    exact absurd (hs _ hc) (by decide)
  · exact absurd (hs _ h) (by decide)

theorem repr_ne_nil (n : Nat) : (Nat.repr n).toList ≠ [] := by
  rw [Nat.toList_repr]
  exact Nat.toDigits_ne_nil

theorem device_ne : m.device ≠ [] ∧ m.device ≠ ['-'] := by
  have hcolon : ':' ∈ m.device := List.mem_append_right _ List.mem_cons_self
  refine ⟨fun h => ?_, fun h => ?_⟩
  · rw [h] at hcolon
    cases hcolon
  · rw [h] at hcolon
    exact absurd hcolon (by decide)

theorem repr_ne_dash (n : Nat) : (Nat.repr n).toList ≠ ['-'] := by
  intro h
  have hnot : '-' ∉ (Nat.repr n).toList := Text.notMem_repr (by decide)
  rw [h] at hnot
  exact hnot List.mem_cons_self

theorem escape_ne_dash {s : List Char} (h : s ≠ ['-']) : escape s ≠ ['-'] := by
  intro heq
  have hdecode := decodeMountField_escape s
  rw [heq] at hdecode
  exact h hdecode.symm

theorem pointText_cons (point : List (List Char)) : ∃ rest, pointText point = '/' :: rest := by
  rw [pointText]
  cases point with
  | nil => exact ⟨[], rfl⟩
  | cons name point => exact ⟨_, rfl⟩

/-- Every field before the separator is one. -/
theorem isField_of_mem_fields (m : Mount) : ∀ field ∈ m.fields, IsField field := by
  have hpoint : pointText m.point ≠ ['-'] := by
    obtain ⟨rest, hrest⟩ := pointText_cons m.point
    rw [hrest]
    exact fun h => absurd (List.cons.inj h).1 (by decide)
  intro field hfield
  rcases List.mem_append.mp hfield with hfield | hfield
  · simp only [List.mem_cons, List.not_mem_nil, or_false] at hfield
    rcases hfield with rfl | rfl | rfl | rfl | rfl
    · exact ⟨(ne_of_plain isWhitespace_of_mem_repr).1, (ne_of_plain isWhitespace_of_mem_repr).2,
        repr_ne_dash _⟩
    · exact ⟨(ne_of_plain isWhitespace_of_mem_device).1, (ne_of_plain isWhitespace_of_mem_device).2,
        device_ne.2⟩
    · exact ⟨fun c hc => (ne_of_mem_escape hc).1, fun h => (ne_of_mem_escape h).2 rfl,
        escape_ne_dash m.root_noDash⟩
    · exact ⟨fun c hc => (ne_of_mem_escape hc).1, fun h => (ne_of_mem_escape h).2 rfl,
        escape_ne_dash hpoint⟩
    · exact m.options_field
  · exact m.optional_fields field hfield

theorem not_mem_leftText (m : Mount) : '\n' ∉ m.leftText := by
  intro h
  rw [leftText, joinSpaces, List.mem_append, List.mem_flatMap] at h
  rcases h with h | ⟨field, hfield, h⟩
  · exact (ne_of_plain isWhitespace_of_mem_repr).2 h
  · rcases List.mem_cons.mp h with h | h
    · exact absurd h (by decide)
    · exact (isField_of_mem_fields m field hfield).noLineFeed h

theorem splitOnce_line (m : Mount) (rest : List Char) :
    splitOnce separator (m.leftText ++ separator ++ rest) = some (m.leftText, rest) := by
  refine splitOnce_joinSpaces (ne_of_plain isWhitespace_of_mem_repr).1 (fun field hfield => ?_) rest
  have h := isField_of_mem_fields m field hfield
  exact ⟨h.noSpace, h.noDash⟩

theorem words_escape_ne_nil {c : Char} (hc : isWhitespace c = false) (rest : List Char) :
    splitWhitespace (escape (c :: rest)) ≠ [] := by
  rw [escape, List.flatMap_cons]
  cases hcode : octalCode c with
  | none =>
    rw [escapeRest_of_none hcode]
    exact splitWhitespace_cons_ne_nil hc _
  | some ds =>
    rw [escapeRest_of_some List.not_mem_nil hcode]
    exact splitWhitespace_cons_ne_nil (by decide) _

theorem words_escape_of_plain {s : List Char} (hne : s ≠ [])
    (hs : ∀ c ∈ s, isWhitespace c = true → c = ' ' ∨ c = '\t' ∨ c = '\n') :
    splitWhitespace (escape s) = [escape s] := by
  refine splitWhitespace_of_plain (isWhitespace_of_mem_escape hs) fun h => hne ?_
  have hdecode := decodeMountField_escape s
  rw [h] at hdecode
  exact hdecode.symm

theorem Plain.pointText (h : m.Plain) :
    ∀ c ∈ pointText m.point, isWhitespace c = true → c = ' ' ∨ c = '\t' ∨ c = '\n' := by
  intro c hc hspace
  rw [Mount.pointText] at hc
  split at hc
  · rw [List.mem_singleton] at hc
    subst hc
    cases hspace
  · obtain ⟨name, hname, hc⟩ := List.mem_flatMap.mp hc
    rcases List.mem_cons.mp hc with rfl | hc
    · cases hspace
    · exact h.point name hname c hc hspace

/-- The words before the separator: the fifth is a word of the root or of the mount point. -/
theorem words_leftText (m : Mount) :
    ∃ first point rest, splitWhitespace m.leftText =
        (Nat.repr m.id).toList :: (Nat.repr m.parent).toList :: m.device :: first :: point :: rest ∧
      point ∈ splitWhitespace (escape m.root ++ ' ' :: escape (pointText m.point)) ∧
      (m.Plain → point = escape (pointText m.point)) := by
  have hsplit : splitWhitespace m.leftText =
      (Nat.repr m.id).toList :: (Nat.repr m.parent).toList :: m.device ::
        (splitWhitespace (escape m.root) ++ (splitWhitespace (escape (pointText m.point)) ++
          (m.options :: m.optional).flatMap splitWhitespace)) := by
    rw [leftText, splitWhitespace_joinSpaces, fields]
    simp only [List.cons_append, List.nil_append, List.flatMap_cons]
    rw [splitWhitespace_of_plain isWhitespace_of_mem_repr (repr_ne_nil _),
      splitWhitespace_of_plain isWhitespace_of_mem_repr (repr_ne_nil _),
      splitWhitespace_of_plain isWhitespace_of_mem_device device_ne.1]
    rfl
  obtain ⟨first, others, hroot⟩ : ∃ first others, splitWhitespace (escape m.root) = first :: others := by
    obtain ⟨c, rest, hc, hspace⟩ := m.root_start
    rw [hc]
    exact List.exists_cons_of_ne_nil (words_escape_ne_nil hspace rest)
  obtain ⟨next, more, hpoint⟩ :
      ∃ next more, splitWhitespace (escape (pointText m.point)) = next :: more := by
    obtain ⟨rest, hrest⟩ := pointText_cons m.point
    rw [hrest]
    exact List.exists_cons_of_ne_nil (words_escape_ne_nil (by decide) rest)
  rw [splitWhitespace_append, hsplit, hroot, hpoint]
  cases others with
  | nil =>
    refine ⟨first, next, _, rfl, List.mem_append_right _ List.mem_cons_self, fun h => ?_⟩
    have hne : pointText m.point ≠ [] := by
      obtain ⟨rest, hrest⟩ := pointText_cons m.point
      rw [hrest]
      exact List.cons_ne_nil _ _
    rw [words_escape_of_plain hne h.pointText] at hpoint
    exact (List.cons.inj hpoint).1.symm
  | cons second others =>
    refine ⟨first, second, _, rfl, List.mem_append_left _ (List.mem_cons_of_mem _ List.mem_cons_self),
      fun h => ?_⟩
    have hne : m.root ≠ [] := by
      obtain ⟨c, rest, hc, -⟩ := m.root_start
      rw [hc]
      exact List.cons_ne_nil _ _
    rw [words_escape_of_plain hne h.root] at hroot
    cases (List.cons.inj hroot).2

/-! ## Mount points -/

theorem splitOn_pointText {point : List (List Char)} (hne : point ≠ [])
    (hnames : ∀ name ∈ point, '/' ∉ name) :
    (point.flatMap fun name => '/' :: name).splitOn '/' = [] :: point := by
  have hjoin : (point.flatMap fun name => '/' :: name) = [] ++ '/' :: ['/'].intercalate point := by
    clear hnames
    induction point with
    | nil => exact absurd rfl hne
    | cons name point ih =>
      cases point with
      | nil => simp
      | cons next point =>
        rw [List.flatMap_cons, ih (List.cons_ne_nil _ _), List.intercalate_cons_cons]
        simp
  rw [hjoin, List.splitOn_append_cons_self_of_not_mem List.not_mem_nil,
    List.splitOn_intercalate '/' hnames hne]

theorem filterMap_zipIdx_eq {β : Type} {f : β × Nat → Option β} {l : List β} (k : Nat)
    (h : ∀ a ∈ l, ∀ i, f (a, i) = some a) : (l.zipIdx k).filterMap f = l := by
  induction l generalizing k with
  | nil => rfl
  | cons a l ih =>
    rw [List.zipIdx_cons, List.filterMap_cons, h a List.mem_cons_self,
      ih (k + 1) fun b hb => h b (List.mem_cons_of_mem _ hb)]

/-- The text of a mount point has its names as components. -/
theorem pathComponents_pointText {point : List (List Char)} (hnames : ∀ name ∈ point, IsName name) :
    Planner.pathComponents (String.ofList (pointText point)) = (true, point) := by
  by_cases hne : point = []
  · subst hne
    rfl
  · obtain ⟨rest, hrest⟩ := pointText_cons point
    have hhead : (pointText point).head? = some '/' := by rw [hrest]; rfl
    have hsplit : (pointText point).splitOn '/' = [] :: point := by
      rw [pointText, if_neg hne]
      exact splitOn_pointText hne fun name hname => (hnames name hname).noSlash
    rw [Planner.pathComponents, String.toList_ofList, hhead, hsplit, List.zipIdx_cons,
      List.filterMap_cons]
    refine Prod.ext (of_decide_eq_true rfl) (filterMap_zipIdx_eq _ fun name hname i => ?_)
    have h := hnames name hname
    exact if_neg (not_or.mpr ⟨h.ne, fun hdot => h.noDot hdot.1⟩)

instance (path : String) (m : Mount) : Decidable (Covers path m) :=
  inferInstanceAs (Decidable (_ <+: _))

theorem pathStartsWith_pointText (m : Mount) (habsolute : (Planner.pathComponents path).1 = true) :
    pathStartsWith path (String.ofList (pointText m.point)) = decide (Covers path m) := by
  rw [pathStartsWith, pathComponents_pointText m.point_names]
  simp only [habsolute, beq_self_eq_true, Bool.true_or, Bool.true_and]
  rw [Bool.eq_iff_iff, List.isPrefixOf_iff_prefix, decide_eq_true_eq]
  exact Iff.rfl

/-- What the code keeps of a mount. -/
def kept (m : Mount) : LinuxMount where
  mountPoint := pointText m.point
  majorMinor := m.device
  filesystemType := m.fstype

/-- A line offers its mount for the paths below the mount point. -/
theorem candidate_line (habsolute : (Planner.pathComponents path).1 = true)
    (h : m.Plain ∨ m.Unrelated path) (rest : List Char) :
    LinuxMount.candidate path (m.leftText ++ separator ++ (escape m.fstype ++ ' ' :: rest)) =
      if Covers path m then some m.kept else none := by
  obtain ⟨first, point, others, hwords, hmem, hplain⟩ := words_leftText m
  rw [LinuxMount.candidate, splitOnce_line]
  simp only [hwords]
  rcases h with h | h
  · have htype : splitWhitespace (escape m.fstype ++ ' ' :: rest) = m.fstype :: splitWhitespace rest := by
      rw [splitWhitespace_append, escape_eq_self h.fstype,
        splitWhitespace_of_plain (fun c hc => (h.fstype c hc).1) m.fstype_ne]
      rfl
    simp only [htype, hplain h, decodeMountField_escape, pathStartsWith_pointText m habsolute,
      decide_eq_true_eq]
    rfl
  · rw [if_neg h.point]
    cases splitWhitespace (escape m.fstype ++ ' ' :: rest) with
    | nil => rfl
    | cons fstype others' => exact if_neg (by rw [h.words point hmem]; exact Bool.false_ne_true)

/-- The lines of the text, each perhaps without a carriage return at its end. -/
theorem linesFrom_line {s : List Char} (hs : '\n' ∉ s) (word rest : List Char) :
    PageResidency.linesFrom word (s ++ '\n' :: rest) =
      (if (word ++ s).getLast? = some '\r' then (word ++ s).dropLast else word ++ s) ::
        PageResidency.linesFrom [] rest := by
  induction s generalizing word with
  | nil => rw [List.nil_append, PageResidency.linesFrom, List.append_nil]
  | cons c s ih =>
    have hc : c ≠ '\n' := fun h => hs (h ▸ List.mem_cons_self)
    rw [List.cons_append, PageResidency.linesFrom, ih fun h => hs (List.mem_cons_of_mem _ h),
      List.append_assoc, List.singleton_append]
    exact fun h => hc h

theorem not_mem_line (m : Mount) : '\n' ∉ m.line := by
  intro h
  rw [line, List.mem_append, List.mem_append, List.mem_append, List.mem_cons, List.mem_append,
    List.mem_cons] at h
  rcases h with (h | h) | h | h | h | h | h
  · exact not_mem_leftText m h
  · exact absurd h (by decide)
  · exact (ne_of_mem_escape h).2 rfl
  · exact absurd h (by decide)
  · exact (ne_of_mem_escape h).2 rfl
  · exact absurd h (by decide)
  · exact m.superOptions_line h

/-- Without its carriage return a line is as before up to the file system type. -/
theorem trimmed_line (m : Mount) :
    ∃ rest, (if m.line.getLast? = some '\r' then m.line.dropLast else m.line) =
      m.leftText ++ separator ++ (escape m.fstype ++ ' ' :: rest) := by
  split
  next hlast =>
    rcases List.eq_nil_or_concat m.superOptions with hnil | ⟨s, x, hconcat⟩
    · rw [line, hnil, ← List.append_assoc, ← List.cons_append, ← List.append_assoc,
        List.getLast?_concat] at hlast
      cases hlast
    · refine ⟨escape m.source ++ ' ' :: s, ?_⟩
      rw [line, hconcat, List.concat_eq_append]
      have hsplit : m.leftText ++ separator ++ (escape m.fstype ++ ' ' :: (escape m.source ++
          ' ' :: (s ++ [x]))) = (m.leftText ++ separator ++ (escape m.fstype ++ ' ' ::
            (escape m.source ++ ' ' :: s))) ++ [x] := by simp
      rw [hsplit, List.dropLast_concat]
  · exact ⟨_, rfl⟩

/-- The loop over the lines goes over the mounts. -/
theorem findLinuxMount_render (habsolute : (Planner.pathComponents path).1 = true)
    {mounts : List Mount} (h : ∀ m ∈ mounts, m.Plain ∨ m.Unrelated path) :
    LinuxMount.findLinuxMount (render mounts) path =
      mounts.foldl (fun best m => LinuxMount.choose best (if Covers path m then some m.kept else none))
        none := by
  have hlines : ∀ best : Option LinuxMount,
      (PageResidency.linesFrom [] (render mounts)).foldl
          (fun best line => LinuxMount.choose best (LinuxMount.candidate path line)) best =
        mounts.foldl
          (fun best m => LinuxMount.choose best (if Covers path m then some m.kept else none)) best := by
    induction mounts with
    | nil => exact fun _ => rfl
    | cons m mounts ih =>
      intro best
      obtain ⟨rest, hrest⟩ := trimmed_line m
      have hrender : render (m :: mounts) = m.line ++ '\n' :: render mounts := by
        simp [render]
      rw [hrender, linesFrom_line (not_mem_line m), List.nil_append, hrest, List.foldl_cons,
        candidate_line habsolute (h m List.mem_cons_self), List.foldl_cons]
      exact ih (fun x hx => h x (List.mem_cons_of_mem _ hx)) _
  exact hlines none

/-! ## The choice of the mount -/

theorem byteLength_append (s t : List Char) : byteLength (s ++ t) = byteLength s + byteLength t := by
  rw [byteLength, List.map_append, List.sum_append]
  rfl

theorem byteLength_cons (c : Char) (s : List Char) : byteLength (c :: s) = c.utf8Size + byteLength s := rfl

theorem byteLength_pos {s : List Char} (h : s ≠ []) : 0 < byteLength s := by
  obtain ⟨c, rest, rfl⟩ := List.exists_cons_of_ne_nil h
  have hc := Char.utf8Size_pos c
  rw [byteLength_cons]
  omega

/-- Of two mount points above a path the one with more components has the longer text. -/
theorem byteLength_pointText_lt {p q : List (List Char)} (hq : ∀ name ∈ q, IsName name) (h : p <+: q)
    (hlt : p.length < q.length) : byteLength (pointText p) < byteLength (pointText q) := by
  obtain ⟨t, rfl⟩ := h
  obtain ⟨name, t, rfl⟩ : ∃ name rest, t = name :: rest := by
    refine List.exists_cons_of_ne_nil fun hnil => ?_
    rw [hnil, List.append_nil] at hlt
    exact Nat.lt_irrefl _ hlt
  have hname : 0 < byteLength name := byteLength_pos (hq name (by simp)).ne
  have hslash : '/'.utf8Size = 1 := rfl
  rw [pointText, pointText, if_neg (by simp : p ++ name :: t ≠ []), List.flatMap_append,
    List.flatMap_cons, byteLength_append, byteLength_append, byteLength_cons]
  split
  · rw [byteLength_cons]
    have hempty : byteLength [] = 0 := rfl
    omega
  · omega

theorem byteLength_lt_iff {a b : Mount} (ha : Covers path a) (hb : Covers path b) :
    byteLength a.kept.mountPoint < byteLength b.kept.mountPoint ↔ a.point.length < b.point.length := by
  have hnested : ∀ {a b : Mount}, Covers path a → Covers path b → a.point.length ≤ b.point.length →
      a.point <+: b.point := fun ha hb hle => List.prefix_of_prefix_length_le ha hb hle
  refine ⟨fun h => ?_, fun h => ?_⟩
  · by_contra hle
    have hpoint := hnested hb ha (Nat.not_lt.mp hle)
    rcases (Nat.not_lt.mp hle).lt_or_eq with hlt | heq
    · exact Nat.lt_asymm h (byteLength_pointText_lt a.point_names hpoint hlt)
    · have hsame : b.kept.mountPoint = a.kept.mountPoint :=
        congrArg pointText (hpoint.eq_of_length heq)
      rw [hsame] at h
      exact Nat.lt_irrefl _ h
  · exact byteLength_pointText_lt b.point_names (hnested ha hb h.le) h

variable {mounts : List Mount} {a b : Mount}

theorem ListedFirst.longest (h : ListedFirst path mounts a) :
    ∀ x ∈ mounts, Covers path x → x.point.length ≤ a.point.length := by
  obtain ⟨before, after, rfl, -, hbefore, hafter⟩ := h
  intro x hx hcovers
  rcases List.mem_append.mp hx with hx | hx
  · exact (hbefore x hx hcovers).le
  · rcases List.mem_cons.mp hx with rfl | hx
    · exact Nat.le_refl _
    · exact hafter x hx hcovers

theorem ListedFirst.append (h : ListedFirst path mounts a)
    (hb : Covers path b → b.point.length ≤ a.point.length) : ListedFirst path (mounts ++ [b]) a := by
  obtain ⟨before, after, rfl, hcovers, hbefore, hafter⟩ := h
  refine ⟨before, after ++ [b], by simp, hcovers, hbefore, fun x hx hx' => ?_⟩
  rcases List.mem_append.mp hx with hx | hx
  · exact hafter x hx hx'
  · rw [List.mem_singleton] at hx
    exact hb (hx ▸ hx') |> fun hle => hx ▸ hle

/-- The loop keeps the first listed of the mounts with the longest mount point. -/
theorem foldl_choose (path : String) (mounts : List Mount) :
    ((∀ m ∈ mounts, ¬Covers path m) ∧
      mounts.foldl (fun best m => LinuxMount.choose best (if Covers path m then some m.kept else none))
        none = none) ∨
    ∃ a, ListedFirst path mounts a ∧
      mounts.foldl (fun best m => LinuxMount.choose best (if Covers path m then some m.kept else none))
        none = some a.kept := by
  induction mounts using List.reverseRecOn with
  | nil => exact .inl ⟨fun m hm => absurd hm List.not_mem_nil, rfl⟩
  | append_singleton mounts m ih =>
    rw [List.foldl_concat]
    by_cases hm : Covers path m
    · rw [if_pos hm]
      rcases ih with ⟨hnone, hbest⟩ | ⟨a, ha, hbest⟩
      · refine .inr ⟨m, ⟨mounts, [], rfl, hm, fun x hx hcovers => absurd hcovers (hnone x hx),
          fun x hx => absurd hx List.not_mem_nil⟩, ?_⟩
        rw [hbest]
        rfl
      · have hcovers : Covers path a := by
          obtain ⟨_, _, _, h, -, -⟩ := ha
          exact h
        rw [hbest, LinuxMount.choose]
        simp only [byteLength_lt_iff hcovers hm]
        split
        next hlt =>
          exact .inr ⟨m, ⟨mounts, [], rfl, hm, fun x hx hx' => (ha.longest x hx hx').trans_lt hlt,
            fun x hx => absurd hx List.not_mem_nil⟩, rfl⟩
        next hle => exact .inr ⟨a, ha.append fun _ => Nat.not_lt.mp hle, rfl⟩
    · rw [if_neg hm]
      rcases ih with ⟨hnone, hbest⟩ | ⟨a, ha, hbest⟩
      · refine .inl ⟨fun x hx => ?_, hbest⟩
        rcases List.mem_append.mp hx with hx | hx
        · exact hnone x hx
        · rwa [List.mem_singleton.mp hx]
      · exact .inr ⟨a, ha.append fun h => absurd h hm, hbest⟩

/-- There is one first listed mount. -/
theorem ListedFirst.unique (ha : ListedFirst path mounts a) (hb : ListedFirst path mounts b) : a = b := by
  obtain ⟨before, after, rfl, hcovers, hbefore, hafter⟩ := ha
  obtain ⟨before', after', heq, hcovers', hbefore', hafter'⟩ := hb
  rcases List.append_eq_append_iff.mp heq with ⟨t, rfl, ht⟩ | ⟨t, rfl, ht⟩
  · cases t with
    | nil => exact (List.cons.inj ht).1
    | cons x t =>
      obtain ⟨rfl, rfl⟩ := List.cons.inj ht
      have hlt := hbefore' a (by simp) hcovers
      have hle := hafter b (by simp) hcovers'
      omega
  · cases t with
    | nil => exact (List.cons.inj ht).1.symm
    | cons x t =>
      obtain ⟨rfl, rfl⟩ := List.cons.inj ht
      have hlt := hbefore b (by simp) hcovers'
      have hle := hafter' a (by simp) hcovers
      omega

/-- The first and the last listed of the mounts stacked at the longest mount point above the
path are of one device and one file system type. -/
def StackAgrees (path : String) (mounts : List Mount) : Prop :=
  ∀ a b, ListedFirst path mounts a → InEffect path mounts b → a.device = b.device ∧ a.fstype = b.fstype

/-- Where the lines can be read, the mount in effect is found when what is stacked there agrees. -/
theorem findsEffective_iff (habsolute : (Planner.pathComponents path).1 = true)
    (h : ∀ m ∈ mounts, m.Plain ∨ m.Unrelated path) :
    FindsEffective mounts path ↔ StackAgrees path mounts := by
  rw [FindsEffective, findLinuxMount_render habsolute h]
  rcases foldl_choose path mounts with ⟨hnone, hbest⟩ | ⟨a, ha, hbest⟩
  · rw [hbest]
    refine ⟨fun _ a b hfirst => ?_, fun _ => ⟨fun m hm => ?_, fun _ => rfl⟩⟩
    · obtain ⟨before, after, rfl, hcovers, -⟩ := hfirst
      exact absurd hcovers (hnone a (by simp))
    · obtain ⟨before, after, rfl, hcovers, -⟩ := hm
      exact absurd hcovers (hnone m (by simp))
  · rw [hbest]
    refine ⟨fun hfinds a' b hfirst hb => ?_, fun hagrees => ⟨fun b hb => ?_, fun hnone => ?_⟩⟩
    · obtain ⟨found, hfound, hdevice, hfstype⟩ := hfinds.1 b hb
      cases hfound
      rw [hfirst.unique ha]
      exact ⟨hdevice, hfstype⟩
    · exact ⟨a.kept, rfl, hagrees a b ha hb⟩
    · obtain ⟨before, after, rfl, hcovers, -⟩ := ha
      exact absurd hcovers (hnone a (by simp))

/-! ## A stacked mount -/

/-- An automount point for the models, before anything is mounted over it. -/
def automount : Mount where
  id := 2
  parent := 1
  major := 0
  minor := 30
  root := ['/']
  point := ["models".toList]
  options := "rw".toList
  optional := []
  fstype := "autofs".toList
  source := "systemd-1".toList
  superOptions := "rw".toList
  root_start := ⟨'/', [], rfl, rfl⟩
  root_noDash := by decide
  point_names := by
    intro name hname
    rw [List.mem_singleton] at hname
    subst hname
    exact ⟨by decide, by decide, by decide⟩
  options_field := ⟨by simp, by decide, by decide⟩
  optional_fields := fun _ h => absurd h List.not_mem_nil
  fstype_ne := by decide
  superOptions_line := by decide

/-- The same mount point with another file system over it. -/
def overmount : Mount :=
  { automount with
    id := 3
    parent := 2
    minor := 42
    fstype := "nfs".toList
    source := "server:/models".toList
    fstype_ne := by decide }

def modelPath : String := "/models/model.gguf"

theorem automount_plain : automount.Plain where
  root := by simp [automount, isWhitespace]
  point := by simp [automount, isWhitespace]
  fstype := by simp [automount, isWhitespace]

theorem findsEffective_iff_automount :
    (Planner.pathComponents modelPath).1 = true ∧
      (∀ m ∈ [automount], m.Plain ∨ m.Unrelated modelPath) ∧
      (FindsEffective [automount] modelPath ↔ StackAgrees modelPath [automount]) := by
  have hplain : ∀ m ∈ [automount], m.Plain ∨ m.Unrelated modelPath := by
    intro m hm
    rw [List.mem_singleton.mp hm]
    exact .inl automount_plain
  exact ⟨by decide, hplain, findsEffective_iff (by decide) hplain⟩

/-- A mount over a mount point hides what was mounted there, and the code returns what is hidden. -/
theorem not_findsEffective_overmount : ¬FindsEffective [automount, overmount] modelPath := by
  intro h
  have heffect : InEffect modelPath [automount, overmount] overmount := by
    refine ⟨[automount], [], rfl, by decide, fun x hx _ => ?_, fun x hx => absurd hx List.not_mem_nil⟩
    rw [List.mem_singleton.mp hx]
    exact Nat.le_refl _
  obtain ⟨found, hfound, -, hfstype⟩ := h.1 overmount heffect
  have hcode : (LinuxMount.findLinuxMount (render [automount, overmount]) modelPath).map
      LinuxMount.filesystemType = some automount.fstype := by decide +kernel
  rw [hfound, Option.map_some, hfstype] at hcode
  exact absurd hcode (by decide)

end Mount
end Ramforge
