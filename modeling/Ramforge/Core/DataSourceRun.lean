/-
Sequences of reads under arbitrary faults of the operating system.

A read that returns has filled the whole buffer with the bytes at its offset, and
after every read, failed or not, a known position is the real one.
-/
import Ramforge.Core.DataSourceRead
import Ramforge.Core.ModelSetLayout

namespace Ramforge
namespace GgufDataSource

open Rust Rust.Exec

variable {source : GgufDataSource}

/-! ## One read -/

theorem readExactInto_post (htiled : Tiled source.files) (hcoherent : source.Coherent)
    (fileOffset : Nat) (answers : List Answer) (destination : List UInt8) :
    ReadPost source fileOffset destination.length
      (readExactInto fileOffset destination (answers, source)).1
      (readExactInto fileOffset destination (answers, source)).2 := by
  unfold readExactInto
  by_cases hempty : destination = []
  · subst hempty
    rw [if_pos rfl]
    exact ⟨Kept.refl hcoherent, rfl, fun j hj => absurd hj (Nat.not_lt_zero j)⟩
  · rw [if_neg hempty]
    apply loopOn_rule (I := Filling source fileOffset destination.length)
    · exact readRound_ok htiled
    · exact ⟨Kept.refl hcoherent, rfl, Nat.zero_le _, fun j hj => absurd hj (Nat.not_lt_zero j)⟩

theorem length_spare (memory : Nat → UInt8) (n : Nat) : (spare memory n).length = n := by
  rw [spare, List.length_map, List.length_range]

/-- A buffer that a read has returned in holds the range; after an error it is
empty. -/
def RangePost (source : GgufDataSource) (fileOffset len : Nat) (o : Outcome DataSourceError Unit)
    (s : List UInt8 × List Answer × GgufDataSource) : Prop :=
  Kept source s.2.2 ∧
    match o with
    | .ok _ => IsRange source.files fileOffset len s.1
    | .err _ => s.1 = []
    | .panic _ => False

theorem readRangeInto_post (htiled : Tiled source.files) (hcoherent : source.Coherent)
    (reserve : Reserve) (fileOffset len : Nat) (answers : List Answer) (buffer : List UInt8) :
    RangePost source fileOffset len
      (readRangeInto reserve fileOffset len (buffer, answers, source)).1
      (readRangeInto reserve fileOffset len (buffer, answers, source)).2 := by
  unfold readRangeInto
  rw [modify_bind_run]
  cases reserve with
  | error e => exact ⟨Kept.refl hcoherent, rfl⟩
  | ok memory =>
    have hpost := readExactInto_post htiled hcoherent fileOffset answers (spare memory len)
    rw [length_spare] at hpost
    show RangePost source fileOffset len ((onSnd _ >>= _) _).1 ((onSnd _ >>= _) _).2
    rw [bind_run, onSnd_run]
    obtain ⟨hkept, hresult⟩ := hpost
    rcases hrun : readExactInto fileOffset (spare memory len) (answers, source) with
      ⟨r | e | p, s'⟩ <;> rw [hrun] at hkept hresult
    · exact ⟨hkept, hresult⟩
    · exact ⟨hkept, rfl⟩
    · exact hresult.elim

theorem length_f32sOf (n : Nat) {bytes : List UInt8} (h : bytes.length = n * sizeOfF32) :
    (f32sOf bytes).length = n := by
  unfold sizeOfF32 at h
  fun_induction f32sOf bytes generalizing n with
  | case1 b₀ b₁ b₂ b₃ bytes ih =>
    simp only [List.length_cons] at h ⊢
    rw [ih (n - 1) (by omega)]
    omega
  | case2 bytes hshort =>
    match bytes, hshort with
    | [], _ | [_], _ | [_, _], _ | [_, _, _], _ =>
      simp only [List.length_cons, List.length_nil] at h ⊢
      omega
    | b₀ :: b₁ :: b₂ :: b₃ :: bytes, hshort => exact (hshort b₀ b₁ b₂ b₃ bytes rfl).elim

/-- The numbers of a range: its bytes, four to a number. -/
def IsF32Range (files : List (GgufShardLayout × List UInt8)) (fileOffset elementCount : Nat)
    (values : List UInt32) : Prop :=
  values.length = elementCount ∧
    ∃ bytes, IsRange files fileOffset (elementCount * sizeOfF32) bytes ∧ values = f32sOf bytes

def F32Post (source : GgufDataSource) (fileOffset elementCount : Nat)
    (o : Outcome DataSourceError (List UInt32)) (s : List Answer × GgufDataSource) : Prop :=
  Kept source s.2 ∧
    match o with
    | .ok values => IsF32Range source.files fileOffset elementCount values
    | .err _ => True
    | .panic _ => False

theorem readF32Range_post (htiled : Tiled source.files) (hcoherent : source.Coherent)
    (reserve : Reserve) (fileOffset elementCount : Nat) (answers : List Answer) :
    F32Post source fileOffset elementCount
      (readF32Range reserve fileOffset elementCount (answers, source)).1
      (readF32Range reserve fileOffset elementCount (answers, source)).2 := by
  unfold readF32Range
  rw [okOr_bind_run]
  cases hlen : checkedMul elementCount sizeOfF32 with
  | none => exact ⟨Kept.refl hcoherent, trivial⟩
  | some byteLength =>
    obtain ⟨_, rfl⟩ := checkedMul_eq_some.mp hlen
    by_cases hzero : elementCount = 0
    · subst hzero
      exact ⟨Kept.refl hcoherent, rfl, [], ⟨rfl, fun j hj => by omega⟩, rfl⟩
    cases reserve with
    | error e =>
      simp only [if_neg hzero]
      exact ⟨Kept.refl hcoherent, trivial⟩
    | ok memory =>
      have hpost := readExactInto_post htiled hcoherent fileOffset answers
        (spare memory (elementCount * sizeOfF32))
      rw [length_spare] at hpost
      simp only [if_neg hzero]
      show F32Post source fileOffset elementCount ((readExactInto _ _ >>= _) _).1
        ((readExactInto _ _ >>= _) _).2
      rw [bind_run]
      obtain ⟨hkept, hresult⟩ := hpost
      rcases hrun : readExactInto fileOffset (spare memory (elementCount * sizeOfF32))
        (answers, source) with ⟨r | e | p, s'⟩ <;> rw [hrun] at hkept hresult
      · exact ⟨hkept, length_f32sOf elementCount hresult.length, r.1, hresult, rfl⟩
      · exact ⟨hkept, trivial⟩
      · exact hresult.elim

/-! ## Sequences of reads -/

/-- A call of one of the two read entry points, with the memory it will be given. -/
inductive ReadCall where
  | range (reserve : Reserve) (fileOffset length : Nat) (buffer : List UInt8)
  | f32Range (reserve : Reserve) (fileOffset elementCount : Nat)

inductive Returned where
  | bytes (buffer : List UInt8)
  | f32s (values : List UInt32)

def ReadCall.run : ReadCall → Reading Returned
  | .range reserve fileOffset length buffer => fun s =>
    let r := readRangeInto reserve fileOffset length (buffer, s)
    (r.1.map fun _ => .bytes r.2.1, r.2.2)
  | .f32Range reserve fileOffset elementCount =>
    Returned.f32s <$> readF32Range reserve fileOffset elementCount

/-- What each call of a sequence returned, and the state at its end. -/
def runCalls : List ReadCall → List Answer × GgufDataSource →
    List (Outcome DataSourceError Returned) × (List Answer × GgufDataSource)
  | [], s => ([], s)
  | call :: calls, s =>
    let r := call.run s
    let rest := runCalls calls r.2
    (r.1 :: rest.1, rest.2)

/-- An answer that is no error is the range that was asked for. -/
def Correct (files : List (GgufShardLayout × List UInt8)) :
    ReadCall → Outcome DataSourceError Returned → Prop
  | .range _ fileOffset length _, .ok (.bytes buffer) => IsRange files fileOffset length buffer
  | .f32Range _ fileOffset elementCount, .ok (.f32s values) =>
    IsF32Range files fileOffset elementCount values
  | _, .ok _ => False
  | _, .err _ => True
  | _, .panic _ => False

theorem run_correct (htiled : Tiled source.files) (hcoherent : source.Coherent)
    (answers : List Answer) (call : ReadCall) :
    Kept source (call.run (answers, source)).2.2 ∧
      Correct source.files call (call.run (answers, source)).1 := by
  cases call with
  | range reserve fileOffset length buffer =>
    obtain ⟨hkept, hresult⟩ :=
      readRangeInto_post htiled hcoherent reserve fileOffset length answers buffer
    refine ⟨hkept, ?_⟩
    show Correct _ _ ((readRangeInto reserve fileOffset length (buffer, answers, source)).1.map _)
    rcases hrun : (readRangeInto reserve fileOffset length (buffer, answers, source)).1 with
      _ | e | p <;> rw [hrun] at hresult
    · exact hresult
    · trivial
    · exact hresult
  | f32Range reserve fileOffset elementCount =>
    obtain ⟨hkept, hresult⟩ :=
      readF32Range_post htiled hcoherent reserve fileOffset elementCount answers
    rw [ReadCall.run, map_run]
    refine ⟨hkept, ?_⟩
    rcases hrun : (readF32Range reserve fileOffset elementCount (answers, source)).1 with
      values | e | p <;> rw [hrun] at hresult
    · exact hresult
    · trivial
    · exact hresult

theorem runCalls_correct (htiled : Tiled source.files) (hcoherent : source.Coherent)
    (answers : List Answer) (calls : List ReadCall) :
    Kept source (runCalls calls (answers, source)).2.2 ∧
      List.Forall₂ (Correct source.files) calls (runCalls calls (answers, source)).1 := by
  induction calls generalizing source answers with
  | nil => exact ⟨Kept.refl hcoherent, List.Forall₂.nil⟩
  | cons call calls ih =>
    obtain ⟨hkept, hcorrect⟩ := run_correct htiled hcoherent answers call
    have htiled' : Tiled (call.run (answers, source)).2.2.files := by
      rw [hkept.files]
      exact htiled
    obtain ⟨hkept', hcorrect'⟩ := ih htiled' hkept.coherent (call.run (answers, source)).2.1
    rw [hkept.files] at hcorrect'
    exact ⟨hkept.trans hkept', List.Forall₂.cons hcorrect hcorrect'⟩

/-! ## From an opened model set -/

theorem mapM_ok {α β ε : Type} {f : α → Except ε β} {l : List α} {bs : List β}
    (h : l.mapM f = .ok bs) : List.Forall₂ (fun a b => f a = .ok b) l bs := by
  induction l generalizing bs with
  | nil =>
    rw [List.mapM_nil] at h
    cases h
    exact List.Forall₂.nil
  | cons a l ih =>
    rw [List.mapM_cons] at h
    cases ha : f a with
    | error e =>
      rw [ha] at h
      cases h
    | ok b =>
      cases hl : l.mapM f with
      | error e =>
        rw [ha, hl] at h
        cases h
      | ok rest =>
        rw [ha, hl] at h
        cases h
        exact List.Forall₂.cons ha (ih hl)

theorem ofFiles_coherent (set : GgufModelSet) (files : List FileBytes) :
    (ofFiles set files).Coherent := by
  intro shard hshard
  obtain ⟨_, _, rfl⟩ := List.mem_map.mp hshard
  intro p hp
  exact Option.some.inj hp

theorem ofFiles_files (set : GgufModelSet) (files : List FileBytes) :
    (ofFiles set files).files =
      (set.shardLayouts.zip files).map fun f => (f.1, f.2.bytes) := by
  show List.map _ (List.map _ _) = _
  rw [List.map_map]
  rfl

theorem ofFiles_tiled (set : GgufModelSet) {files : List FileBytes}
    (h : set.shardLayouts.length ≤ files.length) : Tiled (ofFiles set files).files := by
  have hlayouts : (ofFiles set files).files.map Prod.fst = set.shardLayouts := by
    rw [ofFiles_files, List.map_map]
    exact List.map_fst_zip h
  have htiles := set.shardLayouts_tiles
  rw [← hlayouts] at htiles
  exact ⟨_, htiles.of_map⟩

/-- What `open` makes of a set: one file to a layout. -/
def Opened (set : GgufModelSet) (openFile : String → Except IoError FileBytes)
    (source : GgufDataSource) : Prop :=
  ∃ files, List.Forall₂ (fun layout contents => openFile layout.path = .ok contents)
    set.shardLayouts files ∧ source = ofFiles set files

theorem openSet_opened {set : GgufModelSet} {openFile : String → Except IoError FileBytes}
    (h : openSet set openFile = .ok source) : Opened set openFile source := by
  unfold openSet at h
  cases hfiles : set.shardLayouts.mapM fun layout => openFile layout.path with
  | error e =>
    rw [hfiles] at h
    cases h
  | ok files =>
    rw [hfiles] at h
    cases h
    exact ⟨files, mapM_ok hfiles, rfl⟩

/-- In a set of one file an address is a place in the file. -/
theorem virtualByte_single {set : GgufModelSet} (hsingle : set.isSharded = false)
    (contents : FileBytes) {a : Nat} (ha : a < set.first.fileSize) :
    virtualByte (ofFiles set [contents]).files a = contents.bytes[a]? := by
  obtain ⟨l, hl, _, _, hstart, hend, hphysical⟩ := GgufModelSet.shardLayouts_single hsingle
  have hfiles : (ofFiles set [contents]).files = [(l, contents.bytes)] := by
    rw [ofFiles_files, hl]
    rfl
  have htiled : Tiled (ofFiles set [contents]).files := ofFiles_tiled set (by rw [hl]; exact Nat.le_refl _)
  have hmem : (l, contents.bytes) ∈ (ofFiles set [contents]).files := by
    rw [hfiles]
    exact List.mem_singleton_self _
  rw [virtualByte_of_mem htiled hmem (by omega) (by omega), hstart, hphysical]
  rfl

/-- Any sequence of reads on an opened set, under any faults: the cached positions
stay true, and every read that returns has returned the bytes of its range, which in
a set of one file are the bytes at the same place of that file. -/
theorem reads_sound (set : GgufModelSet) (openFile : String → Except IoError FileBytes)
    (source : GgufDataSource) (hopen : openSet set openFile = .ok source)
    (answers : List Answer) (calls : List ReadCall) :
    (runCalls calls (answers, source)).2.2.Coherent ∧
      List.Forall₂ (Correct source.files) calls (runCalls calls (answers, source)).1 ∧
      Opened set openFile source ∧
      (set.isSharded = false → ∀ contents, openFile set.first.path = .ok contents →
        ∀ a, a < set.first.fileSize → virtualByte source.files a = contents.bytes[a]?) := by
  have hopened := openSet_opened hopen
  obtain ⟨files, hfiles, rfl⟩ := id hopened
  have htiled : Tiled (ofFiles set files).files :=
    ofFiles_tiled set (Nat.le_of_eq hfiles.length_eq)
  obtain ⟨hkept, hcorrect⟩ := runCalls_correct htiled (ofFiles_coherent set files) answers calls
  refine ⟨hkept.coherent, hcorrect, hopened, ?_⟩
  intro hsingle contents hcontents a ha
  obtain ⟨l, hl, hpath, _⟩ := GgufModelSet.shardLayouts_single hsingle
  rw [hl] at hfiles
  obtain ⟨file, rest, hfile, hrest, rfl⟩ := List.forall₂_cons_left_iff.mp hfiles
  obtain rfl := List.forall₂_nil_left_iff.mp hrest
  rw [hpath] at hfile
  obtain rfl := Except.ok.inj (hfile.symm.trans hcontents)
  exact virtualByte_single hsingle file ha

/-- A shard of four tensor bytes behind a header of two. -/
def smallShard (path : String) : GgufModel where
  path := path
  fileSize := 6
  version := 3
  metadata := ∅
  tensors := []
  alignment := 32
  dataStartOffset := 2

def smallSet : GgufModelSet where
  path := "models"
  shards := [smallShard "a.gguf", smallShard "b.gguf"]
  nonempty := List.cons_ne_nil _ _

def smallContents : FileBytes := ⟨[0, 0, 1, 2, 3, 4], by decide⟩

def smallSource : GgufDataSource where
  model := smallSet.mergedModel
  shards := smallSet.shardLayouts.map fun layout =>
    { layout, state := { file := { contents := smallContents, cursor := 0 }, position := some 0 } }
  fileSize := 8

/-- A read across the shards that fails in the second one, and the same read again. -/
theorem reads_sound_retry :
    (runCalls [.range (.ok fun _ => 7) 2 4 [], .range (.ok fun _ => 7) 2 4 []]
        ([.serve, .serve, .fail (.os 5) 3], smallSource)).2.2.Coherent ∧
      List.Forall₂ (Correct smallSource.files)
        [.range (.ok fun _ => 7) 2 4 [], .range (.ok fun _ => 7) 2 4 []]
        (runCalls [.range (.ok fun _ => 7) 2 4 [], .range (.ok fun _ => 7) 2 4 []]
          ([.serve, .serve, .fail (.os 5) 3], smallSource)).1 := by
  have h := reads_sound smallSet (fun _ => .ok smallContents) smallSource rfl
    [.serve, .serve, .fail (.os 5) 3]
    [.range (.ok fun _ => 7) 2 4 [], .range (.ok fun _ => 7) 2 4 []]
  exact ⟨h.1, h.2.1⟩

end GgufDataSource
end Ramforge
