/-
What one read does to the files of a data source.

`FileState.Coherent` is the invariant of the cached position, and `chunk` the
bytes a physical read is to return.  A read keeps the invariant on every exit and
returns those bytes on success (`readChunk_cases`).
-/
import Ramforge.Core.DataSource
import Ramforge.Rust.Tiles

namespace Ramforge

open Rust Rust.Exec

namespace FileState

/-- A known position is where the cursor of the operating system stands. -/
def Coherent (st : FileState) : Prop := ∀ p, st.position = some p → st.file.cursor = p

/-- What a call on a file leaves behind, however it ends. -/
structure Kept (st st' : FileState) : Prop where
  contents : st'.file.contents = st.file.contents
  coherent : st'.Coherent

def chunk (st : FileState) (offset len : Nat) : List UInt8 :=
  (st.file.contents.bytes.drop offset).take len

variable {answers : List Answer} {st : FileState} {offset len : Nat}

theorem kept_of_position_none (st : FileState) (cursor : Nat) :
    Kept st { file := { st.file with cursor }, position := none } :=
  ⟨rfl, fun _ h => by cases h⟩

/-- The state in which the read of a chunk starts. -/
def atOffset (st : FileState) (offset : Nat) : FileState :=
  { file := { st.file with cursor := offset }, position := some offset }

theorem atOffset_of_position (h : st.Coherent) (hpos : st.position = some offset) :
    atOffset st offset = st := by
  have hcursor : st.file.cursor = offset := h offset hpos
  rw [atOffset, ← hpos, ← hcursor]

/-- After `ensure_file_position` the cursor is where the read starts, or the call
has failed and the position is forgotten. -/
theorem ensureFilePosition_cases (h : st.Coherent) (answers : List Answer) (offset : Nat) :
    ∃ answers',
      ensureFilePosition offset (answers, st) = (.ok (), (answers', atOffset st offset)) ∨
      ∃ e cursor, ensureFilePosition offset (answers, st) =
        (.err e, (answers', { file := { st.file with cursor }, position := none })) := by
  unfold ensureFilePosition
  rw [self_bind_run]
  by_cases hpos : st.position = some offset
  · refine ⟨answers, .inl ?_⟩
    rw [if_pos hpos, atOffset_of_position h hpos]
    rfl
  · refine ⟨answers.tail, ?_⟩
    rw [if_neg hpos]
    cases hanswer : answers.headD .serve with
    | serve =>
      refine .inl ?_
      simp only [seek, nextAnswer, bind_run, hanswer]
      rfl
    | fail error cursor =>
      refine .inr ⟨.io error, cursor, ?_⟩
      simp only [seek, nextAnswer, bind_run, hanswer]
      rfl

/-- With no fault to come the seek is served. -/
theorem ensureFilePosition_served (h : st.Coherent) :
    ensureFilePosition offset ([], st) = (.ok (), ([], atOffset st offset)) := by
  unfold ensureFilePosition
  rw [self_bind_run]
  by_cases hpos : st.position = some offset
  · rw [if_pos hpos, atOffset_of_position h hpos]
    rfl
  · rw [if_neg hpos]
    rfl

/-- The state a chunk read leaves behind. -/
def behind (st : FileState) (offset len : Nat) : FileState :=
  { file := { st.file with cursor := offset + len }, position := some (offset + len) }

theorem kept_behind (st : FileState) (offset len : Nat) : Kept st (behind st offset len) :=
  ⟨rfl, fun p h => by cases h; rfl⟩

theorem readExact_served (hlen : offset + len ≤ st.file.contents.bytes.length)
    (hanswer : answers.headD .serve = .serve) :
    readExact len (answers, atOffset st offset) =
      (.ok (.ok (chunk st offset len)),
        (answers.tail, { file := { st.file with cursor := offset + len },
                         position := some offset })) := by
  simp only [readExact, nextAnswer, bind_run, hanswer, self_run, atOffset, if_pos hlen]
  rfl

theorem readExact_failed (st : FileState)
    (h : ¬(offset + len ≤ st.file.contents.bytes.length ∧ answers.headD .serve = .serve)) :
    ∃ error cursor, readExact len (answers, atOffset st offset) =
      (.ok (.error error), (answers.tail, { file := { st.file with cursor },
                                            position := some offset })) := by
  cases hanswer : answers.headD .serve with
  | serve =>
    have hlen : ¬ offset + len ≤ st.file.contents.bytes.length := fun hle => h ⟨hle, hanswer⟩
    refine ⟨.unexpectedEof, max offset st.file.contents.bytes.length, ?_⟩
    simp only [readExact, nextAnswer, bind_run, hanswer, self_run, atOffset, if_neg hlen]
    rfl
  | fail error cursor =>
    refine ⟨error, cursor, ?_⟩
    simp only [readExact, nextAnswer, bind_run, hanswer, atOffset]
    rfl

/-- A file's bytes are counted in 63 bits, so the position after a read fits. -/
theorem checkedAdd_of_le_length (hlen : offset + len ≤ st.file.contents.bytes.length) :
    checkedAdd offset len = some (offset + len) := by
  have hlt := st.file.contents.length_lt
  apply checkedAdd_of_lt
  show _ < 2 ^ 64
  omega

theorem readChunk_of_served {answers' : List Answer}
    (hseek : ensureFilePosition offset (answers, st) = (.ok (), (answers', atOffset st offset)))
    (hlen : offset + len ≤ st.file.contents.bytes.length)
    (hanswer : answers'.headD .serve = .serve) :
    readChunk offset len (answers, st) =
      (.ok (chunk st offset len), (answers'.tail, behind st offset len)) := by
  unfold readChunk
  rw [bind_of_ok hseek, bind_of_ok (readExact_served hlen hanswer)]
  simp only [checkedAdd_of_le_length hlen, okOr_bind_run]
  rfl

/-- A chunk read fails, or returns the bytes at its offset. -/
theorem readChunk_cases (h : st.Coherent) (answers : List Answer) (offset len : Nat) :
    ∃ answers' st', Kept st st' ∧
      ((∃ e, readChunk offset len (answers, st) = (.err e, (answers', st'))) ∨
        offset + len ≤ st.file.contents.bytes.length ∧
          readChunk offset len (answers, st) = (.ok (chunk st offset len), (answers', st'))) := by
  obtain ⟨answers₁, hseek | ⟨e, cursor, hseek⟩⟩ := ensureFilePosition_cases h answers offset
  · by_cases hserved : offset + len ≤ st.file.contents.bytes.length ∧
      answers₁.headD .serve = .serve
    · refine ⟨answers₁.tail, behind st offset len, kept_behind st offset len, .inr ?_⟩
      exact ⟨hserved.1, readChunk_of_served hseek hserved.1 hserved.2⟩
    · obtain ⟨error, cursor, hread⟩ := readExact_failed st hserved
      refine ⟨answers₁.tail, _, kept_of_position_none st cursor, .inl ⟨.io error, ?_⟩⟩
      unfold readChunk
      rw [bind_of_ok hseek, bind_of_ok hread]
      rfl
  · refine ⟨answers₁, _, kept_of_position_none st cursor, .inl ⟨e, ?_⟩⟩
    unfold readChunk
    rw [bind_of_err hseek]

/-- Without faults a chunk inside the file is read. -/
theorem readChunk_served (h : st.Coherent)
    (hlen : offset + len ≤ st.file.contents.bytes.length) :
    readChunk offset len ([], st) = (.ok (chunk st offset len), ([], behind st offset len)) :=
  readChunk_of_served (ensureFilePosition_served h) hlen rfl

end FileState

namespace GgufDataSource

/-- The layouts and the bytes on disk, which no read changes. -/
def files (source : GgufDataSource) : List (GgufShardLayout × List UInt8) :=
  source.shards.map fun shard => (shard.layout, shard.state.file.contents.bytes)

def Coherent (source : GgufDataSource) : Prop := ∀ shard ∈ source.shards, shard.state.Coherent

/-- The byte at an address of the virtual data space: the byte of the shard that
covers the address, at its place in the shard's own file. -/
def virtualByte (files : List (GgufShardLayout × List UInt8)) (virtualOffset : Nat) :
    Option UInt8 :=
  (files.find? fun f => f.1.covers virtualOffset).bind fun f =>
    f.2[virtualOffset - f.1.virtualStart + f.1.physicalDataStart]?

/-- What a read leaves behind, however it ends. -/
structure Kept (source source' : GgufDataSource) : Prop where
  files : source'.files = source.files
  coherent : source'.Coherent

namespace Kept

variable {source source₁ source₂ : GgufDataSource}

theorem refl (h : source.Coherent) : Kept source source := ⟨rfl, h⟩

theorem trans (h₁ : Kept source source₁) (h₂ : Kept source₁ source₂) : Kept source source₂ :=
  ⟨h₂.files.trans h₁.files, h₂.coherent⟩

end Kept

variable {source : GgufDataSource} {answers : List Answer} {k : Nat} {shard : ShardSource}

/-- The data source with the file of shard `k` in another state. -/
def setState (source : GgufDataSource) (k : Nat) (shard : ShardSource) (st : FileState) :
    GgufDataSource :=
  { source with shards := source.shards.set k { shard with state := st } }

theorem map_set_of_eq {α β : Type} {l : List α} {f : α → β} {k : Nat} {a b : α}
    (hk : l[k]? = some a) (h : f b = f a) : (l.set k b).map f = l.map f := by
  apply List.ext_getElem?
  intro i
  rw [List.getElem?_map, List.getElem?_map]
  by_cases hi : k = i
  · subst hi
    obtain ⟨hlt, _⟩ := List.getElem?_eq_some_iff.mp hk
    rw [List.getElem?_set_self hlt, hk, Option.map_some, Option.map_some, h]
  · rw [List.getElem?_set_ne hi]

theorem kept_setState (hsource : source.Coherent) (hk : source.shards[k]? = some shard)
    {st : FileState} (hst : FileState.Kept shard.state st) :
    Kept source (setState source k shard st) := by
  constructor
  · apply map_set_of_eq hk
    show (shard.layout, st.file.contents.bytes) = _
    rw [hst.contents]
  · intro x hx
    rcases List.mem_or_eq_of_mem_set hx with hmem | rfl
    · exact hsource x hmem
    · exact hst.coherent

theorem withShard_run {α : Type} {call : FileState.Locked α} {o : Outcome DataSourceError α}
    {answers' : List Answer} {st : FileState} (hk : source.shards[k]? = some shard)
    (hcall : call (answers, shard.state) = (o, (answers', st))) :
    withShard k call (answers, source) = (o, (answers', setState source k shard st)) := by
  simp only [withShard, hk, hcall]
  rfl

theorem findShard_eq_some {shards : List ShardSource} {a : Nat}
    (h : findShard shards a = some (shard, k)) :
    shards[k]? = some shard ∧ shard.layout.covers a = true := by
  constructor
  · exact List.mk_mem_zipIdx_iff_getElem?.mp (List.mem_of_find?_eq_some h)
  · exact List.find?_some (p := fun p : ShardSource × Nat => p.1.layout.covers a) h

/-- The layouts lie one after another. -/
def Tiled (files : List (GgufShardLayout × List UInt8)) : Prop :=
  ∃ stop, Tiles (fun f => f.1.virtualStart) (fun f => f.1.virtualEnd) 0 files stop

theorem virtualByte_of_mem {files : List (GgufShardLayout × List UInt8)} (h : Tiled files)
    {layout : GgufShardLayout} {bytes : List UInt8} (hmem : (layout, bytes) ∈ files) {a : Nat}
    (hlo : layout.virtualStart ≤ a) (hhi : a < layout.virtualEnd) :
    virtualByte files a = bytes[a - layout.virtualStart + layout.physicalDataStart]? := by
  obtain ⟨stop, htiles⟩ := h
  have hfind : files.find? (fun f => f.1.covers a) = some (layout, bytes) :=
    htiles.find?_eq hmem hlo hhi
  rw [virtualByte, hfind]
  rfl

theorem mem_files (hk : source.shards[k]? = some shard) :
    (shard.layout, shard.state.file.contents.bytes) ∈ source.files :=
  List.mem_map.mpr ⟨shard, List.mem_of_getElem? hk, rfl⟩

/-- A chunk that stays inside one layout holds the bytes of its addresses. -/
theorem chunk_getElem? (h : Tiled source.files) (hk : source.shards[k]? = some shard) {a len j : Nat}
    (hlo : shard.layout.virtualStart ≤ a) (hhi : a + len ≤ shard.layout.virtualEnd)
    (hj : j < len) :
    (shard.state.chunk (a - shard.layout.virtualStart + shard.layout.physicalDataStart) len)[j]? =
      virtualByte source.files (a + j) := by
  rw [virtualByte_of_mem h (mem_files hk) (by omega) (by omega), FileState.chunk,
    List.getElem?_take_of_lt hj, List.getElem?_drop]
  congr 1
  omega

end GgufDataSource
end Ramforge

/-!
The loop of `read_exact_into`.

One round fills the destination up to the end of a layout or to its own end.
The invariant `Filling` is that what has been written is what the virtual data
space holds from `fileOffset` on; no failure of a seek or a read breaks it.
-/

namespace Ramforge
namespace GgufDataSource

open Rust Rust.Exec

variable {source : GgufDataSource} {fileOffset len : Nat}

/-- The bytes from `fileOffset` on, as many as were asked for. -/
structure IsRange (files : List (GgufShardLayout × List UInt8)) (fileOffset len : Nat)
    (bytes : List UInt8) : Prop where
  length : bytes.length = len
  bytes : ∀ j, j < len → bytes[j]? = virtualByte files (fileOffset + j)

/-- `source` is the data source before the read. -/
structure Filling (source : GgufDataSource) (fileOffset len : Nat) (l : ReadLocals)
    (s : List Answer × GgufDataSource) : Prop where
  kept : Kept source s.2
  length : l.destination.length = len
  written_le : l.written ≤ len
  filled : ∀ j, j < l.written → l.destination[j]? = virtualByte source.files (fileOffset + j)

def ReadPost (source : GgufDataSource) (fileOffset len : Nat)
    (o : Outcome DataSourceError (List UInt8 × Nat)) (s : List Answer × GgufDataSource) : Prop :=
  Kept source s.2 ∧
    match o with
    | .ok r => IsRange source.files fileOffset len r.1
    | .err _ => True
    | .panic _ => False

/-- What is written behind the written part extends it. -/
theorem getElem?_written {destination bytes : List UInt8} {written j : Nat} {f : Nat → Option UInt8}
    (hwritten : written ≤ destination.length)
    (hold : ∀ j, j < written → destination[j]? = f j)
    (hnew : ∀ j, j < bytes.length → bytes[j]? = f (written + j))
    (hj : j < written + bytes.length) :
    (destination.take written ++ bytes ++ destination.drop (written + bytes.length))[j]? = f j := by
  have htake : (destination.take written).length = written := by
    rw [List.length_take]
    omega
  rw [List.append_assoc]
  by_cases hlt : j < written
  · rw [List.getElem?_append_left (by omega), List.getElem?_take_of_lt hlt]
    exact hold j hlt
  · rw [List.getElem?_append_right (by omega), htake, List.getElem?_append_left (by omega),
      hnew (j - written) (by omega)]
    congr 1
    omega

theorem length_written {destination bytes : List UInt8} {written : Nat}
    (h : written + bytes.length ≤ destination.length) :
    (destination.take written ++ bytes ++ destination.drop (written + bytes.length)).length =
      destination.length := by
  rw [List.length_append, List.length_append, List.length_take, List.length_drop]
  omega

theorem length_chunk {st : FileState} {offset n : Nat}
    (h : offset + n ≤ st.file.contents.bytes.length) : (st.chunk offset n).length = n := by
  rw [FileState.chunk, List.length_take, List.length_drop]
  omega

/-- A chunk behind the written part, with the bytes of its addresses. -/
theorem Filling.advance {l : ReadLocals} {s s' : List Answer × GgufDataSource} {bytes : List UInt8}
    (h : Filling source fileOffset len l s) (hkept : Kept s.2 s'.2)
    (hfits : l.written + bytes.length ≤ l.destination.length)
    (hbytes : ∀ j, j < bytes.length →
      bytes[j]? = virtualByte source.files (fileOffset + (l.written + j))) :
    Filling source fileOffset len
      { destination := l.destination.take l.written ++ bytes ++
          l.destination.drop (l.written + bytes.length)
        written := l.written + bytes.length
        physicalOperations := l.physicalOperations + 1 } s' := by
  have hlength := length_written hfits
  refine ⟨h.kept.trans hkept, hlength.trans h.length, ?_, ?_⟩
  · show l.written + bytes.length ≤ len
    rw [← h.length]
    exact hfits
  · intro j hj
    have hwritten : l.written ≤ l.destination.length := by omega
    exact getElem?_written (f := fun j => virtualByte source.files (fileOffset + j)) hwritten
      h.filled hbytes hj

theorem readRound_ok (htiled : Tiled source.files) (l : ReadLocals)
    (s : List Answer × GgufDataSource) (h : Filling source fileOffset len l s) :
    RoundOk (fun l _ => l.left) (Filling source fileOffset len) (ReadPost source fileOffset len)
      l.left (readRound fileOffset l s) := by
  obtain ⟨answers, now⟩ := s
  have hkept : Kept source now := h.kept
  unfold readRound
  by_cases hdone : l.destination.length ≤ l.written
  · rw [if_pos hdone]
    have hwritten : l.written = len := by
      have := h.written_le
      have := h.length
      omega
    refine ⟨hkept, h.length, ?_⟩
    rw [← hwritten]
    exact h.filled
  rw [if_neg hdone, okOr_bind_run]
  cases hvirtual : checkedAdd fileOffset l.written with
  | none => exact ⟨hkept, trivial⟩
  | some a =>
    obtain ⟨_, rfl⟩ := checkedAdd_eq_some.mp hvirtual
    show RoundOk _ _ _ _ ((self >>= _) (answers, now))
    rw [self_bind_run, okOr_bind_run]
    cases hfind : findShard now.shards (fileOffset + l.written) with
    | none => exact ⟨hkept, trivial⟩
    | some found =>
      obtain ⟨shard, k⟩ := found
      obtain ⟨hk, hcovers⟩ := findShard_eq_some hfind
      obtain ⟨hlo, hhi⟩ := of_decide_eq_true hcovers
      show RoundOk _ _ _ _ ((okOr _ _ >>= _) (answers, now))
      rw [okOr_bind_run, checkedSub_of_le hlo, Option.bind_some]
      cases hphysical : checkedAdd (fileOffset + l.written - shard.layout.virtualStart)
          shard.layout.physicalDataStart with
      | none => exact ⟨hkept, trivial⟩
      | some physicalOffset =>
        obtain ⟨_, rfl⟩ := checkedAdd_eq_some.mp hphysical
        generalize hchunk : min (saturatingSub shard.layout.virtualEnd (fileOffset + l.written))
          (l.destination.length - l.written) = n
        have hn : 0 < n ∧ fileOffset + l.written + n ≤ shard.layout.virtualEnd ∧
            l.written + n ≤ l.destination.length := by
          unfold saturatingSub at hchunk
          omega
        obtain ⟨answers', st, hst, hrun⟩ := FileState.readChunk_cases
          (hkept.coherent shard (List.mem_of_getElem? hk)) answers
          (fileOffset + l.written - shard.layout.virtualStart + shard.layout.physicalDataStart) n
        have hnext := kept_setState hkept.coherent hk hst
        show RoundOk _ _ _ _ ((withShard k _ >>= _) (answers, now))
        rcases hrun with ⟨e, hrun⟩ | ⟨hfits, hrun⟩
        · -- the operating system failed, or the file is shorter than its layout
          rw [bind_of_err (withShard_run hk hrun)]
          exact ⟨hkept.trans hnext, trivial⟩
        · rw [bind_of_ok (withShard_run hk hrun)]
          have htiledNow : Tiled now.files := by
            rw [hkept.files]
            exact htiled
          have hbytes : ∀ j, j < n → (shard.state.chunk (fileOffset + l.written -
              shard.layout.virtualStart + shard.layout.physicalDataStart) n)[j]? =
                virtualByte source.files (fileOffset + (l.written + j)) := by
            intro j hj
            rw [chunk_getElem? htiledNow hk hlo hn.2.1 hj, hkept.files, Nat.add_assoc]
          have hlength := length_chunk hfits
          generalize shard.state.chunk _ n = bytes at hbytes hlength
          subst hlength
          refine ⟨h.advance hnext hn.2.2 hbytes, ?_⟩
          show (_ ++ _ ++ l.destination.drop _).length - (l.written + bytes.length) <
            l.destination.length - l.written
          rw [length_written hn.2.2]
          omega

/-! ## A read that meets no fault -/

variable {k a n : Nat} {shard : ShardSource} {destination : List UInt8}

theorem findShard_of_covers (htiled : Tiled source.files) (hk : source.shards[k]? = some shard)
    (hlo : shard.layout.virtualStart ≤ a) (hhi : a < shard.layout.virtualEnd) :
    findShard source.shards a = some (shard, k) := by
  obtain ⟨stop, htiles⟩ := htiled
  have hshards := htiles.of_map
  have hzip : source.shards.zipIdx.map Prod.fst = source.shards := List.zipIdx_map_fst 0 _
  rw [← hzip] at hshards
  exact hshards.of_map.find?_eq (List.mk_mem_zipIdx_iff_getElem?.mpr hk) hlo hhi

theorem readRound_served (hcoherent : source.Coherent) (htiled : Tiled source.files)
    (hk : source.shards[k]? = some shard) (hlo : shard.layout.virtualStart ≤ a)
    (hhi : a + n ≤ shard.layout.virtualEnd) (ha : a < u64Bound) (hn : 0 < n)
    (hdestination : destination.length = n)
    (hfits : a - shard.layout.virtualStart + shard.layout.physicalDataStart + n ≤
      shard.state.file.contents.bytes.length) :
    ∃ source', readRound a { destination, written := 0, physicalOperations := 0 } ([], source) =
      (.ok (.again {
        destination := shard.state.chunk
          (a - shard.layout.virtualStart + shard.layout.physicalDataStart) n
        written := n
        physicalOperations := 1 }), ([], source')) := by
  have hlength := shard.state.file.contents.length_lt
  have hphysical : checkedAdd (a - shard.layout.virtualStart) shard.layout.physicalDataStart =
      some (a - shard.layout.virtualStart + shard.layout.physicalDataStart) := by
    apply checkedAdd_of_lt
    show _ < 2 ^ 64
    omega
  have hmin : min (saturatingSub shard.layout.virtualEnd a) destination.length = n := by
    unfold saturatingSub
    omega
  have hrun := FileState.readChunk_served (hcoherent shard (List.mem_of_getElem? hk)) hfits
  have hfind : findShard source.shards a = some (shard, k) :=
    findShard_of_covers htiled hk hlo (by omega)
  refine ⟨setState source k shard (shard.state.behind
    (a - shard.layout.virtualStart + shard.layout.physicalDataStart) n), ?_⟩
  have hleft : ¬destination.length ≤ 0 := by omega
  unfold readRound
  rw [if_neg hleft, checkedAdd_of_lt (show a + 0 < u64Bound from ha)]
  simp only [okOr_some, pure_bind_run, self_bind_run, hfind, Nat.add_zero, checkedSub_of_le hlo,
    Option.bind_some, hphysical, Nat.sub_zero, hmin, Nat.zero_add]
  rw [bind_of_ok (withShard_run hk hrun)]
  simp only [pure_run, List.take_zero, List.nil_append,
    List.drop_eq_nil_of_le (Nat.le_of_eq hdestination), List.append_nil]

/-- A range inside one layout is one physical read. -/
theorem readExactInto_served (hcoherent : source.Coherent) (htiled : Tiled source.files)
    (hk : source.shards[k]? = some shard) (hlo : shard.layout.virtualStart ≤ a)
    (hhi : a + n ≤ shard.layout.virtualEnd) (ha : a < u64Bound) (hn : 0 < n)
    (hdestination : destination.length = n)
    (hfits : a - shard.layout.virtualStart + shard.layout.physicalDataStart + n ≤
      shard.state.file.contents.bytes.length) :
    (readExactInto a destination ([], source)).1 =
      .ok (shard.state.chunk
        (a - shard.layout.virtualStart + shard.layout.physicalDataStart) n, 1) := by
  have hne : destination ≠ [] := by
    intro h
    rw [h, List.length_nil] at hdestination
    omega
  obtain ⟨source', hround⟩ := readRound_served hcoherent htiled hk hlo hhi ha hn hdestination hfits
  obtain ⟨m, hm⟩ : ∃ m, destination.length + 1 = m + 2 := ⟨n - 1, by omega⟩
  rw [readExactInto, if_neg hne, loopOn, ReadLocals.left, Nat.sub_zero, hm, loopN,
    bind_of_ok hround]
  show (loopN (readRound a) (m + 1) _ ([], source')).1 = _
  rw [loopN, readRound, if_pos (Nat.le_of_eq (length_chunk hfits))]
  rfl

end GgufDataSource
end Ramforge
