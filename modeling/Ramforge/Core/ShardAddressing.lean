/-
Reading a tensor of a shard set through the virtual data space.

A tensor whose data starts at or behind the data section of its shard keeps its
place relative to the section, and the merged offset leads back to it.  A tensor
in front of the section is moved to the section's start (`remap` saturates), where
other bytes lie.
-/
import Ramforge.Core.DataSourceRun
import Ramforge.Core.ModelSetAssembly
import Ramforge.Core.GgufRoundTrip

namespace Ramforge
namespace ModelSet

open Rust Rust.Exec Gguf GgufModelSet GgufDataSource

/-- The files of the shards, each of which parses to its shard. -/
def OwnFiles (set : GgufModelSet) (files : List FileBytes) : Prop :=
  List.Forall₂ (fun shard file => parseGgufFile shard.path file = .ok shard) set.shards files

/-- Every sub-range of the tensor, read through the merged descriptor of that name in
a fault-free state, is the same range of `file`, read with at most one physical
read. -/
def ReadsFrom (set : GgufModelSet) (files : List FileBytes) (file : FileBytes)
    (t : TensorDescriptor) (len : Nat) : Prop :=
  ∃ merged, (ofFiles set files).getDescriptor t.name = .ok merged ∧ merged.byteLength = some len ∧
    ∀ source, Kept (ofFiles set files) source → ∀ start destination,
      start + destination.length ≤ len →
        ∃ operations, operations ≤ 1 ∧
          (readExactInto (merged.fileOffset + start) destination ([], source)).1 =
            .ok ((file.bytes.drop (t.fileOffset + start)).take destination.length, operations)

/-- The layouts partition the virtual data space, and every tensor of known length is
read from its own shard's file. -/
structure Addressed (set : GgufModelSet) : Prop where
  partitioned : Partitioned set
  reads : ∀ files, OwnFiles set files → ∀ (i : Nat) (shard : GgufModel) (file : FileBytes),
    set.shards[i]? = some shard → files[i]? = some file →
      ∀ t ∈ shard.tensors, ∀ len, t.byteLength = some len → ReadsFrom set files file t len

/-- The condition on the parsed shards. -/
def Addressable (candidates : List GgufModel) : Prop :=
  candidates.length ≤ 1 ∨
    (∀ m ∈ candidates, ∀ t ∈ m.tensors, ∀ len, t.byteLength = some len → 0 < len →
      m.dataStartOffset ≤ t.fileOffset) ∧
    (candidates.map GgufModel.dataLength).sum < u64Bound

/-! ## Files and descriptors -/

variable {set : GgufModelSet} {files : List FileBytes} {shard : GgufModel} {file : FileBytes}
  {t : TensorDescriptor} {i : Nat}

theorem find?_of_nodup {α : Type} {l : List α} {f : α → String} {a : α}
    (h : (l.map f).Nodup) (ha : a ∈ l) : l.find? (fun b => f b = f a) = some a := by
  induction l with
  | nil => cases ha
  | cons b l ih =>
    rw [List.map_cons, List.nodup_cons] at h
    rcases List.mem_cons.mp ha with rfl | hmem
    · exact List.find?_cons_of_pos (decide_eq_true rfl)
    · have hne : f b ≠ f a := fun heq => h.1 (heq ▸ List.mem_map_of_mem hmem)
      rw [List.find?_cons_of_neg (by simpa using hne)]
      exact ih h.2 hmem

theorem getDescriptor_of_mem (files : List FileBytes) {merged : TensorDescriptor}
    (hnodup : (set.mergedModel.tensors.map TensorDescriptor.name).Nodup)
    (hmem : merged ∈ set.mergedModel.tensors) :
    (ofFiles set files).getDescriptor merged.name = .ok merged := by
  have hfind := find?_of_nodup hnodup hmem
  unfold getDescriptor
  rw [show (ofFiles set files).model.tensors.find? (fun t => t.name = merged.name) = some merged
    from hfind]

theorem OwnFiles.length_eq (h : OwnFiles set files) : files.length = set.shards.length :=
  (List.Forall₂.length_eq h).symm

theorem OwnFiles.parse (h : OwnFiles set files) (hshard : set.shards[i]? = some shard)
    (hfile : files[i]? = some file) : parseGgufFile shard.path file = .ok shard := by
  obtain ⟨hi, hshard⟩ := List.getElem?_eq_some_iff.mp hshard
  obtain ⟨hi', hfile⟩ := List.getElem?_eq_some_iff.mp hfile
  have hget := (List.forall₂_iff_get.mp h).2 i hi hi'
  rw [List.get_eq_getElem, List.get_eq_getElem, hshard, hfile] at hget
  exact hget

theorem OwnFiles.fileSize (h : OwnFiles set files) (hshard : set.shards[i]? = some shard)
    (hfile : files[i]? = some file) : shard.fileSize = file.bytes.length := by
  obtain ⟨_, _, _, _, _, hmodel⟩ := parseGgufFile_cases (h.parse hshard hfile)
  rw [hmodel]
  rfl

theorem OwnFiles.tiled (h : OwnFiles set files) : Tiled (ofFiles set files).files := by
  apply ofFiles_tiled
  rw [length_shardLayouts, h.length_eq]

/-- The open shard at place `i` of a data source that has the files of the set. -/
theorem exists_shardSource {l : GgufShardLayout} {source : GgufDataSource}
    (hkept : Kept (ofFiles set files) source) (hlayout : set.shardLayouts[i]? = some l)
    (hfile : files[i]? = some file) :
    ∃ x, source.shards[i]? = some x ∧ x.layout = l ∧ x.state.file.contents.bytes = file.bytes := by
  have hfiles : source.files[i]? = some (l, file.bytes) := by
    rw [hkept.files, ofFiles_files, List.getElem?_map,
      (List.getElem?_zip_eq_some (z := (l, file))).mpr ⟨hlayout, hfile⟩]
    rfl
  unfold GgufDataSource.files at hfiles
  rw [List.getElem?_map] at hfiles
  obtain ⟨x, hx, hpair⟩ := Option.map_eq_some_iff.mp hfiles
  exact ⟨x, hx, congrArg Prod.fst hpair, congrArg Prod.snd hpair⟩

/-- A range of the virtual data space that lies in layout `i` is read from file `i`. -/
theorem read_of_layout {l : GgufShardLayout} {source : GgufDataSource} (a : Nat)
    (destination : List UInt8) (hown : OwnFiles set files) (hkept : Kept (ofFiles set files) source)
    (hlayout : set.shardLayouts[i]? = some l) (hfile : files[i]? = some file)
    (hlo : l.virtualStart ≤ a) (hhi : a + destination.length ≤ l.virtualEnd) (ha : a < u64Bound)
    (hfits : a - l.virtualStart + l.physicalDataStart + destination.length ≤ file.bytes.length) :
    ∃ operations, operations ≤ 1 ∧ (readExactInto a destination ([], source)).1 =
      .ok ((file.bytes.drop (a - l.virtualStart + l.physicalDataStart)).take destination.length,
        operations) := by
  by_cases hempty : destination = []
  · subst hempty
    exact ⟨0, Nat.zero_le _, rfl⟩
  · obtain ⟨x, hx, rfl, hbytes⟩ := exists_shardSource hkept hlayout hfile
    have htiled : Tiled source.files := by
      rw [hkept.files]
      exact hown.tiled
    rw [← hbytes] at hfits ⊢
    exact ⟨1, Nat.le_refl _, readExactInto_served hkept.coherent htiled hx hlo hhi ha
      (List.length_pos_of_ne_nil hempty) rfl hfits⟩

/-! ## A set of one file -/

theorem addressed_of_single (hsingle : set.isSharded = false) {candidates : List GgufModel}
    (haccepted : Accepted candidates set) : Addressed set := by
  refine ⟨partitioned_of_single hsingle, ?_⟩
  intro files hown i shard file hshard hfile t ht len hlen
  obtain ⟨l, hl, _, _, hstart, hend, hphysical⟩ := shardLayouts_single hsingle
  have hone : set.shards.length = 1 := by
    rw [← length_shardLayouts, hl]
    rfl
  obtain ⟨first, hfirst⟩ := List.length_eq_one_iff.mp hone
  obtain ⟨hi, _⟩ := List.getElem?_eq_some_iff.mp hshard
  obtain rfl : i = 0 := by omega
  have hset : set.first = shard := by
    rw [hfirst] at hshard
    obtain rfl := Option.some.inj hshard
    unfold GgufModelSet.first
    simp only [hfirst, List.head_cons]
  have hmerged : set.mergedModel.tensors = shard.tensors := by
    rw [mergedModel, hsingle, ← hset]
    rfl
  have hnodup : (set.mergedModel.tensors.map TensorDescriptor.name).Nodup := by
    have hnames := haccepted.names_nodup
    rw [hmerged]
    rw [hfirst] at hnames hshard
    obtain rfl := Option.some.inj hshard
    rw [List.flatMap_singleton] at hnames
    exact hnames
  have hmem := List.mem_of_getElem? hshard
  obtain ⟨hlt, hle⟩ := haccepted.inFile shard hmem t ht len hlen
  have hsize := hown.fileSize hshard hfile
  refine ⟨t, getDescriptor_of_mem files hnodup (by rw [hmerged]; exact ht), hlen, ?_⟩
  intro source hkept start destination hrange
  have hlayout : set.shardLayouts[0]? = some l := by
    rw [hl]
    rfl
  rw [hset] at hend
  by_cases hempty : destination.length = 0
  · obtain rfl := List.length_eq_zero_iff.mp hempty
    exact ⟨0, Nat.zero_le _, rfl⟩
  have hread := read_of_layout (t.fileOffset + start) destination hown hkept hlayout
    hfile (by omega) (by omega) (by omega) (by omega)
  rw [hstart, hphysical] at hread
  exact hread

/-! ## A sharded set -/

section Sharded

variable {candidates : List GgufModel} (hsharded : set.isSharded = true)
  (haccepted : Accepted candidates set)

include hsharded

theorem shardLayouts_eq : set.shardLayouts = layoutsFrom 0 set.shards := by
  rw [shardLayouts, hsharded]
  rfl

theorem mergedTensors_eq : set.mergedModel.tensors = mergedFrom 0 set.shards := by
  rw [mergedModel, hsharded]
  rfl

/-- The layout of shard `i`. -/
theorem exists_layout (hshard : set.shards[i]? = some shard) :
    ∃ l, set.shardLayouts[i]? = some l ∧ l.dataLength = shard.dataLength ∧
      l.physicalDataStart = shard.dataStartOffset ∧
      ∀ t ∈ shard.tensors,
        remap l.virtualStart shard.dataStartOffset t ∈ set.mergedModel.tensors := by
  obtain ⟨hi, _⟩ := List.getElem?_eq_some_iff.mp hshard
  rw [← length_shardLayouts] at hi
  have hlayout := List.getElem?_eq_getElem hi
  refine ⟨_, hlayout, ?_⟩
  rw [mergedTensors_eq hsharded]
  rw [List.getElem?_eq_some_iff] at hlayout
  generalize set.shardLayouts[i] = l at *
  have hl : (layoutsFrom 0 set.shards)[i]? = some l := by
    rw [← shardLayouts_eq hsharded]
    exact List.getElem?_eq_some_iff.mpr hlayout
  obtain ⟨shard', hshard', hlength, hphysical, hmerged⟩ := layoutsFrom_getElem? hl
  obtain rfl := Option.some.inj (hshard'.symm.trans hshard)
  exact ⟨hlength, hphysical, hmerged⟩

include haccepted

theorem getDescriptor_remap (files : List FileBytes) {l : GgufShardLayout}
    (hmem : remap l.virtualStart shard.dataStartOffset t ∈ set.mergedModel.tensors) :
    (ofFiles set files).getDescriptor t.name =
      .ok (remap l.virtualStart shard.dataStartOffset t) := by
  have hnodup : (set.mergedModel.tensors.map TensorDescriptor.name).Nodup := by
    rw [mergedTensors_eq hsharded, map_name_mergedFrom]
    exact haccepted.names_nodup
  exact getDescriptor_of_mem files hnodup hmem

theorem addressed_of_sharded
    (hstart : ∀ m ∈ set.shards, ∀ t ∈ m.tensors, ∀ len, t.byteLength = some len → 0 < len →
      m.dataStartOffset ≤ t.fileOffset)
    (hsum : (set.shards.map GgufModel.dataLength).sum < u64Bound) : Addressed set := by
  have hpartitioned := (partitioned_iff hsharded).mpr hsum
  refine ⟨hpartitioned, ?_⟩
  intro files hown i shard file hshard hfile t ht len hlen
  obtain ⟨l, hlayout, hlength, hphysical, hmerged⟩ := exists_layout hsharded hshard
  have hmem := List.mem_of_getElem? hshard
  obtain ⟨_, hle⟩ := haccepted.inFile shard hmem t ht len hlen
  have hsize := hown.fileSize hshard hfile
  refine ⟨_, getDescriptor_remap hsharded haccepted files (hmerged t ht), hlen, ?_⟩
  intro source hkept start destination hrange
  by_cases hempty : destination.length = 0
  · obtain rfl := List.length_eq_zero_iff.mp hempty
    exact ⟨0, Nat.zero_le _, rfl⟩
  have hbehind := hstart shard hmem t ht len hlen (by omega)
  have hwhole := hpartitioned.whole l (List.mem_of_getElem? hlayout)
  have hend := (hpartitioned.tiles.bounds (List.mem_of_getElem? hlayout)).2
  have hsizeLt := virtualSize_lt hsharded
  have hdata : shard.dataLength = shard.fileSize - shard.dataStartOffset := rfl
  have hoffset : (remap l.virtualStart shard.dataStartOffset t).fileOffset =
      l.virtualStart + (t.fileOffset - shard.dataStartOffset) :=
    saturatingAdd_of_lt (show l.virtualStart + (t.fileOffset - shard.dataStartOffset) < _ by omega)
  rw [hoffset]
  have hread := read_of_layout (l.virtualStart + (t.fileOffset - shard.dataStartOffset) + start)
    destination hown hkept hlayout hfile (by omega) (by omega) (by omega) (by omega)
  rw [hphysical, show l.virtualStart + (t.fileOffset - shard.dataStartOffset) + start -
    l.virtualStart + shard.dataStartOffset = t.fileOffset + start by omega] at hread
  exact hread

/-! ### A tensor in front of its data section

Its merged offset is the start of its layout.  Were the read of its first byte right
for the given files, it would still be right after a change of the byte that the
read returns, which is behind the header of some shard. -/

theorem virtualByte_start (haddressed : Addressed set) (hown : OwnFiles set files)
    (hshard : set.shards[i]? = some shard) (hfile : files[i]? = some file)
    (ht : t ∈ shard.tensors) {len : Nat} (hlen : t.byteLength = some len) (hpos : 0 < len)
    (hbefore : t.fileOffset < shard.dataStartOffset) {l : GgufShardLayout}
    (hlayout : set.shardLayouts[i]? = some l)
    (hmerged : remap l.virtualStart shard.dataStartOffset t ∈ set.mergedModel.tensors) :
    virtualByte (ofFiles set files).files l.virtualStart = file.bytes[t.fileOffset]? := by
  have hcoherent := ofFiles_coherent set files
  obtain ⟨merged, hdescriptor, _, hreads⟩ :=
    haddressed.reads files hown i shard file hshard hfile t ht len hlen
  have hremap := getDescriptor_remap hsharded haccepted files hmerged
  obtain rfl := Except.ok.inj (hremap.symm.trans hdescriptor)
  obtain ⟨operations, _, hread⟩ := hreads _ (Kept.refl hcoherent) 0 [0] hpos
  have hsize := virtualSize_lt hsharded
  have hbounds := set.shardLayouts_tiles.bounds (List.mem_of_getElem? hlayout)
  have hle := haddressed.partitioned.whole l (List.mem_of_getElem? hlayout)
  have hoffset : (remap l.virtualStart shard.dataStartOffset t).fileOffset = l.virtualStart := by
    show saturatingAdd l.virtualStart (t.fileOffset - shard.dataStartOffset) = _
    rw [Nat.sub_eq_zero_of_le (Nat.le_of_lt hbefore)]
    exact saturatingAdd_of_lt (by omega)
  rw [hoffset, Nat.add_zero, Nat.add_zero] at hread
  have hpost := (readExactInto_post hown.tiled hcoherent l.virtualStart [] [0]).2
  rw [hread] at hpost
  have hbyte := hpost.bytes 0 Nat.zero_lt_one
  rw [Nat.add_zero, List.length_singleton, List.getElem?_take_of_lt Nat.zero_lt_one,
    List.getElem?_drop, Nat.add_zero] at hbyte
  exact hbyte.symm

omit hsharded haccepted in
theorem mem_ofFiles {f : GgufShardLayout × List UInt8} :
    f ∈ (ofFiles set files).files ↔
      ∃ (k : Nat) (c : FileBytes), set.shardLayouts[k]? = some f.1 ∧ files[k]? = some c ∧
        f.2 = c.bytes := by
  rw [ofFiles_files, List.mem_map]
  constructor
  · rintro ⟨g, hg, rfl⟩
    obtain ⟨k, hk⟩ := List.mem_iff_getElem?.mp hg
    obtain ⟨hlayout, hfile⟩ := List.getElem?_zip_eq_some.mp hk
    exact ⟨k, g.2, hlayout, hfile, rfl⟩
  · rintro ⟨k, c, hlayout, hfile, hbytes⟩
    refine ⟨(f.1, c), List.mem_iff_getElem?.mpr ⟨k, ?_⟩, Prod.ext rfl hbytes.symm⟩
    exact List.getElem?_zip_eq_some.mpr ⟨hlayout, hfile⟩

omit hsharded haccepted in
theorem OwnFiles.set_file {k : Nat} {s : GgufModel} {file' : FileBytes} (h : OwnFiles set files)
    (hs : set.shards[k]? = some s) (hparse : parseGgufFile s.path file' = .ok s) :
    OwnFiles set (files.set k file') := by
  refine List.forall₂_iff_get.mpr ⟨?_, ?_⟩
  · rw [List.length_set, h.length_eq]
  · intro j hj hj'
    rw [List.get_eq_getElem, List.get_eq_getElem, List.getElem_set]
    split
    · next heq =>
      subst heq
      obtain ⟨_, hget⟩ := List.getElem?_eq_some_iff.mp hs
      rw [hget]
      exact hparse
    · rw [List.length_set] at hj'
      exact h.parse (List.getElem?_eq_getElem hj) (List.getElem?_eq_getElem hj')

omit hsharded haccepted in
theorem exists_ownFiles (h : ∀ m ∈ set.shards, ∃ file, parseGgufFile m.path file = .ok m) :
    ∃ files, OwnFiles set files := by
  unfold OwnFiles
  generalize set.shards = shards at h
  induction shards with
  | nil => exact ⟨[], List.Forall₂.nil⟩
  | cons m shards ih =>
    obtain ⟨file, hfile⟩ := h m (List.mem_cons_self ..)
    obtain ⟨files, hfiles⟩ := ih fun m hm => h m (List.mem_cons_of_mem _ hm)
    exact ⟨file :: files, List.Forall₂.cons hfile hfiles⟩

theorem start_of_addressed (haddressed : Addressed set) (hown : OwnFiles set files)
    (hshard : set.shards[i]? = some shard) (ht : t ∈ shard.tensors) {len : Nat}
    (hlen : t.byteLength = some len) (hpos : 0 < len) : shard.dataStartOffset ≤ t.fileOffset := by
  by_contra hbefore
  have hbefore := Nat.lt_of_not_le hbefore
  obtain ⟨hi, _⟩ := List.getElem?_eq_some_iff.mp hshard
  rw [← hown.length_eq] at hi
  have hfile : files[i]? = some files[i] := List.getElem?_eq_getElem hi
  obtain ⟨l, hlayout, _, _, hmerged⟩ := exists_layout hsharded hshard
  have hbyte := virtualByte_start hsharded haccepted haddressed hown hshard hfile ht hlen hpos
    hbefore hlayout (hmerged t ht)
  have hinside : t.fileOffset < files[i].bytes.length := by
    have hle := (haccepted.inFile shard (List.mem_of_getElem? hshard) t ht len hlen).2
    rw [hown.fileSize hshard hfile] at hle
    omega
  rw [List.getElem?_eq_getElem hinside] at hbyte
  generalize hb : files[i].bytes[t.fileOffset] = b at hbyte
  -- the byte comes from file `k`, at a place behind that file's header
  obtain ⟨f, hfind, hplace⟩ := Option.bind_eq_some_iff.mp hbyte
  have hcovers : f.1.covers l.virtualStart = true :=
    List.find?_some (p := fun f : GgufShardLayout × List UInt8 => f.1.covers l.virtualStart) hfind
  obtain ⟨hlo, hhi⟩ := of_decide_eq_true hcovers
  obtain ⟨k, c, hlayoutK, hfileK, hbytesK⟩ := mem_ofFiles.mp (List.mem_of_find?_eq_some hfind)
  have hlayoutK' := hlayoutK
  rw [shardLayouts_eq hsharded] at hlayoutK'
  obtain ⟨shardK, hshardK, _, hphysical, _⟩ := layoutsFrom_getElem? hlayoutK'
  rw [hbytesK, hphysical] at hplace
  generalize hp : l.virtualStart - f.1.virtualStart + shardK.dataStartOffset = p at hplace
  have hbehind : shardK.dataStartOffset ≤ p := by omega
  obtain ⟨hpLt, _⟩ := List.getElem?_eq_some_iff.mp hplace
  -- change that byte
  let c' : FileBytes := ⟨c.bytes.set p (b + 1), by rw [List.length_set]; exact c.length_lt⟩
  have hparse : parseGgufFile shardK.path c' = .ok shardK :=
    parseGgufFile_set (hown.parse hshardK hfileK) hbehind rfl
  have hown' := hown.set_file hshardK hparse
  obtain ⟨file', hfile', hsame⟩ : ∃ file', (files.set k c')[i]? = some file' ∧
      file'.bytes[t.fileOffset]? = some b := by
    by_cases hki : k = i
    · subst hki
      refine ⟨c', by rw [List.getElem?_set_self hi], ?_⟩
      obtain rfl := Option.some.inj (hshard.symm.trans hshardK)
      obtain rfl := Option.some.inj (hfile.symm.trans hfileK)
      rw [show c'.bytes = files[k].bytes.set p (b + 1) from rfl,
        List.getElem?_set_ne (by omega), List.getElem?_eq_getElem hinside, hb]
    · exact ⟨files[i], by rw [List.getElem?_set_ne hki, hfile], by
        rw [List.getElem?_eq_getElem hinside, hb]⟩
  have hbyte' := virtualByte_start hsharded haccepted haddressed hown' hshard hfile' ht hlen hpos
    hbefore hlayout (hmerged t ht)
  obtain ⟨hk, _⟩ := List.getElem?_eq_some_iff.mp hfileK
  have hmem : (f.1, c'.bytes) ∈ (ofFiles set (files.set k c')).files :=
    mem_ofFiles.mpr ⟨k, c', hlayoutK, List.getElem?_set_self hk, rfl⟩
  rw [virtualByte_of_mem hown'.tiled hmem hlo hhi, hphysical, hp, hsame,
    show c'.bytes = c.bytes.set p (b + 1) from rfl, List.getElem?_set_self hpLt] at hbyte'
  have hnat := congrArg UInt8.toNat (Option.some.inj hbyte')
  rw [UInt8.toNat_add] at hnat
  have hlt := b.toNat_lt
  change (b.toNat + 1) % 256 = b.toNat at hnat
  omega

end Sharded

/-! ## Exactly when a set is addressed -/

theorem assembleShards_addressed_iff (sourcePath : String) (expectedCount : Nat)
    (candidates : List GgufModel) (set : GgufModelSet)
    (hparsed : ∀ m ∈ candidates, ∃ file, parseGgufFile m.path file = .ok m)
    (hset : assembleShards sourcePath expectedCount candidates = .ok set) :
    Addressed set ↔ Addressable candidates := by
  have haccepted := assembleShards_accepted hset
  have hlength := haccepted.perm.length_eq
  have hsum : (set.shards.map GgufModel.dataLength).sum =
      (candidates.map GgufModel.dataLength).sum :=
    (haccepted.perm.map _).sum_eq
  cases hsharded : set.isSharded with
  | false =>
    have hle : ¬1 < set.shards.length := of_decide_eq_false hsharded
    refine ⟨fun _ => .inl (by omega), fun _ => addressed_of_single hsharded haccepted⟩
  | true =>
    have hlt : 1 < set.shards.length := of_decide_eq_true hsharded
    constructor
    · intro haddressed
      refine .inr ⟨?_, ?_⟩
      · intro m hm t ht len hlen hpos
        obtain ⟨files, hown⟩ := exists_ownFiles fun m hm =>
          hparsed m (haccepted.perm.mem_iff.mp hm)
        obtain ⟨i, hi⟩ := List.mem_iff_getElem?.mp (haccepted.perm.mem_iff.mpr hm)
        exact start_of_addressed hsharded haccepted haddressed hown hi ht hlen hpos
      · rw [← hsum]
        exact (partitioned_iff hsharded).mp haddressed.partitioned
    · rintro (hone | ⟨hstart, hfits⟩)
      · omega
      · rw [← hsum] at hfits
        refine addressed_of_sharded hsharded haccepted ?_ hfits
        intro m hm
        exact hstart m (haccepted.perm.mem_iff.mp hm)

/-! ## Two files whose set is not addressed

The tensor of the first file has the offset `2 ^ 64 - 32`.  Its file offset wraps to a
place inside the header, which the bounds check accepts, and the file has no payload. -/

def movedHeader : Header where
  version := 3
  metadata := [("general.architecture", .string "llama"), ("split.count", .uInt32 2),
    ("split.no", .uInt32 0)]
  tensors := [{ name := "a", dims := [1], ty := 0, offset := 0xFFFFFFFFFFFFFFE0 }]
  version_supported := three_supported
  kvCount_le := by decide
  keys_nodup := by decide
  keys_fit := by decide +kernel
  values_fit := by decide +kernel
  tensorCount_le := by decide
  tensors_fit := by decide +kernel

def plainHeader : Header where
  version := 3
  metadata := [("split.count", .uInt32 2), ("split.no", .uInt32 1)]
  tensors := [{ name := "b", dims := [1], ty := 0, offset := 0 }]
  version_supported := three_supported
  kvCount_le := by decide
  keys_nodup := by decide
  keys_fit := by decide +kernel
  values_fit := by decide +kernel
  tensorCount_le := by decide
  tensors_fit := by decide +kernel

def movedFile : FileBytes where
  bytes := movedHeader.encode ++ List.replicate 7 0
  length_lt := by decide +kernel

def plainFile : FileBytes where
  bytes := plainHeader.encode ++ (List.replicate 20 0 ++ [1, 2, 3, 4])
  length_lt := by decide +kernel

def movedShard : GgufModel := modelOf "model-00001-of-00002.gguf" 160 movedHeader.toRawHeader 153

def plainShard : GgufModel := modelOf "model-00002-of-00002.gguf" 132 plainHeader.toRawHeader 108

def movedSet : GgufModelSet where
  path := "models"
  shards := [movedShard, plainShard]
  nonempty := List.cons_ne_nil _ _

theorem parse_movedFile : parseGgufFile movedShard.path movedFile = .ok movedShard := by
  have hlength : movedFile.bytes.length = 160 := by decide +kernel
  have hencode : movedHeader.encode.length = 153 := by decide +kernel
  rw [parseGgufFile_of_encode (h := movedHeader) _ rfl, hlength, hencode]
  rfl

theorem parse_plainFile : parseGgufFile plainShard.path plainFile = .ok plainShard := by
  have hlength : plainFile.bytes.length = 132 := by decide +kernel
  have hencode : plainHeader.encode.length = 108 := by decide +kernel
  rw [parseGgufFile_of_encode (h := plainHeader) _ rfl, hlength, hencode]
  rfl

set_option maxRecDepth 100000 in
theorem assembleShards_moved :
    assembleShards "models" 2 [movedShard, plainShard] = .ok movedSet := rfl

theorem ownFiles_moved : OwnFiles movedSet [movedFile, plainFile] :=
  List.Forall₂.cons parse_movedFile (List.Forall₂.cons parse_plainFile List.Forall₂.nil)

/-- The read of tensor `a` returns the payload of the other shard. -/
theorem moved_not_addressed :
    OwnFiles movedSet [movedFile, plainFile] ∧
      assembleShards "models" 2 [movedShard, plainShard] = .ok movedSet ∧
      movedShard.tensors.map (fun t => (t.name, t.fileOffset, t.byteLength)) =
        [("a", 128, some 4)] ∧
      (movedFile.bytes.drop 128).take 4 ≠ [1, 2, 3, 4] ∧
      ((ofFiles movedSet [movedFile, plainFile]).getDescriptor "a").toOption.map
        (fun t => (t.fileOffset, t.byteLength)) = some (0, some 4) ∧
      (readExactInto 0 [0, 0, 0, 0] ([], ofFiles movedSet [movedFile, plainFile])).1 =
        .ok ([1, 2, 3, 4], 1) ∧
      ¬Addressed movedSet := by
  refine ⟨ownFiles_moved, assembleShards_moved, by decide +kernel, by decide +kernel,
    by decide +kernel, by decide +kernel, ?_⟩
  intro haddressed
  have hshard : movedSet.shards[0]? = some movedShard := rfl
  have htensor : descriptorOf 160 ⟨"a", [1], 0, 0xFFFFFFFFFFFFFFE0⟩ ∈ movedShard.tensors :=
    List.mem_singleton_self _
  have hlen : (descriptorOf 160 ⟨"a", [1], 0, 0xFFFFFFFFFFFFFFE0⟩).byteLength = some 4 := by decide
  have hstart := start_of_addressed rfl (assembleShards_accepted assembleShards_moved) haddressed
    ownFiles_moved hshard htensor hlen (by decide)
  revert hstart
  decide +kernel

theorem assembleShards_addressed_iff_moved :
    Addressed movedSet ↔ Addressable [movedShard, plainShard] := by
  refine assembleShards_addressed_iff "models" 2 [movedShard, plainShard] movedSet ?_
    assembleShards_moved
  intro m hm
  simp only [List.mem_cons, List.not_mem_nil, or_false] at hm
  rcases hm with rfl | rfl
  · exact ⟨movedFile, parse_movedFile⟩
  · exact ⟨plainFile, parse_plainFile⟩

end ModelSet
end Ramforge
