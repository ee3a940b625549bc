/-
The shard layouts of a set lie one after another in the virtual data space.
-/
import Ramforge.Core.ModelSet
import Ramforge.Rust.Tiles

namespace Ramforge
namespace GgufModelSet

open Rust

theorem layoutsFrom_tiles (shards : List GgufModel) {virtualStart : Nat}
    (h : virtualStart < u64Bound) :
    Tiles (fun l => l.virtualStart) (fun l => l.virtualEnd) virtualStart
      (layoutsFrom virtualStart shards)
      (shards.foldl (fun total shard => saturatingAdd total shard.dataLength) virtualStart) := by
  induction shards generalizing virtualStart with
  | nil => exact Tiles.nil virtualStart
  | cons shard shards ih =>
    have hle : virtualStart ≤ saturatingAdd virtualStart shard.dataLength := by
      unfold saturatingAdd
      omega
    exact Tiles.cons rfl hle (ih (saturatingAdd_lt _ _))

/-- Saturated sums included, no two layouts overlap and none leaves a gap. -/
theorem shardLayouts_tiles (set : GgufModelSet) :
    Tiles (fun l => l.virtualStart) (fun l => l.virtualEnd) 0 set.shardLayouts
      set.virtualSize := by
  unfold shardLayouts virtualSize
  cases set.isSharded with
  | true => exact layoutsFrom_tiles set.shards (by decide)
  | false => exact Tiles.cons rfl (Nat.zero_le _) (Tiles.nil _)

/-- A set of one file has one layout, the file itself. -/
theorem shardLayouts_single {set : GgufModelSet} (h : set.isSharded = false) :
    ∃ l, set.shardLayouts = [l] ∧ l.path = set.first.path ∧ l.dataLength = set.first.fileSize ∧
      l.virtualStart = 0 ∧ l.virtualEnd = set.first.fileSize ∧ l.physicalDataStart = 0 := by
  unfold shardLayouts
  rw [h]
  exact ⟨_, rfl, rfl, rfl, rfl, rfl, rfl⟩

theorem length_layoutsFrom (virtualStart : Nat) (shards : List GgufModel) :
    (layoutsFrom virtualStart shards).length = shards.length := by
  induction shards generalizing virtualStart with
  | nil => rfl
  | cons shard shards ih => rw [layoutsFrom, List.length_cons, List.length_cons, ih]

theorem length_shardLayouts (set : GgufModelSet) : set.shardLayouts.length = set.shards.length := by
  cases hsharded : set.isSharded with
  | true =>
    rw [shardLayouts, hsharded]
    exact length_layoutsFrom 0 set.shards
  | false =>
    obtain ⟨l, hl, _⟩ := shardLayouts_single hsharded
    have hpos := List.length_pos_of_ne_nil set.nonempty
    have hle : ¬1 < set.shards.length := of_decide_eq_false hsharded
    rw [hl, List.length_singleton]
    omega

/-- The layout at place `k` is that of shard `k`, and the tensors of that shard are
merged by it. -/
theorem layoutsFrom_getElem? {shards : List GgufModel} {virtualStart k : Nat}
    {l : GgufShardLayout} (h : (layoutsFrom virtualStart shards)[k]? = some l) :
    ∃ shard, shards[k]? = some shard ∧ l.dataLength = shard.dataLength ∧
      l.physicalDataStart = shard.dataStartOffset ∧
      ∀ t ∈ shard.tensors,
        remap l.virtualStart shard.dataStartOffset t ∈ mergedFrom virtualStart shards := by
  induction shards generalizing virtualStart k with
  | nil => cases h
  | cons shard shards ih =>
    cases k with
    | zero =>
      cases h
      refine ⟨shard, rfl, rfl, rfl, ?_⟩
      intro t ht
      exact List.mem_append_left _ (List.mem_map_of_mem ht)
    | succ k =>
      rw [layoutsFrom, List.getElem?_cons_succ] at h
      obtain ⟨shard', hshard, hlength, hphysical, hmerged⟩ := ih h
      refine ⟨shard', hshard, hlength, hphysical, ?_⟩
      intro t ht
      exact List.mem_append_right _ (hmerged t ht)

theorem map_dataLength_layoutsFrom (virtualStart : Nat) (shards : List GgufModel) :
    (layoutsFrom virtualStart shards).map (fun l => l.dataLength) =
      shards.map GgufModel.dataLength := by
  induction shards generalizing virtualStart with
  | nil => rfl
  | cons shard shards ih => rw [layoutsFrom, List.map_cons, List.map_cons, ih]

theorem map_name_mergedFrom (virtualStart : Nat) (shards : List GgufModel) :
    (mergedFrom virtualStart shards).map TensorDescriptor.name =
      shards.flatMap fun m => m.tensors.map TensorDescriptor.name := by
  induction shards generalizing virtualStart with
  | nil => rfl
  | cons shard shards ih =>
    rw [mergedFrom, List.map_append, ih, List.flatMap_cons, List.map_map]
    rfl

/-- While the sum of the sections fits, no layout is cut short. -/
theorem layoutsFrom_whole {shards : List GgufModel} {virtualStart : Nat}
    (h : virtualStart + (shards.map GgufModel.dataLength).sum < u64Bound) :
    ∀ l ∈ layoutsFrom virtualStart shards, l.virtualEnd = l.virtualStart + l.dataLength := by
  induction shards generalizing virtualStart with
  | nil =>
    intro l hl
    cases hl
  | cons shard shards ih =>
    rw [List.map_cons, List.sum_cons] at h
    have hfits : saturatingAdd virtualStart shard.dataLength = virtualStart + shard.dataLength :=
      saturatingAdd_of_lt (by omega)
    intro l hl
    rcases List.mem_cons.mp hl with rfl | hmem
    · exact hfits
    · rw [hfits] at hmem
      exact ih (by omega) l hmem

theorem virtualSize_lt {set : GgufModelSet} (h : set.isSharded = true) :
    set.virtualSize < u64Bound := by
  have hfold : ∀ (shards : List GgufModel) (total : Nat), total < u64Bound →
      shards.foldl (fun total shard => saturatingAdd total shard.dataLength) total < u64Bound := by
    intro shards
    induction shards with
    | nil => intro total htotal; exact htotal
    | cons shard shards ih =>
      intro total _
      exact ih _ (saturatingAdd_lt _ _)
  rw [virtualSize, h]
  exact hfold set.shards 0 (by decide)

/-- The layouts are contiguous and disjoint, each as long as its shard's bytes, and
add up to the virtual size. -/
structure Partitioned (set : GgufModelSet) : Prop where
  tiles : Tiles (fun l => l.virtualStart) (fun l => l.virtualEnd) 0 set.shardLayouts
    set.virtualSize
  whole : ∀ l ∈ set.shardLayouts, l.virtualEnd = l.virtualStart + l.dataLength
  disjoint : set.shardLayouts.Pairwise fun l l' => l.virtualEnd ≤ l'.virtualStart
  total : (set.shardLayouts.map fun l => l.dataLength).sum = set.virtualSize

theorem partitioned_of_whole {set : GgufModelSet}
    (h : ∀ l ∈ set.shardLayouts, l.virtualEnd = l.virtualStart + l.dataLength) :
    Partitioned set := by
  refine ⟨set.shardLayouts_tiles, h, set.shardLayouts_tiles.pairwise, ?_⟩
  have hsum := set.shardLayouts_tiles.sum_add
  rw [Nat.zero_add] at hsum
  rw [← hsum]
  congr 1
  apply List.map_congr_left
  intro l hl
  rw [h l hl]
  omega

theorem partitioned_of_single {set : GgufModelSet} (h : set.isSharded = false) :
    Partitioned set := by
  obtain ⟨l, hl, _, hlength, hstart, hend, _⟩ := shardLayouts_single h
  apply partitioned_of_whole
  intro l' hl'
  rw [hl] at hl'
  obtain rfl := List.mem_singleton.mp hl'
  omega

theorem partitioned_iff {set : GgufModelSet} (h : set.isSharded = true) :
    Partitioned set ↔ (set.shards.map GgufModel.dataLength).sum < u64Bound := by
  have hlayouts : set.shardLayouts = layoutsFrom 0 set.shards := by
    rw [shardLayouts, h]
    rfl
  constructor
  · intro hp
    have htotal := hp.total
    rw [hlayouts, map_dataLength_layoutsFrom] at htotal
    rw [htotal]
    exact virtualSize_lt h
  · intro hsum
    apply partitioned_of_whole
    rw [hlayouts]
    exact layoutsFrom_whole (by rw [Nat.zero_add]; exact hsum)

end GgufModelSet
end Ramforge
