/-
One layer cache and one budget over whole runs.

The caller charges the layers it loads, and anything else it likes, under names
outside the cache's prefix.
-/
import Ramforge.Runtime.LayerCacheRun
import Ramforge.Core.MemoryFrame
import Ramforge.Core.MemoryAccounting

namespace Ramforge

open Rust Rust.Exec Rust.MapSum Rust.KeyMove

inductive LayerCall (α : Type) where
  | insertLoaded (layerIndex : Nat) (value : α) (bytes : Nat)
  | withEntry (layerIndex : Nat)
  | evictUntilAvailable (requiredBytes : Nat)
  | clear

namespace LayerCall

variable {α : Type}

def run : LayerCall α → Exec (LayerCache α × MemoryBudget) String Unit
  | .insertLoaded layerIndex value bytes => do
    let _ ← LayerCache.insertLoaded layerIndex value bytes
    return ()
  | .withEntry layerIndex => do
    let _ ← onFst (LayerCache.withEntry layerIndex id)
    return ()
  | .evictUntilAvailable requiredBytes => do
    let _ ← LayerCache.evictUntilAvailable requiredBytes
    return ()
  | .clear => do
    let _ ← LayerCache.clear
    return ()

end LayerCall

namespace LayerCache

variable {α : Type} {s t : LayerCache α × MemoryBudget} {i : Nat}

/-- `t` is `s` with the `k` least recently used entries evicted, and no smaller
number of them would have left `requiredBytes` available. -/
structure EvictsShortest (s : LayerCache α × MemoryBudget) (requiredBytes k : Nat)
    (t : LayerCache α × MemoryBudget) : Prop where
  le_length : k ≤ s.1.lru.length
  order : lruOrder t.1 = (lruOrder s.1).drop k
  entries : ∀ j : Nat, t.1.entries[j]? =
    if j ∈ (lruOrder s.1).take k then none else s.1.entries[j]?
  used : t.2.used + (((lruOrder s.1).take k).map (entryBytes s.1)).sum = s.2.used
  enough : (MemoryBudget.canAllocate requiredBytes t.2 : Outcome String Bool × _).1 = .ok true ∨
    t.1.entries = ∅
  shortest : ∀ j < k, s.2.total <
    s.2.used - (((lruOrder s.1).take j).map (entryBytes s.1)).sum + requiredBytes

/-- `t` is `s` with the entries of `evicted` gone and layer `i` taken over: its
active charges are now charges of the cache, and nothing else changed hands. -/
structure TakesOver (s : LayerCache α × MemoryBudget) (i : Nat) (value : α) (bytes : Nat)
    (evicted : List Nat) (t : LayerCache α × MemoryBudget) : Prop where
  nodup : evicted.Nodup
  present : ∀ j ∈ evicted, (s.1.entries[j]?).isSome
  replaced : (s.1.entries[i]?).isSome → i ∈ evicted
  used : t.2.used + (evicted.map (entryBytes s.1)).sum = s.2.used
  entries : ∀ j ≠ i, t.1.entries[j]? = if j ∈ evicted then none else s.1.entries[j]?
  entry : ∃ e, t.1.entries[i]? = some e ∧ e.value = value ∧ e.bytes = bytes ∧
    ∀ n, n ∈ e.chargeNames ↔ ∃ m ∈ s.2.namesUnder (activePrefix i),
      n = MemoryBudget.renamed (activePrefix i) (cachePrefix i) m
  charges : ∀ m ∈ s.2.namesUnder (activePrefix i), t.2.get m = none ∧
    t.2.get (MemoryBudget.renamed (activePrefix i) (cachePrefix i) m) = s.2.get m

/-- What holds of the cache and the budget between two calls, and what each call
does from there. -/
structure Sound (capacity : Nat) (s : LayerCache α × MemoryBudget) : Prop where
  sum_eq : s.2.sumUnder allPrefix = s.1.usedBytes
  used_le : s.1.usedBytes ≤ capacity
  partition : (chargeNames s.1).Perm (s.2.namesUnder allPrefix)
  entry_bytes : ∀ (i : Nat) (e : LayerEntry α), s.1.entries[i]? = some e →
    e.bytes = s.2.sumOf e.chargeNames
  lru_perm : s.1.lru.Perm s.1.entries.keys
  release : ∀ i : Nat, (s.1.entries[i]?).isSome → (releaseEntry i s).1 = .ok ()
  insert : ∀ i value bytes,
    insertLoaded i value bytes s = (.ok (.skipped value 0), s) ∨
      ∃ evicted t, insertLoaded i value bytes s = (.ok (.cached evicted.length), t) ∧
        TakesOver s i value bytes evicted t
  withEntry : ∀ {ρ : Type} (useEntry : α → ρ) (i : Nat),
    (LayerCache.withEntry i useEntry s.1 : Outcome String (Option ρ) × _).1 =
      .ok ((s.1.entries[i]?).map fun e => useEntry e.value)
  evict : ∀ requiredBytes, ∃ k t, evictUntilAvailable requiredBytes s = (.ok k, t) ∧
    EvictsShortest s requiredBytes k t
  clear : ∃ t, LayerCache.clear s = (.ok s.1.lru.length, t) ∧ t.1.entries = ∅ ∧
    t.1.usedBytes = 0 ∧ t.2.used + s.1.usedBytes = s.2.used

open MemoryBudget

theorem Coherent.lru_perm (h : Coherent s) : s.1.lru.Perm s.1.entries.keys := by
  refine (List.perm_ext_iff_of_nodup h.lru_nodup Std.ExtTreeMap.nodup_keys).mpr fun i => ?_
  rw [h.lru_mem, Std.ExtTreeMap.mem_keys, Std.ExtTreeMap.mem_iff_isSome_getElem?]

theorem nodup_take (h : Coherent s) (k : Nat) : ((lruOrder s.1).take k).Nodup :=
  (List.nodup_reverse.mpr h.lru_nodup).sublist (List.take_sublist _ _)

theorem evicts_shortest (h : Coherent s) (requiredBytes : Nat) :
    ∃ k t, evictUntilAvailable requiredBytes s = (.ok k, t) ∧
      EvictsShortest s requiredBytes k t := by
  obtain ⟨k, hrun, hle, hend, hmin⟩ := evictUntilAvailable_run h requiredBytes
  have hk := evictOldest_coherent h k
  have htotal : (evictOldest k s).2.total = s.2.total := dropLayers_total _ _
  refine ⟨k, _, hrun, hle, ?_, fun j => dropLayers_entries _ _ j,
    (dropLayers_used h (nodup_take h k)).1, ?_, fun j hj => ?_⟩
  · rw [lruOrder, evictOldest_lru h, List.reverse_reverse]
  · rcases hend with hfit | hall
    · left
      rw [canAllocate_run hk.accounted.used_le, htotal]
      simp [hfit]
    · exact .inr (evictOldest_all h (Nat.le_of_eq hall.symm)).2.2
  · have hused := (dropLayers_used h (nodup_take h j)).1
    have hno := hmin j hj
    rw [evictOldest] at hno
    omega

theorem clear_all (h : Coherent s) :
    ∃ t, LayerCache.clear s = (.ok s.1.lru.length, t) ∧ t.1.entries = ∅ ∧ t.1.usedBytes = 0 ∧
      t.2.used + s.1.usedBytes = s.2.used := by
  obtain ⟨hzero, -, hempty⟩ := evictOldest_all h (Nat.le_refl s.1.lru.length)
  obtain ⟨hb, hc⟩ := dropLayers_used h (nodup_take h s.1.lru.length)
  refine ⟨_, clear_run h, hempty, hzero, ?_⟩
  rw [evictOldest] at hzero ⊢
  omega

/-- The entry an insertion of layer `i` replaces, if any. -/
def replacedEntry (s : LayerCache α × MemoryBudget) (i : Nat) : List Nat :=
  if (s.1.entries[i]?).isSome then [i] else []

theorem mem_replacedEntry {j : Nat} :
    j ∈ replacedEntry s i ↔ j = i ∧ (s.1.entries[i]?).isSome := by
  rw [replacedEntry]
  split <;> simp [*]

theorem nodup_replacedEntry : (replacedEntry s i).Nodup := by
  rw [replacedEntry]
  split <;> simp

theorem length_replacedEntry :
    (replacedEntry s i).length = if (s.1.entries[i]?).isSome then 1 else 0 := by
  rw [replacedEntry]
  split <;> rfl

theorem dropLayers_replacedEntry : dropLayers (replacedEntry s i) s = dropLayer i s := by
  rw [replacedEntry]
  cases he : s.1.entries[i]? with
  | none => rw [dropLayer, he]; rfl
  | some e => rfl

/-- The entries an insertion of layer `i` evicts when it makes `k` evictions beside
the replacement. -/
def evictedBy (s : LayerCache α × MemoryBudget) (i k : Nat) : List Nat :=
  replacedEntry s i ++ (lruOrder (dropLayer i s).1).take k

theorem mem_oldest (h : Coherent s) {j k : Nat}
    (hj : j ∈ (lruOrder (dropLayer i s).1).take k) : j ≠ i ∧ (s.1.entries[j]?).isSome := by
  have hj' := ((dropLayer_coherent h i).lru_mem j).mp
    (List.mem_reverse.mp (List.mem_of_mem_take hj))
  rw [dropLayer_entries] at hj'
  split at hj'
  · cases hj'
  · rename_i hne
    exact ⟨hne, hj'⟩

theorem nodup_evictedBy (h : Coherent s) (i k : Nat) : (evictedBy s i k).Nodup := by
  refine nodup_replacedEntry.append (nodup_take (dropLayer_coherent h i) k) ?_
  refine List.disjoint_left.mpr fun j hj hj' => ?_
  exact (mem_oldest h hj').1 (mem_replacedEntry.mp hj).1

theorem dropLayers_evictedBy (s : LayerCache α × MemoryBudget) (i k : Nat) :
    dropLayers (evictedBy s i k) s = evictOldest k (dropLayer i s) := by
  rw [evictedBy, dropLayers_append, dropLayers_replacedEntry, evictOldest]

/-- The active charges of a layer are the same once other entries are gone. -/
theorem mem_active_dropLayers (h : Coherent s) (l : List Nat) (i : Nat) (m : String) :
    m ∈ (dropLayers l s).2.namesUnder (activePrefix i) ↔
      m ∈ s.2.namesUnder (activePrefix i) := by
  rw [mem_namesUnder, mem_namesUnder]
  exact and_congr_left fun hm => by rw [dropLayers_get h l (allPrefix_of_active hm)]

/-- Taking over the active charges of a layer without an entry, once others are gone. -/
theorem adopted_takesOver (h : Coherent s) {l : List Nat} (hnd : l.Nodup)
    (hpresent : ∀ j ∈ l, (s.1.entries[j]?).isSome)
    (hreplaced : (s.1.entries[i]?).isSome → i ∈ l) (value : α) (bytes : Nat) :
    TakesOver s i value bytes l (adopted i value bytes (dropLayers l s)) := by
  have hd := dropLayers_coherent h l
  have hnew : (dropLayers l s).1.entries[i]? = none := by
    rw [dropLayers_entries]
    split
    · rfl
    · rename_i hnot
      exact Option.not_isSome_iff_eq_none.mp fun hs => hnot (hreplaced hs)
  have hm := takeover_movable hd hnew
  refine ⟨hnd, hpresent, hreplaced, (dropLayers_used h hnd).1, fun j hj => ?_,
    ⟨_, getElem?_insert' _ _ _ _ |>.trans (if_pos rfl), rfl, rfl, fun n => ?_⟩, fun m hmem => ?_⟩
  · show ((dropLayers l s).1.entries.insert i _)[j]? = _
    rw [getElem?_insert', if_neg hj, dropLayers_entries]
  · show n ∈ (takeover (dropLayers l s).2 i).map Prod.snd ↔ _
    rw [takeover, renames, List.map_map, List.mem_map]
    constructor
    · rintro ⟨m, hmem, hn⟩
      exact ⟨m, (mem_active_dropLayers h l i m).mp hmem, hn.symm⟩
    · rintro ⟨m, hmem, hn⟩
      exact ⟨m, (mem_active_dropLayers h l i m).mpr hmem, hn.symm⟩
  · have hp : (m, renamed (activePrefix i) (cachePrefix i) m) ∈ takeover (dropLayers l s).2 i :=
      List.mem_map.mpr ⟨m, (mem_active_dropLayers h l i m).mpr hmem, rfl⟩
    have hall := allPrefix_of_active (mem_namesUnder.mp hmem).2
    refine ⟨get_move_source hm hp, ?_⟩
    exact (get_move_target hm hp).trans (dropLayers_get h l hall)

theorem insert_takesOver (h : Coherent s) (i : Nat) (value : α) (bytes : Nat) :
    insertLoaded i value bytes s = (.ok (.skipped value 0), s) ∨
      ∃ evicted t, insertLoaded i value bytes s = (.ok (.cached evicted.length), t) ∧
        TakesOver s i value bytes evicted t := by
  rcases insertLoaded_run h i value bytes with ⟨hskip, -⟩ | ⟨-, -, -, k, hk, -, hrun⟩
  · exact .inl hskip
  have hlen : (evictedBy s i k).length = (if (s.1.entries[i]?).isSome then 1 else 0) + k := by
    rw [evictedBy, List.length_append, length_replacedEntry, List.length_take, lruOrder,
      List.length_reverse, Nat.min_eq_left hk]
  rw [← hlen, ← dropLayers_evictedBy] at hrun
  refine .inr ⟨_, _, hrun, adopted_takesOver h (nodup_evictedBy h i k) (fun j hj => ?_)
    (fun hs => ?_) value bytes⟩
  · rcases List.mem_append.mp hj with hj | hj
    · obtain ⟨rfl, hs⟩ := mem_replacedEntry.mp hj
      exact hs
    · exact (mem_oldest h hj).2
  · exact List.mem_append_left _ (mem_replacedEntry.mpr ⟨rfl, hs⟩)

theorem Coherent.sound (h : Coherent s) : Sound s.1.capacityBytes s where
  sum_eq := (usedBytes_eq_sumUnder h).symm
  used_le := h.used_le
  partition := chargeNames_perm h
  entry_bytes i e he := (h.owned i e he).bytes_eq
  lru_perm := h.lru_perm
  release i hi := by
    obtain ⟨e, he⟩ := Option.isSome_iff_exists.mp hi
    rw [releaseEntry_run h he]
  insert := insert_takesOver h
  withEntry useEntry i := by
    rw [LayerCache.withEntry, self_bind_run, Std.ExtTreeMap.contains_eq_isSome_getElem?]
    cases he : s.1.entries[i]? with
    | none => rfl
    | some e => rfl
  evict := evicts_shortest h
  clear := clear_all h

/-! ## Runs -/

theorem withEntry_coherent (h : Coherent s) (i : Nat) :
    ∃ r t, (onFst (LayerCache.withEntry i id) : Method α (Option α)) s = (.ok r, t) ∧
      Coherent t ∧ t.1.capacityBytes = s.1.capacityBytes := by
  rw [onFst_run, LayerCache.withEntry, self_bind_run,
    Std.ExtTreeMap.contains_eq_isSome_getElem?]
  by_cases he : (s.1.entries[i]?).isSome = true
  · rw [if_pos he]
    have hperm : (i :: s.1.lru.filter (· ≠ i)).Perm s.1.lru :=
      (Lru.perm_retain h.lru_nodup ((h.lru_mem i).mpr he)).symm
    exact ⟨_, _, rfl, ⟨h.accounted, h.used_eq, h.used_le, hperm.nodup_iff.mpr h.lru_nodup,
      fun j => hperm.mem_iff.trans (h.lru_mem j), h.owned, h.covered⟩, rfl⟩
  · rw [if_neg he]
    exact ⟨_, _, rfl, h, rfl⟩

theorem call_coherent (h : Coherent s) (c : LayerCall α) :
    Coherent (c.run s).2 ∧ (c.run s).2.1.capacityBytes = s.1.capacityBytes := by
  cases c with
  | insertLoaded i value bytes =>
    rcases insertLoaded_run h i value bytes with
      ⟨hskip, -⟩ | ⟨-, -, hbytes, k, hk, hfit, hrun⟩
    · rw [LayerCall.run, bind_of_ok hskip]
      exact ⟨h, rfl⟩
    · have he := evictOldest_coherent (dropLayer_coherent h i) k
      have hcapacity : (evictOldest k (dropLayer i s)).1.capacityBytes = s.1.capacityBytes :=
        (dropLayers_capacity _ _).trans (dropLayer_capacity s i)
      rw [LayerCall.run, bind_of_ok hrun]
      refine ⟨adopted_coherent he (evicted_gone i k) value ?_ ?_, hcapacity⟩
      · rw [evicted_sumUnder h, hbytes]
      · rw [hcapacity]
        exact hfit
  | withEntry i =>
    obtain ⟨r, t, hrun, ht⟩ := withEntry_coherent h i
    rw [LayerCall.run, bind_of_ok hrun]
    exact ht
  | evictUntilAvailable requiredBytes =>
    obtain ⟨k, hrun, -⟩ := evictUntilAvailable_run h requiredBytes
    rw [LayerCall.run, bind_of_ok hrun]
    exact ⟨evictOldest_coherent h k, dropLayers_capacity _ _⟩
  | clear =>
    rw [LayerCall.run, bind_of_ok (clear_run h)]
    exact ⟨evictOldest_coherent h _, dropLayers_capacity _ _⟩

theorem Coherent.of_frame (h : Coherent s) (hfst : t.1 = s.1) (hacc : t.2.Accounted)
    (hget : ∀ n, Text.startsWith n allPrefix = true → t.2.get n = s.2.get n) : Coherent t := by
  obtain ⟨c, b⟩ := t
  obtain rfl : c = s.1 := hfst
  refine ⟨hacc, h.used_eq, h.used_le, h.lru_nodup, h.lru_mem, fun i e he => ?_,
    fun n hn hs => h.covered n hn (hget n hn ▸ hs)⟩
  have ho := h.owned i e he
  have hsame : ∀ n ∈ e.chargeNames, b.get n = s.2.get n := fun n hn =>
    hget n (startsWith_allPrefix (ho.under n hn))
  refine ⟨ho.nodup, ho.under, fun n hn => ?_, ho.bytes_eq.trans (sumOf_congr fun n hn => ?_)⟩
  · show (b.get n).isSome
    rw [hsame n hn]
    exact ho.charged n hn
  · exact (hsame n hn).symm

theorem coherent_new {capacity total : Nat} {b : MemoryBudget} (htotal : total < u64Bound)
    (hb : MemoryBudget.new total = .ok b) :
    Coherent ((LayerCache.new capacity : LayerCache α), b) := by
  obtain ⟨hacc, -, -, -, halloc⟩ := MemoryBudget.accounted_new htotal hb
  refine ⟨hacc, ?_, Nat.zero_le _, List.nodup_nil, fun i => ?_, fun i e he => ?_,
    fun n hn hs => ?_⟩
  · rw [LayerCache.new, sumOver_empty]
  · simp [LayerCache.new]
  · simp [LayerCache.new] at he
  · simp [MemoryBudget.get, halloc] at hs

/-- In every run in which the rest of the program charges under names outside the
cache's prefix, the charges under the prefix are those of the entries, no call
fails, and evictions and insertions move exactly the charges they report. -/
theorem runs_sound {capacity total : Nat} {b : MemoryBudget} (htotal : total < u64Bound)
    (hb : MemoryBudget.new total = .ok b) (calls : List (Call (LayerCall α)))
    (havoid : Call.EachOf LayerCall.run (Call.Avoids allPrefix) calls (new capacity, b)) :
    ∀ s ∈ (new capacity, b) :: Call.visitedAll LayerCall.run calls (new capacity, b),
      Sound capacity s := by
  have hpath := Call.runAll_path LayerCall.run calls (new capacity, b) havoid
  intro s hs
  have hinv := hpath.invariant (I := fun s => Coherent s ∧ s.1.capacityBytes = capacity)
    (fun x y hxy hx => by
      rcases hxy.frame LayerCall.run hx.1.accounted with ⟨c, rfl⟩ | ⟨hfst, hacc, -, hget⟩
      · obtain ⟨hy, hcap⟩ := call_coherent hx.1 c
        exact ⟨hy, hcap.trans hx.2⟩
      · exact ⟨hx.1.of_frame hfst hacc hget, by rw [hfst]; exact hx.2⟩)
    ⟨coherent_new htotal hb, rfl⟩ s hs
  have h := hinv.1.sound
  rwa [hinv.2] at h

/-- A layer kept, one that does not fit without an eviction, a layer loaded again
while it is cached, and one whose charges do not match its size. -/
def layerCalls : List (Call (LayerCall String)) :=
  [.allocate "layer:1:wq" 3, .allocate "layer:1:wk" 1,
    .other (.insertLoaded 1 "one" 4),
    .allocate "layer:12:wq" 2,
    .other (.insertLoaded 12 "twelve" 2),
    .allocate "layer:1:wq" 4,
    .other (.insertLoaded 1 "one again" 4),
    .allocate "layer:2:wq" 1,
    .other (.insertLoaded 2 "two" 2),
    .other (.evictUntilAvailable 7)]

def layerBudget : MemoryBudget := { total := 12, allocations := ∅, used := 0, peakUsed := 0 }

theorem runs_sound_layerCalls :
    Sound 5 (Call.runAll LayerCall.run layerCalls (new 5, layerBudget)).2 := by
  have htotal : 12 < u64Bound := by decide
  have havoid : Call.EachOf LayerCall.run (Call.Avoids allPrefix) layerCalls
      (new 5, layerBudget) := by decide
  exact runs_sound htotal rfl layerCalls havoid _
    (Call.runAll_path LayerCall.run layerCalls _ havoid).last_mem

end LayerCache
end Ramforge
