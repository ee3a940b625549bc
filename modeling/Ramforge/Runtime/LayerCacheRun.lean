/-
The layer cache operations in closed form.

Under `Coherent` every operation ends in a state given by the entries it drops and
the layer it takes over, and none of its error exits is reached.
-/
import Ramforge.Runtime.LayerCacheStep

namespace Ramforge
namespace LayerCache

open Rust Rust.Exec Rust.MapSum Rust.KeyMove MemoryBudget

variable {α : Type} {s t : LayerCache α × MemoryBudget} {i : Nat} {e : LayerEntry α}
  {names : List String}

/-! ## The charges of the cache as one list -/

def chargeNames (c : LayerCache α) : List String :=
  c.entries.toList.flatMap fun p => p.2.chargeNames

theorem mem_chargeNames {c : LayerCache α} {n : String} :
    n ∈ chargeNames c ↔ ∃ (i : Nat) (e : LayerEntry α), c.entries[i]? = some e ∧
      n ∈ e.chargeNames := by
  rw [chargeNames, List.mem_flatMap]
  constructor
  · intro ⟨p, hp, hn⟩
    exact ⟨p.1, p.2, Std.ExtTreeMap.mem_toList_iff_getElem?_eq_some.mp hp, hn⟩
  · intro ⟨i, e, he, hn⟩
    exact ⟨(i, e), Std.ExtTreeMap.mem_toList_iff_getElem?_eq_some.mpr he, hn⟩

theorem nodup_chargeNames (h : Coherent s) : (chargeNames s.1).Nodup := by
  have hget : ∀ p ∈ s.1.entries.toList, s.1.entries[p.1]? = some p.2 := fun p hp =>
    Std.ExtTreeMap.mem_toList_iff_getElem?_eq_some.mp hp
  refine List.nodup_flatMap.mpr ⟨fun p hp => (h.owned p.1 p.2 (hget p hp)).nodup, ?_⟩
  refine (nodup_toList s.1.entries).imp_of_mem fun {p q} hp hq hpq => ?_
  refine List.disjoint_left.mpr fun n hn hn' => hpq ?_
  have hkey := h.owner_unique (hget p hp) (hget q hq) hn hn'
  have hval := hget p hp
  rw [hkey, hget q hq] at hval
  exact Prod.ext hkey (Option.some.inj hval).symm

/-- The charge names of the entries partition the charges under the prefix. -/
theorem chargeNames_perm (h : Coherent s) : (chargeNames s.1).Perm (s.2.namesUnder allPrefix) := by
  refine (List.perm_ext_iff_of_nodup (nodup_chargeNames h) (nodup_namesUnder _ _)).mpr fun n => ?_
  rw [mem_chargeNames, mem_namesUnder]
  constructor
  · intro ⟨i, e, he, hn⟩
    have ho := h.owned i e he
    exact ⟨ho.charged n hn, startsWith_allPrefix (ho.under n hn)⟩
  · intro ⟨hs, hn⟩
    exact h.covered n hn hs

theorem usedBytes_eq_sumUnder (h : Coherent s) : s.1.usedBytes = s.2.sumUnder allPrefix := by
  have hflat : ∀ l : List (Nat × LayerEntry α), (∀ p ∈ l, s.1.entries[p.1]? = some p.2) →
      s.2.sumOf (l.flatMap fun p => p.2.chargeNames) = (l.map fun p => p.2.bytes).sum := by
    intro l hl
    induction l with
    | nil => rfl
    | cons p rest ih =>
      have hp := (h.owned p.1 p.2 (hl p List.mem_cons_self)).bytes_eq
      have hrest := ih fun q hq => hl q (List.mem_cons_of_mem _ hq)
      rw [sumOf] at hrest hp ⊢
      rw [List.flatMap_cons, List.map_append, List.sum_append, hrest, ← hp, List.map_cons,
        List.sum_cons]
  rw [h.used_eq, sumUnder, ← sumOf_perm (chargeNames_perm h), chargeNames,
    hflat _ fun p hp => Std.ExtTreeMap.mem_toList_iff_getElem?_eq_some.mp hp]
  rfl

/-- The cached charges and the active charges of a layer fit together. -/
theorem sum_active_le (h : Coherent s) (i : Nat) :
    s.1.usedBytes + s.2.sumUnder (activePrefix i) ≤ s.2.used := by
  have hnd : (s.2.namesUnder allPrefix ++ s.2.namesUnder (activePrefix i)).Nodup := by
    refine (nodup_namesUnder _ _).append (nodup_namesUnder _ _) ?_
    refine List.disjoint_left.mpr fun n hn hn' => ?_
    have hall := (mem_namesUnder.mp hn).2
    rw [allPrefix_of_active (mem_namesUnder.mp hn').2] at hall
    cases hall
  have hle := h.accounted.sumOf_le hnd fun n hn => by
    rcases List.mem_append.mp hn with hn | hn
    · exact isSome_of_mem_namesUnder hn
    · exact isSome_of_mem_namesUnder hn
  rw [sumOf, List.map_append, List.sum_append] at hle
  rw [usedBytes_eq_sumUnder h]
  exact hle

theorem activeChargeBytes_run (h : s.2.Accounted) (pre : String) :
    activeChargeBytes s.2 pre = some (s.2.sumUnder pre) := by
  have hle := h.sumUnder_le pre
  have hlt := h.total_lt
  have hused := h.used_le
  have hfold := foldlM_checkedAdd
    (s.2.allocations.toList.filter fun p => Text.startsWith p.1 pre) 0
  rw [sum_toList_filter, Nat.zero_add] at hfold
  exact hfold (by omega)

/-! ## Releasing an entry -/

theorem checkCharges_run (h : ∀ n ∈ names, (s.2.get n).isSome) :
    checkCharges i names s = (.ok (), s) := by
  induction names with
  | nil => rfl
  | cons n rest ih =>
    have hn := h n List.mem_cons_self
    rw [checkCharges, self_bind_run, failIf_bind_run, if_neg (by simp [Option.isSome_iff_ne_none.mp hn])]
    exact ih fun m hm => h m (List.mem_cons_of_mem _ hm)

theorem sumCharges_run (h : ∀ n ∈ names, (s.2.get n).isSome) {total : Nat}
    (hsum : total + s.2.sumOf names < u64Bound) :
    sumCharges i names total s = (.ok (total + s.2.sumOf names), s) := by
  induction names generalizing total with
  | nil => rfl
  | cons n rest ih =>
    rw [sumOf_cons] at hsum
    rw [sumCharges, self_bind_run, get_eq_some_bytesOf (h n List.mem_cons_self), okOr_bind_run]
    simp only
    rw [okOr_bind_run, checkedAdd_of_lt (by omega)]
    simp only
    rw [ih (fun m hm => h m (List.mem_cons_of_mem _ hm)) (by omega), sumOf_cons, Nat.add_assoc]

theorem releaseNames_run {κ ε : Type} {k : κ} {b : MemoryBudget}
    (message : String → MemoryError → String) (h : b.Accounted) (hnd : names.Nodup)
    (hs : ∀ n ∈ names, (b.get n).isSome) :
    (releaseNames message names : Exec (κ × MemoryBudget) ε Unit) (k, b) =
      (.ok (), (k, dischargeAll names b)) := by
  induction names generalizing b with
  | nil => rfl
  | cons n rest ih =>
    obtain ⟨hn, hrest⟩ := List.nodup_cons.mp hnd
    have hget := get_eq_some_bytesOf (hs n List.mem_cons_self)
    have hstep := Step.discharge hget
    rw [releaseNames, bind_run]
    simp only [orPanic, onSnd_run, release_run h, hget]
    refine ih (hstep.accounted h) hrest fun m hm => ?_
    rw [get_discharge, if_neg (ne_of_mem_of_not_mem hm hn)]
    exact hs m (List.mem_cons_of_mem _ hm)

theorem releaseEntry_run (h : Coherent s) (he : s.1.entries[i]? = some e) :
    releaseEntry i s =
      (.ok (), ({ s.1 with
          entries := s.1.entries.erase i
          usedBytes := s.1.usedBytes - e.bytes },
        dischargeAll e.chargeNames s.2)) := by
  have ho := h.owned i e he
  have hle := h.accounted.sumOf_le ho.nodup ho.charged
  have hused := h.accounted.used_le
  have hlt := h.accounted.total_lt
  rw [releaseEntry, self_bind_run, okOr_bind_run, he]
  simp only
  rw [bind_of_ok (checkCharges_run ho.charged), expect_bind_run]
  simp only
  rw [bind_of_ok (sumCharges_run ho.charged (by omega)), Nat.zero_add, failIf_bind_run,
    if_neg (not_not.mpr ho.bytes_eq.symm), checkedSub_of_le (h.bytes_le he), okOr_bind_run]
  simp only
  rw [expect_bind_run]
  simp only
  rw [bind_run, onFst_run, modify_run]
  simp only
  rw [bind_of_ok (releaseNames_run _ h.accounted ho.nodup ho.charged)]
  rfl

theorem evictLru_run (h : Coherent s) :
    evictLru s =
      match s.1.lru.getLast? with
      | none => (.ok false, s)
      | some i => (.ok true, dropLayer i s) := by
  rw [evictLru, self_bind_run]
  cases hl : s.1.lru.getLast? with
  | none => rfl
  | some i =>
    obtain ⟨e, he⟩ := Option.isSome_iff_exists.mp ((h.lru_mem i).mp (List.mem_of_getLast? hl))
    simp only
    rw [bind_of_ok (releaseEntry_run h he), bind_run, onFst_run, modify_run, dropLayer_of_some he,
      Lru.retain_getLast h.lru_nodup hl]
    rfl

theorem evictLayer_run (h : Coherent s) (he : s.1.entries[i]? = some e) :
    evictLayer i s = (.ok (), dropLayer i s) := by
  rw [evictLayer, bind_of_ok (releaseEntry_run h he), onFst_run, modify_run, dropLayer_of_some he]

/-! ## The eviction loops -/

/-- The layers from least to most recently used. -/
def lruOrder (c : LayerCache α) : List Nat := c.lru.reverse

/-- The state with the `k` least recently used entries dropped. -/
def evictOldest (k : Nat) (s : LayerCache α × MemoryBudget) : LayerCache α × MemoryBudget :=
  dropLayers ((lruOrder s.1).take k) s

theorem evictOldest_coherent (h : Coherent s) (k : Nat) : Coherent (evictOldest k s) :=
  dropLayers_coherent h _

theorem evictOldest_lru (h : Coherent s) (k : Nat) :
    (evictOldest k s).1.lru = ((lruOrder s.1).drop k).reverse := by
  have hsplit : s.1.lru = ((lruOrder s.1).drop k).reverse ++ ((lruOrder s.1).take k).reverse := by
    rw [← List.reverse_append, List.take_append_drop, lruOrder, List.reverse_reverse]
  have hnd : ((lruOrder s.1).take k ++ (lruOrder s.1).drop k).Nodup := by
    rw [List.take_append_drop, lruOrder]
    exact List.nodup_reverse.mpr h.lru_nodup
  have hdisj := List.disjoint_of_nodup_append hnd
  rw [evictOldest, dropLayers_lru h]
  conv_lhs => rw [hsplit]
  rw [List.filter_append, List.filter_eq_self.mpr, List.filter_eq_nil_iff.mpr, List.append_nil]
  · intro j hj
    simpa using List.mem_reverse.mp hj
  · intro j hj
    have hj' := List.mem_reverse.mp hj
    exact decide_eq_true fun hin => hdisj hin hj'

theorem evictOldest_lru_length (h : Coherent s) (k : Nat) :
    (evictOldest k s).1.lru.length = s.1.lru.length - k := by
  rw [evictOldest_lru h, List.length_reverse, List.length_drop, lruOrder, List.length_reverse]

theorem evictOldest_getLast? (h : Coherent s) (k : Nat) :
    (evictOldest k s).1.lru.getLast? = (lruOrder s.1)[k]? := by
  rw [evictOldest_lru h, List.getLast?_reverse, List.head?_drop]

theorem evictOldest_succ {k : Nat} (hi : (lruOrder s.1)[k]? = some i) :
    dropLayer i (evictOldest k s) = evictOldest (k + 1) s := by
  rw [evictOldest, evictOldest, List.take_add_one, hi, dropLayers_append]
  rfl

/-- A loop that evicts the least recently used entry in each round, until a test
holds or the cache is empty, evicts the shortest list that suffices. -/
theorem evictLoop {γ : Type} {round : Nat → Method α (RoundEnd Nat γ)}
    (stop : LayerCache α × MemoryBudget → Prop) [DecidablePred stop] (full empty : Nat → γ)
    (h : Coherent s)
    (hround : ∀ k j, round k (evictOldest j s) =
      if stop (evictOldest j s) then (.ok (.leave (full k)), evictOldest j s)
      else match (evictOldest j s).1.lru.getLast? with
      | none => (.ok (.leave (empty k)), evictOldest j s)
      | some i => (.ok (.again (k + 1)), dropLayer i (evictOldest j s))) (k₀ : Nat) :
    ∃ k, loop (fun s => s.1.lru.length) round k₀ s =
        (.ok (if stop (evictOldest k s) then full (k₀ + k) else empty (k₀ + k)),
          evictOldest k s) ∧
      k ≤ s.1.lru.length ∧ (stop (evictOldest k s) ∨ k = s.1.lru.length) ∧
      ∀ j < k, ¬ stop (evictOldest j s) := by
  suffices hq : ∃ k, (loop (fun s => s.1.lru.length) round k₀ s).1 =
        .ok (if stop (evictOldest k s) then full (k₀ + k) else empty (k₀ + k)) ∧
      (loop (fun s => s.1.lru.length) round k₀ s).2 = evictOldest k s ∧
      k ≤ s.1.lru.length ∧ (stop (evictOldest k s) ∨ k = s.1.lru.length) ∧
      ∀ j < k, ¬ stop (evictOldest j s) by
    obtain ⟨k, h1, h2, hrest⟩ := hq
    exact ⟨k, Prod.ext h1 h2, hrest⟩
  refine loop_rule
    (I := fun k t => ∃ j, j ≤ s.1.lru.length ∧ k = k₀ + j ∧ t = evictOldest j s ∧
      ∀ l < j, ¬ stop (evictOldest l s))
    (Q := fun o t => ∃ k, o = .ok (if stop (evictOldest k s) then full (k₀ + k)
        else empty (k₀ + k)) ∧ t = evictOldest k s ∧
      k ≤ s.1.lru.length ∧ (stop (evictOldest k s) ∨ k = s.1.lru.length) ∧
      ∀ j < k, ¬ stop (evictOldest j s)) ?_ ⟨0, Nat.zero_le _, rfl, rfl, fun _ hl => by omega⟩
  intro k t ⟨j, hj, hk, ht, hmin⟩
  subst hk ht
  rw [hround]
  by_cases hstop : stop (evictOldest j s)
  · rw [if_pos hstop]
    exact ⟨j, by rw [if_pos hstop], rfl, hj, .inl hstop, hmin⟩
  · rw [if_neg hstop, evictOldest_getLast? h]
    cases hi : (lruOrder s.1)[j]? with
    | none =>
      have hlen := List.getElem?_eq_none_iff.mp hi
      rw [lruOrder, List.length_reverse] at hlen
      exact ⟨j, by rw [if_neg hstop], rfl, hj, .inr (by omega), hmin⟩
    | some i =>
      obtain ⟨hlt, -⟩ := List.getElem?_eq_some_iff.mp hi
      rw [lruOrder, List.length_reverse] at hlt
      simp only [RoundOk]
      rw [evictOldest_succ hi, evictOldest_lru_length h, evictOldest_lru_length h]
      refine ⟨⟨j + 1, hlt, by omega, rfl, fun l hl => ?_⟩, by omega⟩
      by_cases hlj : l = j
      · rw [hlj]
        exact hstop
      · exact hmin l (by omega)

theorem evictOldest_usedBytes_le (h : Coherent s) (k : Nat) :
    (evictOldest k s).1.usedBytes ≤ s.1.usedBytes := by
  have hnd : ((lruOrder s.1).take k).Nodup :=
    (List.nodup_reverse.mpr h.lru_nodup).sublist (List.take_sublist _ _)
  have := (dropLayers_used h hnd).2
  rw [evictOldest]
  omega

/-- With every entry evicted nothing is in use. -/
theorem evictOldest_all (h : Coherent s) {k : Nat} (hk : s.1.lru.length ≤ k) :
    (evictOldest k s).1.usedBytes = 0 ∧ (evictOldest k s).1.lru = [] ∧
      (evictOldest k s).1.entries = ∅ := by
  have hc := evictOldest_coherent h k
  have hlru : (evictOldest k s).1.lru = [] := by
    apply List.eq_nil_of_length_eq_zero
    rw [evictOldest_lru_length h]
    omega
  have hempty : (evictOldest k s).1.entries = ∅ := by
    refine Std.ExtTreeMap.ext_getElem? fun i => ?_
    have hi := (hc.lru_mem i).not.mp (by rw [hlru]; exact List.not_mem_nil)
    rw [Option.not_isSome_iff_eq_none.mp hi]
    simp
  refine ⟨?_, hlru, hempty⟩
  rw [hc.used_eq, hempty, sumOver_empty]

theorem availableRound_run (h : Coherent s) (requiredBytes evictions : Nat) :
    availableRound requiredBytes evictions s =
      if s.2.used + requiredBytes ≤ s.2.total then (.ok (.leave evictions), s)
      else match s.1.lru.getLast? with
      | none => (.ok (.leave evictions), s)
      | some i => (.ok (.again (evictions + 1)), dropLayer i s) := by
  rw [availableRound, bind_run, onSnd_run, canAllocate_run h.accounted.used_le]
  by_cases hfit : s.2.used + requiredBytes ≤ s.2.total
  · simp only [hfit, decide_true, if_true]
    rfl
  · simp only [hfit, decide_false, Bool.false_eq_true, if_false]
    rw [bind_run, evictLru_run h]
    cases s.1.lru.getLast? <;> rfl

theorem evictUntilAvailable_run (h : Coherent s) (requiredBytes : Nat) :
    ∃ k, evictUntilAvailable requiredBytes s = (.ok k, evictOldest k s) ∧
      k ≤ s.1.lru.length ∧
      ((evictOldest k s).2.used + requiredBytes ≤ s.2.total ∨ k = s.1.lru.length) ∧
      ∀ j < k, ¬ (evictOldest j s).2.used + requiredBytes ≤ s.2.total := by
  have htotal : ∀ j, (evictOldest j s).2.total = s.2.total := fun j => dropLayers_total _ _
  obtain ⟨k, hrun, hrest⟩ := evictLoop (fun t => t.2.used + requiredBytes ≤ t.2.total) id id h
    (fun k j => availableRound_run (evictOldest_coherent h j) requiredBytes k) 0
  rw [Nat.zero_add, ite_self] at hrun
  simp only [htotal] at hrest
  exact ⟨k, hrun, hrest⟩

theorem clear_run (h : Coherent s) :
    clear s = (.ok s.1.lru.length, evictOldest s.1.lru.length s) := by
  have hround : ∀ k j, clearRound k (evictOldest j s) =
      if False then (.ok (.leave k), evictOldest j s)
      else match (evictOldest j s).1.lru.getLast? with
      | none => (.ok (.leave k), evictOldest j s)
      | some i => (.ok (.again (k + 1)), dropLayer i (evictOldest j s)) := by
    intro k j
    rw [if_neg id, clearRound, bind_run, evictLru_run (evictOldest_coherent h j)]
    cases (evictOldest j s).1.lru.getLast? <;> rfl
  obtain ⟨k, hrun, -, hend, -⟩ := evictLoop (fun _ => False) id id h hround 0
  obtain rfl : k = s.1.lru.length := hend.resolve_left id
  rw [Nat.zero_add, ite_self] at hrun
  exact hrun

theorem fitsRound_run (h : Coherent s) (bytes : Nat) (hsum : s.1.usedBytes + bytes < u64Bound)
    (evictions : Nat) :
    fitsRound bytes evictions s =
      if s.1.usedBytes + bytes ≤ s.1.capacityBytes then (.ok (.leave (true, evictions)), s)
      else match s.1.lru.getLast? with
      | none => (.ok (.leave (false, evictions)), s)
      | some i => (.ok (.again (evictions + 1)), dropLayer i s) := by
  rw [fitsRound, self_bind_run, checkedAdd_of_lt hsum, okOr_bind_run]
  simp only
  by_cases hfit : s.1.usedBytes + bytes ≤ s.1.capacityBytes
  · rw [if_pos hfit, if_neg (Nat.not_lt.mpr hfit)]
    rfl
  · rw [if_neg hfit, if_pos (Nat.lt_of_not_le hfit), bind_run, evictLru_run h]
    cases s.1.lru.getLast? <;> rfl

/-- The eviction loop of an insertion always makes room. -/
theorem evictUntilFits_run (h : Coherent s) {bytes : Nat} (hcap : bytes ≤ s.1.capacityBytes)
    (hsum : s.1.usedBytes + bytes < u64Bound) (evictions : Nat) :
    ∃ k, evictUntilFits bytes evictions s = (.ok (true, evictions + k), evictOldest k s) ∧
      k ≤ s.1.lru.length ∧ (evictOldest k s).1.usedBytes + bytes ≤ s.1.capacityBytes ∧
      ∀ j < k, ¬ (evictOldest j s).1.usedBytes + bytes ≤ s.1.capacityBytes := by
  have hcapacity : ∀ j, (evictOldest j s).1.capacityBytes = s.1.capacityBytes :=
    fun j => dropLayers_capacity _ _
  have hround : ∀ k j, _ := fun k j =>
    fitsRound_run (evictOldest_coherent h j) bytes (by
      have := evictOldest_usedBytes_le h j
      omega) k
  obtain ⟨k, hrun, hle, hend, hmin⟩ := evictLoop
    (fun t => t.1.usedBytes + bytes ≤ t.1.capacityBytes) (true, ·) (false, ·) h hround evictions
  simp only [hcapacity] at hrun hend hmin
  have hfit : (evictOldest k s).1.usedBytes + bytes ≤ s.1.capacityBytes := by
    rcases hend with hfit | hall
    · exact hfit
    · rw [(evictOldest_all h (Nat.le_of_eq hall.symm)).1, Nat.zero_add]
      exact hcap
  rw [if_pos hfit] at hrun
  exact ⟨k, hrun, hle, hfit, hmin⟩

/-! ## Taking over the active charges -/

/-- The renames of the active charges of a layer. -/
def takeover (b : MemoryBudget) (i : Nat) : List (String × String) :=
  b.renames (activePrefix i) (cachePrefix i)

/-- The state with the active charges of a layer owned by a new entry. -/
def adopted (i : Nat) (value : α) (bytes : Nat) (s : LayerCache α × MemoryBudget) :
    LayerCache α × MemoryBudget :=
  ({ s.1 with
      usedBytes := s.1.usedBytes + bytes
      lru := i :: s.1.lru
      entries := s.1.entries.insert i
        { value, bytes, chargeNames := (takeover s.2 i).map Prod.snd } },
    s.2.move (takeover s.2 i))

theorem under_of_takeover {b : MemoryBudget} {p : String × String} (hp : p ∈ takeover b i) :
    Text.startsWith p.1 (activePrefix i) = true ∧ Text.startsWith p.2 (cachePrefix i) = true := by
  obtain ⟨-, hact, hcache⟩ := mem_renames.mp hp
  refine ⟨hact, ?_⟩
  rw [hcache]
  exact Text.startsWith_append _ _

/-- No charge is in the way of the rename of a layer that has no entry. -/
theorem takeover_movable (h : Coherent s) (hnew : s.1.entries[i]? = none) :
    Movable (takeover s.2 i) s.2.allocations := by
  refine movable_renames fun p hp => ?_
  have hcache := (under_of_takeover hp).2
  by_contra hsome
  obtain ⟨j, e, he, hn⟩ := h.covered p.2 (startsWith_allPrefix hcache)
    (Option.isSome_iff_ne_none.mpr hsome)
  have hij := cachePrefix_unique ((h.owned j e he).under _ hn) hcache
  rw [← hij, he] at hnew
  cases hnew

theorem adopted_coherent (h : Coherent s) (hnew : s.1.entries[i]? = none) (value : α)
    {bytes : Nat} (hbytes : s.2.sumUnder (activePrefix i) = bytes)
    (hfit : s.1.usedBytes + bytes ≤ s.1.capacityBytes) : Coherent (adopted i value bytes s) := by
  have hm := takeover_movable h hnew
  have hnotin : i ∉ s.1.lru := by
    rw [h.lru_mem, hnew]
    exact Bool.false_ne_true
  -- A name of another entry is neither a source nor a target of the rename.
  have hother : ∀ (j : Nat) (e : LayerEntry α), s.1.entries[j]? = some e → ∀ n ∈ e.chargeNames,
      (s.2.move (takeover s.2 i)).get n = s.2.get n := by
    intro j e he n hn
    have ho := h.owned j e he
    refine get_move_other hm (fun hsrc => ?_) (fun htgt => ?_)
    · obtain ⟨p, hp, rfl⟩ := List.mem_map.mp hsrc
      have hall := startsWith_allPrefix (ho.under _ hn)
      rw [allPrefix_of_active (under_of_takeover hp).1] at hall
      cases hall
    · obtain ⟨p, hp, rfl⟩ := List.mem_map.mp htgt
      have hcharged := ho.charged _ hn
      rw [show s.2.get p.2 = none from hm.absent p hp] at hcharged
      cases hcharged
  refine ⟨(Step.move hm).accounted h.accounted, ?_, hfit,
    List.nodup_cons.mpr ⟨hnotin, h.lru_nodup⟩, fun j => ?_, fun j e he => ?_, fun n hn hs => ?_⟩
  · show s.1.usedBytes + bytes = sumOver (fun _ e => LayerEntry.bytes e) (s.1.entries.insert i _)
    rw [sumOver_insert_of_none _ hnew, h.used_eq]
    exact Nat.add_comm _ _
  · show j ∈ i :: s.1.lru ↔ ((s.1.entries.insert i _)[j]?).isSome
    rw [getElem?_insert', List.mem_cons, h.lru_mem]
    by_cases hj : j = i
    · simp [hj]
    · simp [hj]
  · have he' : (s.1.entries.insert i
        { value, bytes, chargeNames := (takeover s.2 i).map Prod.snd })[j]? = some e := he
    rw [getElem?_insert'] at he'
    split at he'
    · rename_i hj
      cases he'
      subst hj
      refine ⟨hm.targets, fun n hn => ?_, fun n hn => ?_, ?_⟩
      · obtain ⟨p, hp, rfl⟩ := List.mem_map.mp hn
        exact (under_of_takeover hp).2
      · obtain ⟨p, hp, rfl⟩ := List.mem_map.mp hn
        show ((s.2.move (takeover s.2 j)).get p.2).isSome
        rw [get_move_target hm hp]
        exact (mem_renames.mp hp).1
      · show bytes = (s.2.move (takeover s.2 j)).sumOf ((takeover s.2 j).map Prod.snd)
        rw [sumOf_move hm, takeover, map_fst_renames]
        exact hbytes.symm
    · have ho := h.owned j e he'
      refine ⟨ho.nodup, ho.under, fun n hn => ?_, ho.bytes_eq.trans (sumOf_congr fun n hn => ?_)⟩
      · show ((s.2.move (takeover s.2 i)).get n).isSome
        rw [hother j e he' n hn]
        exact ho.charged n hn
      · exact (hother j e he' n hn).symm
  · by_cases htgt : n ∈ (takeover s.2 i).map Prod.snd
    · refine ⟨i, { value, bytes, chargeNames := (takeover s.2 i).map Prod.snd }, ?_, htgt⟩
      show (s.1.entries.insert i _)[i]? = _
      rw [getElem?_insert', if_pos rfl]
    · have hsrc : n ∉ (takeover s.2 i).map Prod.fst := by
        intro hsrc
        obtain ⟨p, hp, rfl⟩ := List.mem_map.mp hsrc
        rw [allPrefix_of_active (under_of_takeover hp).1] at hn
        cases hn
      have hs' : ((s.2.move (takeover s.2 i)).get n).isSome := hs
      rw [get_move_other hm hsrc htgt] at hs'
      obtain ⟨j, e, he, hn'⟩ := h.covered n hn hs'
      have hji : j ≠ i := by
        intro hji
        rw [hji, hnew] at he
        cases he
      refine ⟨j, e, ?_, hn'⟩
      show (s.1.entries.insert i _)[j]? = some e
      rw [getElem?_insert', if_neg hji, he]

theorem adopt_run (h : Coherent s) (hnew : s.1.entries[i]? = none) (value : α) {bytes : Nat}
    (hpos : 0 < bytes) (hbytes : s.2.sumUnder (activePrefix i) = bytes)
    (hsum : s.1.usedBytes + bytes < u64Bound) (evictions : Nat) :
    adopt i value bytes evictions s = (.ok (.cached evictions), adopted i value bytes s) := by
  have hm := takeover_movable h hnew
  have hne : s.2.renames (activePrefix i) (cachePrefix i) ≠ [] := by
    intro hnil
    have hnames := map_fst_renames s.2 (activePrefix i) (cachePrefix i)
    rw [hnil] at hnames
    rw [sumUnder, ← hnames] at hbytes
    have : 0 = bytes := hbytes
    omega
  have hfind : (s.2.renames (activePrefix i) (cachePrefix i)).find?
      (fun p => s.2.allocations.contains p.2) = none := by
    refine List.find?_eq_none.mpr fun p hp => ?_
    rw [contains_eq_isSome, show s.2.get p.2 = none from hm.absent p hp]
    exact Bool.false_ne_true
  rw [adopt, self_bind_run, okOr_bind_run, checkedAdd_of_lt hsum]
  simp only
  rw [bind_run]
  simp only [attempt, onSnd_run, renamePrefix_run, if_neg hne, hfind]
  rfl

/-! ## Insertion -/

theorem evictPresent_run (h : Coherent s) (i : Nat) :
    evictPresent i s = (.ok (if (s.1.entries[i]?).isSome then 1 else 0), dropLayer i s) := by
  rw [evictPresent, self_bind_run, Std.ExtTreeMap.contains_eq_isSome_getElem?]
  cases he : s.1.entries[i]? with
  | none => simp [dropLayer, he]
  | some e => simp [bind_of_ok (evictLayer_run h he)]

theorem evicted_gone (i k : Nat) :
    (evictOldest k (dropLayer i s)).1.entries[i]? = none := by
  rw [evictOldest, dropLayers_entries, dropLayer_entries, if_pos rfl, ite_self]

/-- Evictions leave the active charges alone. -/
theorem evicted_sumUnder (h : Coherent s) (i k : Nat) :
    (evictOldest k (dropLayer i s)).2.sumUnder (activePrefix i) =
      s.2.sumUnder (activePrefix i) := by
  refine sumUnder_congr fun n hn => ?_
  have hall := allPrefix_of_active hn
  rw [evictOldest, dropLayers_get (dropLayer_coherent h i) _ hall, dropLayer_get h i hall]

/-- An insertion keeps the layer or leaves everything as it was. -/
theorem insertLoaded_run (h : Coherent s) (i : Nat) (value : α) (bytes : Nat) :
    (insertLoaded i value bytes s = (.ok (.skipped value 0), s) ∧
        (bytes = 0 ∨ s.1.capacityBytes < bytes ∨ s.2.sumUnder (activePrefix i) ≠ bytes)) ∨
      (0 < bytes ∧ bytes ≤ s.1.capacityBytes ∧ s.2.sumUnder (activePrefix i) = bytes ∧
        ∃ k, k ≤ (dropLayer i s).1.lru.length ∧
          (evictOldest k (dropLayer i s)).1.usedBytes + bytes ≤ s.1.capacityBytes ∧
          insertLoaded i value bytes s =
            (.ok (.cached ((if (s.1.entries[i]?).isSome then 1 else 0) + k)),
              adopted i value bytes (evictOldest k (dropLayer i s)))) := by
  rw [insertLoaded, self_bind_run]
  by_cases hsize : bytes = 0 ∨ bytes > s.1.capacityBytes
  · rw [if_pos hsize]
    exact .inl ⟨rfl, hsize.imp_right .inl⟩
  rw [if_neg hsize, activeChargeBytes_run h.accounted]
  by_cases hbytes : s.2.sumUnder (activePrefix i) = bytes
  swap
  · rw [if_pos fun he => hbytes (Option.some.inj he)]
    exact .inl ⟨rfl, .inr (.inr hbytes)⟩
  rw [if_neg fun hne => hne (congrArg some hbytes)]
  obtain ⟨h0, hcap⟩ := not_or.mp hsize
  have hpos : 0 < bytes := Nat.pos_of_ne_zero h0
  have hcap' : bytes ≤ s.1.capacityBytes := Nat.not_lt.mp hcap
  have hd := dropLayer_coherent h i
  have hactive := sum_active_le h i
  have hused := h.accounted.used_le
  have hlt := h.accounted.total_lt
  have hdu := (dropLayer_used h i).2
  have hsum : (dropLayer i s).1.usedBytes + bytes < u64Bound := by omega
  obtain ⟨k, hloop, hk, hfit, -⟩ := evictUntilFits_run hd
    (by rw [dropLayer_capacity]; exact hcap') hsum (if (s.1.entries[i]?).isSome then 1 else 0)
  have he := evictOldest_coherent hd k
  have hle := evictOldest_usedBytes_le hd k
  have hbytes' := (evicted_sumUnder h i k).trans hbytes
  refine .inr ⟨hpos, hcap', hbytes, k, hk, by rwa [dropLayer_capacity] at hfit, ?_⟩
  rw [bind_of_ok (evictPresent_run h i), bind_of_ok hloop]
  simp only [if_true]
  exact adopt_run he (evicted_gone i k) value hpos hbytes' (by omega) _

end LayerCache
end Ramforge
