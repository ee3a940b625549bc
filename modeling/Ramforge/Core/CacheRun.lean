/-
What one budgeted cache operation can do to the cache and the budget together.

`Coherent` ties the two ledgers and the order of keys to the map of entries.  An
operation reaches its result by the changes of `Change`; the invariant is proved
of each change once.
-/
import Ramforge.Core.Cache
import Ramforge.Core.MemoryStep
import Ramforge.Rust.Lru

namespace Ramforge
namespace BoundedCache

open Rust Rust.Exec Rust.MapSum

/-- The bytes held by a map of entries. -/
def held (m : Std.ExtTreeMap String CacheEntry) : Nat := sumOver (fun _ e => CacheEntry.size e) m

/-- The cache and the budget agree on what is cached. -/
structure Coherent (s : BoundedCache × MemoryBudget) : Prop where
  accounted : s.2.Accounted
  used_eq : s.1.used = held s.1.entries
  used_le : s.1.used ≤ s.1.capacity
  capacity_lt : s.1.capacity < u64Bound
  lru_nodup : s.1.lru.Nodup
  lru_mem : ∀ key, key ∈ s.1.lru ↔ (s.1.entries[key]?).isSome
  charge_eq : ∀ key, s.2.get (budgetKey key) = (s.1.entries[key]?).map CacheEntry.size
  size_eq : ∀ (key : String) (e : CacheEntry), s.1.entries[key]? = some e → e.size = e.data.length

theorem budgetKey_injective {k k' : String} (h : budgetKey k = budgetKey k') : k = k' :=
  Text.append_left_inj.mp h

/-- The changes, with what was checked first. -/
inductive Change (s : BoundedCache × MemoryBudget) : BoundedCache × MemoryBudget → Prop where
  | reorder {lru : List String} (stats : CacheStats) (h : lru.Perm s.1.lru) :
      Change s ({ s.1 with lru, stats }, s.2)
  | drop {key : String} {e : CacheEntry} {lru : List String} (stats : CacheStats)
      (hold : s.1.entries[key]? = some e) (hlru : s.1.lru.Perm (key :: lru)) :
      Change s
        ({ s.1 with entries := s.1.entries.erase key, used := s.1.used - e.size, lru, stats },
          s.2.discharge (budgetKey key) e.size)
  | keep {key : String} {data : List UInt8} (stats : CacheStats)
      (hnew : s.1.entries[key]? = none) (hpos : 0 < data.length)
      (hcap : s.1.used + data.length ≤ s.1.capacity)
      (hfit : s.2.used + data.length ≤ s.2.total) :
      Change s
        ({ s.1 with
            entries := s.1.entries.insert key { data, size := data.length }
            used := s.1.used + data.length
            lru := key :: s.1.lru
            stats },
          s.2.charge (budgetKey key) data.length)
  | rollback {key : String} {size : Nat} (hnew : s.1.entries[key]? = none) (hpos : 0 < size)
      (hfit : s.2.used + size ≤ s.2.total) :
      Change s
        (s.1, (s.2.charge (budgetKey key) size).discharge (budgetKey key) size)

variable {s t : BoundedCache × MemoryBudget}

theorem Coherent.charge_none (h : Coherent s) {key : String} (hnew : s.1.entries[key]? = none) :
    s.2.get (budgetKey key) = none := by
  rw [h.charge_eq, hnew, Option.map_none]

theorem Coherent.charge_some (h : Coherent s) {key : String} {e : CacheEntry}
    (hold : s.1.entries[key]? = some e) : s.2.get (budgetKey key) = some e.size := by
  rw [h.charge_eq, hold, Option.map_some]

theorem Coherent.size_le (h : Coherent s) {key : String} {e : CacheEntry}
    (hold : s.1.entries[key]? = some e) : e.size ≤ s.1.used := by
  rw [h.used_eq]
  exact le_sumOver (fun _ e => CacheEntry.size e) hold

/-- One change keeps the cache and the budget in agreement. -/
theorem Change.coherent (hc : Change s t) (h : Coherent s) : Coherent t := by
  cases hc with
  | reorder stats hp =>
    refine ⟨h.accounted, h.used_eq, h.used_le, h.capacity_lt, ?_, fun key => ?_, h.charge_eq,
      h.size_eq⟩
    · exact hp.nodup_iff.mpr h.lru_nodup
    · exact hp.mem_iff.trans (h.lru_mem key)
  | @drop key e lru stats hold hlru =>
    have hstep := MemoryBudget.Step.discharge (h.charge_some hold)
    have hnd : (key :: lru).Nodup := hlru.nodup_iff.mp h.lru_nodup
    refine ⟨hstep.accounted h.accounted, ?_, ?_, h.capacity_lt, (List.nodup_cons.mp hnd).2,
      fun k => ?_, fun k => ?_, fun k e' he' => ?_⟩
    · show s.1.used - e.size = held (s.1.entries.erase key)
      rw [held, sumOver_erase_of_some _ hold, h.used_eq]
      rfl
    · show s.1.used - e.size ≤ s.1.capacity
      have := h.used_le
      omega
    · show k ∈ lru ↔ ((s.1.entries.erase key)[k]?).isSome
      rw [getElem?_erase']
      by_cases hk : k = key
      · subst hk
        simpa using (List.nodup_cons.mp hnd).1
      · rw [if_neg hk, ← h.lru_mem k, hlru.mem_iff, List.mem_cons]
        exact ⟨.inr, fun hm => hm.resolve_left hk⟩
    · show (s.2.discharge (budgetKey key) e.size).get (budgetKey k) =
        ((s.1.entries.erase key)[k]?).map CacheEntry.size
      rw [MemoryBudget.get_discharge, getElem?_erase']
      by_cases hk : k = key
      · subst hk
        rw [if_pos rfl, if_pos rfl, Option.map_none]
      · rw [if_neg (fun he => hk (budgetKey_injective he)), if_neg hk, h.charge_eq]
    · have he : (s.1.entries.erase key)[k]? = some e' := he'
      rw [getElem?_erase'] at he
      split at he
      · cases he
      · exact h.size_eq k e' he
  | @keep key data stats hnew hpos hcap hfit =>
    have hstep := MemoryBudget.Step.charge hpos (h.charge_none hnew) hfit
    have hnotin : key ∉ s.1.lru := by
      rw [h.lru_mem, hnew]
      exact Bool.false_ne_true
    refine ⟨hstep.accounted h.accounted, ?_, hcap, h.capacity_lt,
      List.nodup_cons.mpr ⟨hnotin, h.lru_nodup⟩, fun k => ?_, fun k => ?_, fun k e he => ?_⟩
    · show s.1.used + data.length = held (s.1.entries.insert key { data, size := data.length })
      rw [held, sumOver_insert_of_none _ hnew, h.used_eq]
      exact Nat.add_comm _ _
    · show k ∈ key :: s.1.lru ↔
        ((s.1.entries.insert key { data, size := data.length })[k]?).isSome
      rw [getElem?_insert', List.mem_cons, h.lru_mem k]
      by_cases hk : k = key
      · simp [hk]
      · simp [hk]
    · show (s.2.charge (budgetKey key) data.length).get (budgetKey k) =
        ((s.1.entries.insert key { data, size := data.length })[k]?).map CacheEntry.size
      rw [MemoryBudget.get_charge, getElem?_insert']
      by_cases hk : k = key
      · subst hk
        rw [if_pos rfl, if_pos rfl, Option.map_some]
      · rw [if_neg (fun he => hk (budgetKey_injective he)), if_neg hk, h.charge_eq]
    · have he' : (s.1.entries.insert key { data, size := data.length })[k]? = some e := he
      rw [getElem?_insert'] at he'
      split at he'
      · cases he'; rfl
      · exact h.size_eq k e he'
  | @rollback key size hnew hpos hfit =>
    have hnone := h.charge_none hnew
    have hcharge := MemoryBudget.Step.charge hpos hnone hfit
    have hback : (s.2.charge (budgetKey key) size).get (budgetKey key) = some size := by
      rw [MemoryBudget.get_charge, if_pos rfl]
    have hdischarge := MemoryBudget.Step.discharge hback
    refine ⟨hdischarge.accounted (hcharge.accounted h.accounted), h.used_eq, h.used_le,
      h.capacity_lt, h.lru_nodup, h.lru_mem, fun k => ?_, h.size_eq⟩
    show ((s.2.charge (budgetKey key) size).discharge (budgetKey key) size).get (budgetKey k) = _
    rw [MemoryBudget.get_discharge, MemoryBudget.get_charge]
    by_cases hk : budgetKey k = budgetKey key
    · rw [if_pos hk, budgetKey_injective hk, hnew, Option.map_none]
    · rw [if_neg hk, if_neg hk, h.charge_eq]

/-- Any number of changes. -/
abbrev Changes : BoundedCache × MemoryBudget → BoundedCache × MemoryBudget → Prop :=
  Relation.ReflTransGen Change

theorem Changes.coherent (hc : Changes s t) (h : Coherent s) : Coherent t := by
  induction hc with
  | refl => exact h
  | tail _ hstep ih => exact hstep.coherent ih

end BoundedCache
end Ramforge

/-!
The budgeted cache operations, as sequences of changes.
-/

namespace Ramforge
namespace BoundedCache

open Rust Rust.Exec Rust.MapSum

variable {ε : Type} {s t u : BoundedCache × MemoryBudget} {key : String} {size : Nat}

theorem takeEntry_of_none {c : BoundedCache} (message : String)
    (h : c.entries[key]? = none) :
    (takeEntry key message : Exec BoundedCache ε _) c = (.ok none, c) := by
  rw [takeEntry, self_bind_run, h]
  rfl

theorem takeEntry_of_some {c : BoundedCache} (message : String) {e : CacheEntry}
    (h : c.entries[key]? = some e) (hle : e.size ≤ c.used) :
    (takeEntry key message : Exec BoundedCache ε _) c =
      (.ok (some e), { c with entries := c.entries.erase key, used := c.used - e.size }) := by
  rw [takeEntry, self_bind_run, h]
  simp [checkedSub_of_le hle]

theorem releaseCharge_run {κ : Type} {k : κ} {b : MemoryBudget} (message : String)
    (h : b.Accounted) {bytes : Nat} (hn : b.get (budgetKey key) = some bytes) :
    (releaseCharge key message : Exec (κ × MemoryBudget) ε Unit) (k, b) =
      (.ok (), (k, b.discharge (budgetKey key) bytes)) := by
  rw [releaseCharge, bind_run]
  simp only [orPanic, onSnd_run, MemoryBudget.release_run h, hn]
  rfl

/-! ## Eviction -/

/-- From `s` to `t` entries were only taken out. -/
structure Evicted (s t : BoundedCache × MemoryBudget) : Prop where
  changes : Changes s t
  capacity_eq : t.1.capacity = s.1.capacity
  total_eq : t.2.total = s.2.total
  used_le : t.1.used ≤ s.1.used
  absent : ∀ key : String, s.1.entries[key]? = none → t.1.entries[key]? = none

theorem Evicted.refl (s : BoundedCache × MemoryBudget) : Evicted s s :=
  ⟨.refl, rfl, rfl, Nat.le_refl _, fun _ h => h⟩

theorem Evicted.trans (h : Evicted s t) (h' : Evicted t u) : Evicted s u where
  changes := h.changes.trans h'.changes
  capacity_eq := h'.capacity_eq.trans h.capacity_eq
  total_eq := h'.total_eq.trans h.total_eq
  used_le := Nat.le_trans h'.used_le h.used_le
  absent key hk := h'.absent key (h.absent key hk)

theorem evicted_drop {e : CacheEntry} {lru : List String} (stats : CacheStats)
    (hold : s.1.entries[key]? = some e) (hlru : s.1.lru.Perm (key :: lru)) :
    Evicted s
      ({ s.1 with entries := s.1.entries.erase key, used := s.1.used - e.size, lru, stats },
        s.2.discharge (budgetKey key) e.size) where
  changes := .single (.drop stats hold hlru)
  capacity_eq := rfl
  total_eq := rfl
  used_le := Nat.sub_le _ _
  absent k hk := by
    show (s.1.entries.erase key)[k]? = none
    rw [getElem?_erase', hk, ite_self]

/-- An eviction answers `false` on an empty cache only, and then changes nothing. -/
theorem evictLruBudgeted_run (h : Coherent s) :
    (s.1.lru = [] ∧ (evictLruBudgeted : Exec _ ε Bool) s = (.ok false, s)) ∨
      ∃ t, (evictLruBudgeted : Exec _ ε Bool) s = (.ok true, t) ∧ Evicted s t ∧
        t.1.lru.length < s.1.lru.length := by
  obtain ⟨c, b⟩ := s
  cases hlast : c.lru.getLast? with
  | none =>
    have hnil : c.lru = [] := List.getLast?_eq_none_iff.mp hlast
    have hc : { c with lru := c.lru.dropLast } = c := by rw [hnil]; cases c; simp_all
    refine .inl ⟨hnil, ?_⟩
    rw [evictLruBudgeted, bind_run, onFst_run, popBack, self_bind_run, modify_bind_run, hlast, hc]
    rfl
  | some key =>
    have hmem : key ∈ c.lru := List.mem_of_getLast? hlast
    obtain ⟨e, he⟩ := Option.isSome_iff_exists.mp ((h.lru_mem key).mp hmem)
    have he' : c.entries[key]? = some e := he
    have hlen : c.lru.dropLast.length < c.lru.length := by
      rw [List.length_dropLast]
      have := List.length_pos_of_mem hmem
      omega
    let stats : CacheStats := { c.stats with
      evictions := c.stats.evictions + 1
      currentBytes := c.used - e.size
      numEntries := (c.entries.erase key).size }
    refine .inr ⟨_, ?_, evicted_drop (s := (c, b)) stats he (Lru.perm_popBack hlast),
      hlen⟩
    have htake := takeEntry_of_some (ε := ε) (c := { c with lru := c.lru.dropLast })
      "BoundedCache accounting underflow while budgeted eviction" he' (h.size_le he)
    have hrel := releaseCharge_run (ε := ε) (k := { c with
          lru := c.lru.dropLast
          entries := c.entries.erase key
          used := c.used - e.size
          stats := { c.stats with evictions := c.stats.evictions + 1 } })
        "failed to release evicted cache charge" h.accounted (h.charge_some he)
    rw [evictLruBudgeted, bind_run, onFst_run, popBack, self_bind_run, modify_bind_run, hlast]
    simp only [pure_run, bind_run, onFst_run, htake, Option.isSome_some, if_true, countEviction,
      modify_run]
    rw [hrel]
    rfl

theorem replaceBudgeted_run (h : Coherent s) (key : String) :
    ∃ t, (replaceBudgeted key : Exec _ ε Unit) s = (.ok (), t) ∧ Evicted s t ∧
      t.1.entries[key]? = none := by
  obtain ⟨c, b⟩ := s
  cases he : c.entries[key]? with
  | none =>
    refine ⟨(c, b), ?_, .refl _, he⟩
    rw [replaceBudgeted, bind_run, onFst_run, takeEntry_of_none _ he]
    rfl
  | some e =>
    have hmem : key ∈ c.lru := (h.lru_mem key).mpr (Option.isSome_iff_exists.mpr ⟨e, he⟩)
    have hgone : (c.entries.erase key)[key]? = none := by rw [getElem?_erase', if_pos rfl]
    refine ⟨_, ?_, evicted_drop (s := (c, b)) c.stats he
      (Lru.perm_retain h.lru_nodup hmem), hgone⟩
    have hrel := releaseCharge_run (ε := ε) (k := { c with
          entries := c.entries.erase key
          used := c.used - e.size
          lru := c.lru.filter (· ≠ key) })
        "failed to release replaced cache charge" h.accounted (h.charge_some he)
    rw [replaceBudgeted, bind_run, onFst_run, takeEntry_of_some _ he (h.size_le he)]
    simp only [Option.isSome_some, if_true, bind_run, onFst_run, forget, modify_run]
    rw [hrel]

/-- The first loop leaves room in the cache, or the sizes do not fit a `u64`. -/
theorem evictUntilCapacity_run (h : Coherent s) (size : Nat) :
    Evicted s (evictUntilCapacity size s).2 ∧
      ((evictUntilCapacity size s).1 = .ok () →
        (evictUntilCapacity size s).2.1.used + size ≤ s.1.capacity) := by
  refine loop_rule (I := fun _ t => Evicted s t)
    (Q := fun o t => Evicted s t ∧ (o = .ok () → t.1.used + size ≤ s.1.capacity))
    (fun _ t ht => ?_) (Evicted.refl s)
  have hct := ht.changes.coherent h
  rw [self_bind_run, expect_bind_run]
  cases hsum : checkedAdd t.1.used size with
  | none =>
    refine ⟨ht, fun he => ?_⟩
    cases he
  | some total =>
    obtain ⟨-, rfl⟩ := checkedAdd_eq_some.mp hsum
    simp only
    by_cases hgt : t.1.used + size > t.1.capacity
    · rw [if_pos hgt, bind_run]
      rcases evictLruBudgeted_run (ε := CacheError) hct with ⟨-, he⟩ | ⟨u, he, hu, hlt⟩
      · rw [he]
        refine ⟨ht, fun hok => ?_⟩
        cases hok
      · rw [he]
        exact ⟨ht.trans hu, hlt⟩
    · rw [if_neg hgt]
      refine ⟨ht, fun _ => ?_⟩
      have := ht.capacity_eq
      omega

/-- The second loop answers `true` when the budget has room. -/
theorem evictUntilBudget_run (h : Coherent s) (size : Nat) :
    Evicted s (evictUntilBudget size s).2 ∧
      ((evictUntilBudget size s).1 = .ok true →
        (evictUntilBudget size s).2.2.used + size ≤ s.2.total) := by
  refine loop_rule (I := fun _ t => Evicted s t)
    (Q := fun o t => Evicted s t ∧ (o = .ok true → t.2.used + size ≤ s.2.total))
    (fun _ t ht => ?_) (Evicted.refl s)
  have hct := ht.changes.coherent h
  rw [bind_run, onSnd_run, MemoryBudget.canAllocate_run hct.accounted.used_le]
  by_cases hfit : t.2.used + size ≤ t.2.total
  · simp only [hfit, decide_true, if_true]
    refine ⟨ht, fun _ => ?_⟩
    rw [← ht.total_eq]
    exact hfit
  · simp only [hfit, decide_false, Bool.false_eq_true, if_false]
    rw [bind_run]
    rcases evictLruBudgeted_run (ε := CacheError) hct with ⟨-, he⟩ | ⟨u, he, hu, hlt⟩
    · rw [he]
      refine ⟨ht, fun hok => ?_⟩
      cases hok
    · rw [he]
      exact ⟨ht.trans hu, hlt⟩

/-! ## The operations -/

theorem store_run {c : BoundedCache} (key message : String) (data : List UInt8)
    (hsum : c.used + data.length < u64Bound) :
    ∃ stats, (store key data data.length message : Exec BoundedCache ε Unit) c =
      (.ok (), { c with
        entries := c.entries.insert key { data, size := data.length }
        used := c.used + data.length
        lru := key :: c.lru
        stats }) := by
  refine ⟨{ c.stats with
    currentBytes := c.used + data.length
    numEntries := (c.entries.insert key { data, size := data.length }).size }, ?_⟩
  rw [store, modify_bind_run, modify_bind_run, self_bind_run, expect_bind_run,
    checkedAdd_of_lt hsum]
  rfl

/-- Under a fresh charge, the builder's answer is kept or the charge rolled back. -/
theorem buildEntry_changes (h : Coherent s) (hnew : s.1.entries[key]? = none) (hpos : 0 < size)
    (hcap : s.1.used + size ≤ s.1.capacity) (hfit : s.2.used + size ≤ s.2.total)
    (build : Outcome CacheError (List UInt8)) :
    Changes s (buildEntry key size build (s.1, s.2.charge (budgetKey key) size)).2 := by
  have hstep := MemoryBudget.Step.charge hpos (h.charge_none hnew) hfit
  have hacc := hstep.accounted h.accounted
  have hget : (s.2.charge (budgetKey key) size).get (budgetKey key) = some size := by
    rw [MemoryBudget.get_charge, if_pos rfl]
  have hrel := fun message => releaseCharge_run (ε := CacheError) (k := s.1) message hacc hget
  have hback := Change.rollback hnew hpos hfit
  cases build with
  | err error =>
    rw [buildEntry, bind_of_ok (hrel _)]
    exact .single hback
  | panic payload =>
    rw [buildEntry, bind_of_ok (hrel _)]
    exact .single hback
  | ok data =>
    rw [buildEntry]
    cases hlen : entryLen data with
    | none =>
      simp only
      rw [bind_of_ok (hrel _)]
      exact .single hback
    | some actualSize =>
      have hactual : actualSize = data.length := by
        rw [entryLen] at hlen
        split at hlen
        · exact (Option.some.inj hlen).symm
        · cases hlen
      simp only
      by_cases hne : actualSize ≠ size
      · rw [if_pos hne, bind_of_ok (hrel _)]
        exact .single hback
      · obtain rfl : actualSize = size := not_not.mp hne
        subst hactual
        have hlt := h.capacity_lt
        obtain ⟨stats, hstore⟩ := store_run (ε := CacheError) (c := s.1) key
          "BoundedCache accounting overflow after budgeted insert" data (by omega)
        rw [if_neg hne, bind_run, onFst_run, hstore]
        exact .single (.keep stats hnew hpos hcap hfit)

theorem insertBudgetedWith_changes (h : Coherent s) (key : String) (size : Nat)
    (build : Outcome CacheError (List UInt8)) :
    Changes s (insertBudgetedWith key size build s).2 := by
  rw [insertBudgetedWith, self_bind_run, failIf_bind_run, failIf_bind_run]
  by_cases h0 : size = 0
  · rw [if_pos h0]
  by_cases hbig : size > s.1.capacity
  · rw [if_neg h0, if_pos hbig]
  rw [if_neg h0, if_neg hbig]
  obtain ⟨t, hrepl, hst, hnew⟩ := replaceBudgeted_run (ε := CacheError) h key
  have ht := hst.changes.coherent h
  rw [bind_of_ok hrepl, bind_run]
  obtain ⟨htu, hroom⟩ := evictUntilCapacity_run ht size
  cases hloop : evictUntilCapacity size t with
  | mk o u =>
    rw [hloop] at htu hroom
    have hsu := hst.trans htu
    cases o with
    | err e => exact hsu.changes
    | panic p => exact hsu.changes
    | ok _ =>
      have hu := hsu.changes.coherent h
      simp only
      rw [self_bind_run, failIf_bind_run]
      by_cases hfull : u.1.cannotFit size = true
      · rw [if_pos hfull]
        exact hsu.changes
      rw [if_neg hfull, bind_run]
      obtain ⟨huv, hfit⟩ := evictUntilBudget_run hu size
      cases hloop' : evictUntilBudget size u with
      | mk o' v =>
        rw [hloop'] at huv hfit
        have hsv := hsu.trans huv
        cases o' with
        | err e => exact hsv.changes
        | panic p => exact hsv.changes
        | ok room =>
          cases room with
          | false => exact hsv.changes
          | true =>
            have hv := hsv.changes.coherent h
            have hnewv : v.1.entries[key]? = none := huv.absent key (htu.absent key hnew)
            have hcapv : v.1.used + size ≤ v.1.capacity := by
              have h1 : u.1.used + size ≤ t.1.capacity := hroom rfl
              have h2 : v.1.used ≤ u.1.used := huv.used_le
              have h3 : v.1.capacity = t.1.capacity := (htu.trans huv).capacity_eq
              omega
            have hfitv : v.2.used + size ≤ v.2.total := by
              rw [huv.total_eq]
              exact hfit rfl
            have hpos : 0 < size := Nat.pos_of_ne_zero h0
            have hcharge : MemoryBudget.allocate (budgetKey key) size v.2 =
                (.ok (), v.2.charge (budgetKey key) size) := by
              rw [MemoryBudget.allocate_run hv.accounted, if_neg h0, hv.charge_none hnewv]
              simp [hfitv]
            simp only [if_true]
            rw [bind_run, mapErr_run, onSnd_run, hcharge]
            exact hsv.changes.trans (buildEntry_changes hv hnewv hpos hcapv hfitv build)

theorem insertBudgeted_changes (h : Coherent s) (key : String) (data : List UInt8) :
    Changes s (insertBudgeted key data s).2 := by
  rw [insertBudgeted, okOr_bind_run]
  cases entryLen data with
  | none => exact .refl
  | some size => exact insertBudgetedWith_changes h key size (.ok data)

theorem remove_run {c : BoundedCache} {e : CacheEntry} (h : c.entries[key]? = some e)
    (hle : e.size ≤ c.used) :
    ∃ stats, (remove key : Exec BoundedCache ε _) c =
      (.ok (some e.data), { c with
        entries := c.entries.erase key
        used := c.used - e.size
        lru := c.lru.filter (· ≠ key)
        stats }) := by
  refine ⟨{ c.stats with
    currentBytes := c.used - e.size
    numEntries := (c.entries.erase key).size }, ?_⟩
  rw [remove, bind_of_ok (takeEntry_of_some _ h hle)]
  rfl

theorem removeBudgeted_changes (h : Coherent s) (key : String) (reserves : Bool) :
    Changes s ((removeBudgeted key reserves : Exec _ ε _) s).2 := by
  obtain ⟨c, b⟩ := s
  rw [removeBudgeted, bind_run, onFst_run]
  cases he : c.entries[key]? with
  | none =>
    rw [remove, bind_of_ok (takeEntry_of_none _ he)]
    exact .refl
  | some e =>
    have hmem : key ∈ c.lru := (h.lru_mem key).mpr (Option.isSome_iff_exists.mpr ⟨e, he⟩)
    obtain ⟨stats, hrem⟩ := remove_run (ε := ε) he (h.size_le he)
    rw [hrem]
    simp only
    rw [bind_of_ok (releaseCharge_run _ h.accounted (h.charge_some he))]
    exact .single (.drop _ he (Lru.perm_retain h.lru_nodup hmem))

theorem get_changes (h : Coherent s) (key : String) :
    Changes s ((onFst (get key) : Exec _ ε (Option (List UInt8))) s).2 := by
  obtain ⟨c, b⟩ := s
  rw [onFst_run, get, self_bind_run, Std.ExtTreeMap.contains_eq_isSome_getElem?]
  by_cases he : (c.entries[key]?).isSome = true
  · have hmem : key ∈ c.lru := (h.lru_mem key).mpr he
    rw [if_pos he]
    exact .single (.reorder _ (Lru.perm_retain h.lru_nodup hmem).symm)
  · rw [if_neg he]
    exact .single (.reorder _ (.refl _))

/-- Releasing the charges of all entries, one after another, ends where dropping
the entries one after another would have ended. -/
theorem releaseAll_changes {l : List (String × CacheEntry)} (h : Coherent s)
    (hnd : (l.map Prod.fst).Nodup) (hl : ∀ k e, (k, e) ∈ l ↔ s.1.entries[k]? = some e)
    (k₀ : BoundedCache) (stats : CacheStats) :
    ∃ b, (releaseAll l : Exec _ ε Unit) (k₀, s.2) = (.ok (), (k₀, b)) ∧
      Changes s ({ s.1 with entries := ∅, lru := [], used := 0, stats }, b) := by
  induction l generalizing s with
  | nil =>
    have hnone : ∀ k : String, s.1.entries[k]? = none := fun k => by
      cases hk : s.1.entries[k]? with
      | none => rfl
      | some e => exact absurd ((hl k e).mpr hk) List.not_mem_nil
    have hempty : s.1.entries = ∅ := Std.ExtTreeMap.ext_getElem? fun k => by rw [hnone]; simp
    have hlru : s.1.lru = [] := List.eq_nil_iff_forall_not_mem.mpr fun k hk => by
      have := (h.lru_mem k).mp hk
      rw [hnone] at this
      cases this
    have hused : s.1.used = 0 := by rw [h.used_eq, hempty, held, sumOver_empty]
    refine ⟨s.2, rfl, ?_⟩
    rw [← hempty, ← hlru, ← hused]
    exact .single (.reorder _ (.refl _))
  | cons p rest ih =>
    obtain ⟨key, e⟩ := p
    have hnd' := List.nodup_cons.mp hnd
    have he : s.1.entries[key]? = some e := (hl key e).mp List.mem_cons_self
    have hmem : key ∈ s.1.lru := (h.lru_mem key).mpr (Option.isSome_iff_exists.mpr ⟨e, he⟩)
    have hdrop := Change.drop s.1.stats he (Lru.perm_retain h.lru_nodup hmem)
    have hrest : ∀ k e', (k, e') ∈ rest ↔ (s.1.entries.erase key)[k]? = some e' := by
      intro k e'
      rw [getElem?_erase']
      by_cases hk : k = key
      · subst hk
        rw [if_pos rfl]
        constructor
        · intro hin
          exact absurd (List.mem_map.mpr ⟨_, hin, rfl⟩) hnd'.1
        · intro hno
          cases hno
      · rw [if_neg hk, ← hl k e', List.mem_cons]
        exact ⟨.inr, fun hor => hor.resolve_left fun heq => hk (Prod.mk.inj heq).1⟩
    obtain ⟨b, hrun, hch⟩ := ih (hdrop.coherent h) hnd'.2 hrest
    refine ⟨b, ?_, .head hdrop hch⟩
    rw [releaseAll, bind_of_ok (releaseCharge_run _ h.accounted (h.charge_some he))]
    exact hrun

theorem clearBudgeted_changes (h : Coherent s) :
    Changes s ((clearBudgeted : Exec _ ε Unit) s).2 := by
  have hnd : (s.1.entries.toList.map Prod.fst).Nodup := by
    rw [Std.ExtTreeMap.map_fst_toList_eq_keys]
    exact Std.ExtTreeMap.nodup_keys
  obtain ⟨b, hrun, hch⟩ := releaseAll_changes (ε := ε) h hnd
    (fun k e => Std.ExtTreeMap.mem_toList_iff_getElem?_eq_some)
    { s.1 with entries := ∅, lru := [], used := 0 }
    { s.1.stats with currentBytes := 0, numEntries := 0 }
  rw [clearBudgeted, self_bind_run, bind_run, onFst_run, modify_run]
  simp only
  rw [bind_of_ok hrun]
  exact hch

end BoundedCache
end Ramforge
