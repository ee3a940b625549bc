/-
The cache as a list of entries in the order of use.

`Refines` ties the map, the order and the byte count to one list.  Every operation on the
cache does on the list what the list's own operation does.
-/
import Ramforge.Core.CacheRun
import Ramforge.Rust.Lru

namespace Ramforge
namespace BoundedCache

open Rust Rust.Exec Rust.MapSum

/-- Keys and data, the least recently used first. -/
abbrev Contents := List (String × List UInt8)

structure Refines (c : BoundedCache) (l : Contents) : Prop where
  lru : c.lru = (LruList.keys l).reverse
  entries : ∀ key, c.entries[key]? =
    (LruList.value? l key).map fun data => { data, size := data.length : CacheEntry }
  used : c.used = LruList.weight List.length l
  nodup : (LruList.keys l).Nodup

variable {ε : Type} {c : BoundedCache} {l : Contents} {key : String}

theorem Refines.entry_none (h : Refines c l) (hkey : LruList.value? l key = none) :
    c.entries[key]? = none := by
  rw [h.entries, hkey]
  rfl

theorem Refines.entry_some (h : Refines c l) {data : List UInt8}
    (hkey : LruList.value? l key = some data) :
    c.entries[key]? = some { data, size := data.length } := by
  rw [h.entries, hkey]
  rfl

theorem Refines.length_le (h : Refines c l) {data : List UInt8}
    (hkey : LruList.value? l key = some data) : data.length ≤ c.used := by
  rw [h.used, LruList.weight_without _ h.nodup hkey]
  exact Nat.le_add_left _ _

/-- The map does not see the statistics, and a list that names no key changes nothing. -/
theorem Refines.of_stats (h : Refines c l) (stats : CacheStats) : Refines { c with stats } l :=
  ⟨h.lru, h.entries, h.used, h.nodup⟩

/-- Retaining the other keys is dropping one entry of the list. -/
theorem retain_keys (l : Contents) (key : String) :
    (LruList.keys l).reverse.filter (· ≠ key) = (LruList.keys (LruList.without l key)).reverse := by
  rw [LruList.keys_without, List.filter_reverse]

/-- The cache without an entry. -/
theorem Refines.without (h : Refines c l) {data : List UInt8} (hkey : LruList.value? l key = some data) :
    Refines { c with
      entries := c.entries.erase key
      used := c.used - data.length
      lru := c.lru.filter (· ≠ key) } (LruList.without l key) where
  lru := by rw [← retain_keys, ← h.lru]
  entries j := by
    show (c.entries.erase key)[j]? = _
    rw [getElem?_erase', LruList.value?_without, h.entries]
    split <;> rfl
  used := by
    show c.used - data.length = _
    rw [h.used, LruList.weight_without _ h.nodup hkey, Nat.add_sub_cancel]
  nodup := LruList.nodup_without h.nodup

/-- The cache with a new entry behind some of the old ones. -/
theorem Refines.push {n : Nat} (h : Refines c (l.drop n)) (hkey : key ∉ LruList.keys l)
    (data : List UInt8) (stats : CacheStats) :
    Refines { c with
      entries := c.entries.insert key { data, size := data.length }
      used := c.used + data.length
      lru := key :: c.lru
      stats } (l.drop n ++ [(key, data)]) := by
  have hdrop : key ∉ LruList.keys (l.drop n) := by
    rw [LruList.keys, List.map_drop]
    exact fun hmem => hkey (List.mem_of_mem_drop hmem)
  refine ⟨?_, fun j => ?_, ?_, LruList.nodup_push h.nodup hdrop⟩
  · show key :: c.lru = _
    rw [h.lru, LruList.keys_append, List.reverse_append]
    rfl
  · show (c.entries.insert key { data, size := data.length })[j]? = _
    rw [getElem?_insert', LruList.value?_push hdrop, h.entries]
    split <;> rfl
  · show c.used + data.length = _
    rw [h.used, LruList.weight_push]

/-! ## Get and remove -/

theorem get_refines (h : Refines c l) (key : String) :
    ∃ c', (get key : Exec BoundedCache ε _) c = (.ok (LruList.value? l key), c') ∧
      Refines c' (LruList.use l key) ∧ c'.capacity = c.capacity ∧
      c'.stats.evictions = c.stats.evictions := by
  rw [get, self_bind_run, Std.ExtTreeMap.contains_eq_isSome_getElem?, LruList.use]
  cases hkey : LruList.value? l key with
  | none =>
    rw [h.entry_none hkey]
    exact ⟨_, rfl, h.of_stats _, rfl, rfl⟩
  | some data =>
    rw [h.entry_some hkey]
    refine ⟨_, rfl, ⟨?_, fun j => ?_, ?_, LruList.nodup_push (LruList.nodup_without h.nodup)
      LruList.not_mem_without⟩, rfl, rfl⟩
    · show key :: c.lru.filter (· ≠ key) = _
      rw [h.lru, retain_keys, LruList.keys_append, List.reverse_append]
      rfl
    · show c.entries[j]? = _
      rw [h.entries, LruList.value?_push LruList.not_mem_without, LruList.value?_without]
      by_cases hj : j = key
      · subst hj
        rw [hkey, if_pos rfl]
      · rw [if_neg hj, if_neg hj]
    · show c.used = _
      rw [h.used, LruList.weight_push, LruList.weight_without _ h.nodup hkey]

theorem remove_refines (h : Refines c l) (key : String) :
    ∃ c', (remove key : Exec BoundedCache ε _) c = (.ok (LruList.value? l key), c') ∧
      Refines c' (LruList.without l key) ∧ c'.capacity = c.capacity ∧
      c'.stats.evictions = c.stats.evictions := by
  cases hkey : LruList.value? l key with
  | none =>
    have hout := LruList.without_of_not_mem (LruList.value?_eq_none.mp hkey)
    rw [remove, bind_of_ok (takeEntry_of_none _ (h.entry_none hkey)), hout]
    exact ⟨c, rfl, h, rfl, rfl⟩
  | some data =>
    rw [remove, bind_of_ok (takeEntry_of_some _ (h.entry_some hkey) (h.length_le hkey))]
    exact ⟨_, rfl, (h.without hkey).of_stats _, rfl, rfl⟩

/-! ## Insert -/

/-- A round of the eviction loop. -/
def evictRound (size : Nat) (_ : Unit) : Exec BoundedCache CacheError (RoundEnd Unit Unit) := do
  let c ← self
  let total ← expect (checkedAdd c.used size) "BoundedCache accounting overflow while inserting"
  if total > c.capacity then
    match ← popBack with
    | some lruKey =>
      let entry ← takeEntry lruKey "BoundedCache accounting underflow while evicting"
      if entry.isSome then countEviction
      return .again ()
    | none => throw lruEmpty
  else return .leave ()

theorem evictUntilFits_eq (size : Nat) :
    evictUntilFits size = loop (fun c => c.lru.length) (evictRound size) () := rfl

theorem evictRound_leave {size : Nat} (hfits : c.used + size ≤ c.capacity)
    (hlt : c.used + size < u64Bound) : evictRound size () c = (.ok (.leave ()), c) := by
  rw [evictRound, self_bind_run, expect_bind_run, checkedAdd_of_lt hlt]
  simp only
  rw [if_neg (Nat.not_lt.mpr hfits)]
  rfl

/-- A round takes the least recently used entry. -/
theorem evictRound_again {size : Nat} {data : List UInt8} (h : Refines c ((key, data) :: l))
    (hbig : c.capacity < c.used + size) (hlt : c.used + size < u64Bound) :
    ∃ c', evictRound size () c = (.ok (.again ()), c') ∧ Refines c' l ∧ c'.capacity = c.capacity ∧
      c'.stats.evictions = c.stats.evictions + 1 := by
  have hnot : key ∉ LruList.keys l := (List.nodup_cons.mp h.nodup).1
  have hkey : LruList.value? ((key, data) :: l) key = some data := by
    rw [LruList.value?_cons, if_pos rfl]
  have hlast : c.lru = (LruList.keys l).reverse ++ [key] := by
    rw [h.lru, LruList.keys_cons, List.reverse_cons]
  have hpop : (popBack : Exec BoundedCache CacheError _) c =
      (.ok (some key), { c with lru := (LruList.keys l).reverse }) := by
    rw [popBack, self_bind_run, modify_bind_run, hlast, List.getLast?_concat, List.dropLast_concat]
    rfl
  have htake := takeEntry_of_some (ε := CacheError) (c := { c with lru := (LruList.keys l).reverse })
    "BoundedCache accounting underflow while evicting" (h.entry_some hkey) (h.length_le hkey)
  have hwithout : LruList.without ((key, data) :: l) key = l := by
    rw [LruList.without, List.filter_cons, if_neg (by simp)]
    exact LruList.without_of_not_mem hnot
  have hrest := h.without hkey
  rw [hwithout] at hrest
  refine ⟨{ c with
    lru := (LruList.keys l).reverse
    entries := c.entries.erase key
    used := c.used - data.length
    stats := { c.stats with evictions := c.stats.evictions + 1 } }, ?_,
    ⟨rfl, hrest.entries, hrest.used, hrest.nodup⟩, rfl, rfl⟩
  rw [evictRound, self_bind_run, expect_bind_run, checkedAdd_of_lt hlt]
  simp only
  rw [if_pos hbig, bind_of_ok hpop]
  simp only
  rw [bind_of_ok htake]
  rfl

/-- The loop takes the shortest front whose removal makes room. -/
theorem evict_refines {size : Nat} (h : Refines c l) (hsize : size ≤ c.capacity)
    (hlt : c.used + size < u64Bound) {n : Nat} (hn : l.length < n) :
    ∃ c', loopN (evictRound size) n () c = (.ok (), c') ∧
      Refines c' (l.drop (LruList.surplus List.length (c.capacity - size) l)) ∧
      c'.capacity = c.capacity ∧
      c'.stats.evictions = c.stats.evictions + LruList.surplus List.length (c.capacity - size) l := by
  have hused := h.used
  induction l generalizing c n with
  | nil =>
    obtain ⟨n, rfl⟩ : ∃ m, n = m + 1 := ⟨n - 1, by omega⟩
    have hzero : c.used = 0 := hused
    refine ⟨c, ?_, h, rfl, rfl⟩
    rw [loopN, bind_of_ok (evictRound_leave (by omega) hlt)]
    rfl
  | cons e rest ih =>
    obtain ⟨n, rfl⟩ : ∃ m, n = m + 1 := ⟨n - 1, by omega⟩
    rcases Nat.lt_or_ge c.capacity (c.used + size) with hbig | hfits
    · obtain ⟨c₁, hround, hrefines, hcapacity, hevictions⟩ := evictRound_again h hbig hlt
      have hless : c₁.used ≤ c.used := by
        rw [hused, hrefines.used, LruList.weight_cons]
        exact Nat.le_add_left _ _
      have hlen : rest.length < n := Nat.lt_of_succ_lt_succ hn
      obtain ⟨c', hrun, hlast, hcapacity', hevictions'⟩ := ih hrefines (hcapacity.symm ▸ hsize)
        (by omega) hlen hrefines.used
      rw [hcapacity] at hlast hcapacity' hevictions'
      rw [LruList.surplus_cons_of_lt _ (by omega)]
      refine ⟨c', ?_, hlast, hcapacity', by omega⟩
      rw [loopN, bind_of_ok hround]
      exact hrun
    · rw [LruList.surplus_cons_of_le _ (by omega)]
      refine ⟨c, ?_, h, rfl, rfl⟩
      rw [loopN, bind_of_ok (evictRound_leave hfits hlt)]
      rfl

/-- An insertion of a value above the capacity. -/
theorem insert_too_large (key : String) {data : List UInt8} (hbig : c.capacity < data.length) :
    insert key data c = (.err (if data.length < u64Bound then .tooLarge data.length c.capacity
      else .general "cache entry length exceeds u64"), c) := by
  rw [insert, self_bind_run, okOr_bind_run, entryLen]
  by_cases hlt : data.length < u64Bound
  · rw [if_pos hlt, if_pos hlt]
    simp only
    rw [failIf_bind_run, if_pos hbig]
  · rw [if_neg hlt, if_neg hlt]

theorem store_evictions (key message : String) {data : List UInt8}
    (hsum : c.used + data.length < u64Bound) :
    ((store key data data.length message : Exec BoundedCache CacheError Unit) c).2.stats.evictions =
      c.stats.evictions := by
  rw [store, modify_bind_run, modify_bind_run, self_bind_run, expect_bind_run, checkedAdd_of_lt hsum]
  rfl

/-- The old entry of the key goes first. -/
theorem replace_refines (h : Refines c l) (key : String) (k : Exec BoundedCache CacheError Unit) :
    ∃ c', (takeEntry key "BoundedCache accounting underflow while replacing entry" >>= fun old =>
        if old.isSome then forget key >>= fun _ => k else k) c = k c' ∧
      Refines c' (LruList.without l key) ∧ c'.capacity = c.capacity ∧
      c'.stats.evictions = c.stats.evictions := by
  cases hkey : LruList.value? l key with
  | none =>
    have hout := LruList.without_of_not_mem (LruList.value?_eq_none.mp hkey)
    rw [bind_of_ok (takeEntry_of_none _ (h.entry_none hkey)), hout]
    exact ⟨c, rfl, h, rfl, rfl⟩
  | some data =>
    rw [bind_of_ok (takeEntry_of_some _ (h.entry_some hkey) (h.length_le hkey))]
    exact ⟨_, rfl, h.without hkey, rfl, rfl⟩

theorem insert_refines (h : Refines c l) (hcapacity : c.capacity < u64Bound) (key : String)
    {data : List UInt8} (hsize : data.length ≤ c.capacity) :
    (u64Bound ≤ LruList.weight List.length (LruList.without l key) + data.length ∧
      (insert key data c).1 = .panic "BoundedCache accounting overflow while inserting") ∨
    (LruList.weight List.length (LruList.without l key) + data.length < u64Bound ∧
      ∃ evicted l' c', LruList.put List.length c.capacity l key data = some (evicted, l') ∧
        insert key data c = (.ok (), c') ∧ Refines c' l' ∧ c'.capacity = c.capacity ∧
        c'.stats.evictions = c.stats.evictions + evicted.length) := by
  obtain ⟨c₁, hreplace, h₁, hcapacity₁, hevictions₁⟩ := replace_refines h key
    (evictUntilFits data.length >>= fun _ => self >>= fun c =>
      failIf (c.cannotFit data.length) (.general "cache accounting cannot fit entry after eviction")
        >>= fun _ => store key data data.length "BoundedCache accounting overflow while inserting")
  have hstart : insert key data c = (evictUntilFits data.length >>= fun _ => self >>= fun c =>
      failIf (c.cannotFit data.length) (.general "cache accounting cannot fit entry after eviction")
        >>= fun _ => store key data data.length "BoundedCache accounting overflow while inserting") c₁ := by
    rw [insert, self_bind_run, okOr_bind_run, entryLen, if_pos (by omega)]
    simp only
    rw [failIf_bind_run, if_neg (by omega)]
    exact hreplace
  rw [hstart, ← h₁.used]
  have hlength : (LruList.without l key).length < c₁.lru.length + 1 := by
    rw [h₁.lru, List.length_reverse, LruList.keys, List.length_map]
    exact Nat.lt_succ_self _
  rcases Nat.lt_or_ge (c₁.used + data.length) u64Bound with hlt | hover
  · obtain ⟨c₂, hevict, h₂, hcapacity₂, hevictions₂⟩ :=
      evict_refines h₁ (hcapacity₁.symm ▸ hsize) hlt hlength
    rw [hcapacity₁] at h₂ hcapacity₂ hevictions₂
    obtain ⟨hcount, hroom, -⟩ := LruList.surplus_shortest List.length (c.capacity - data.length)
      (LruList.without l key)
    rw [← h₂.used] at hroom
    obtain ⟨stats, hstore⟩ := store_run (ε := CacheError) (c := c₂) key
      "BoundedCache accounting overflow while inserting" data (by omega)
    have hput : LruList.put List.length c.capacity l key data = some (_, _) :=
      if_neg (Nat.not_lt.mpr hsize)
    refine .inr ⟨hlt, _, _, _, hput, ?_, h₂.push LruList.not_mem_without data stats, hcapacity₂, ?_⟩
    · have hfits : c₂.cannotFit data.length = false := by
        rw [cannotFit, checkedAdd_of_lt (by omega), hcapacity₂]
        exact decide_eq_false (by omega)
      have hloop : loop (fun c => c.lru.length) (evictRound data.length) () c₁ = (.ok (), c₂) := hevict
      rw [evictUntilFits_eq, bind_of_ok hloop, self_bind_run, failIf_bind_run, hfits, if_neg (by decide)]
      exact hstore
    · have hsum : c₂.used + data.length < u64Bound := by omega
      have hstats := store_evictions key "BoundedCache accounting overflow while inserting" hsum
      rw [hstore] at hstats
      rw [hstats, hevictions₂, hevictions₁, List.length_take, Nat.min_eq_left hcount]
  · refine .inl ⟨hover, ?_⟩
    have hnone : checkedAdd c₁.used data.length = none := checkedAdd_eq_none.mpr hover
    have hround : evictRound data.length () c₁ =
        (.panic "BoundedCache accounting overflow while inserting", c₁) := by
      rw [evictRound, self_bind_run, expect_bind_run, hnone]
    have hevict : loop (fun c => c.lru.length) (evictRound data.length) () c₁ =
        (.panic "BoundedCache accounting overflow while inserting", c₁) := by
      rw [loop, loopN, bind_of_panic hround]
    rw [evictUntilFits_eq, bind_of_panic hevict]

/-! ## Histories -/

inductive Operation where
  | get (key : String)
  | insert (key : String) (data : List UInt8)
  | remove (key : String)

inductive Answer where
  | value (data : Option (List UInt8))
  | inserted (result : Except CacheError Unit)

def Operation.run : Operation → Exec BoundedCache CacheError Answer
  | .get key => Answer.value <$> BoundedCache.get key
  | .insert key data => Answer.inserted <$> attempt (BoundedCache.insert key data)
  | .remove key => Answer.value <$> BoundedCache.remove key

def runAll : List Operation → Exec BoundedCache CacheError (List Answer)
  | [] => pure []
  | op :: rest => do
    let answer ← op.run
    let answers ← runAll rest
    return answer :: answers

/-- The contents, and how many entries were evicted so far. -/
structure Abstract where
  contents : Contents
  evictions : Nat

/-- The operation on the list; `none` where the bytes held and the new ones together leave
the range of a `u64`. -/
def Operation.step (capacity : Nat) (s : Abstract) : Operation → Option (Answer × Abstract)
  | .get key => some (.value (LruList.value? s.contents key),
      { s with contents := LruList.use s.contents key })
  | .remove key => some (.value (LruList.value? s.contents key),
      { s with contents := LruList.without s.contents key })
  | .insert key data =>
    match LruList.put List.length capacity s.contents key data with
    | none => some (.inserted (.error (if data.length < u64Bound then .tooLarge data.length capacity
        else .general "cache entry length exceeds u64")), s)
    | some (evicted, contents) =>
      if LruList.weight List.length (LruList.without s.contents key) + data.length < u64Bound then
        some (.inserted (.ok ()), { contents, evictions := s.evictions + evicted.length })
      else none

def steps (capacity : Nat) : List Operation → Abstract → Option (List Answer × Abstract)
  | [], s => some ([], s)
  | op :: rest, s =>
    (op.step capacity s).bind fun r => (steps capacity rest r.2).map fun t => (r.1 :: t.1, t.2)

/-- The cache after a history, and the list after the same history. -/
structure Agrees (capacity : Nat) (c : BoundedCache) (s : Abstract) : Prop where
  refines : Refines c s.contents
  capacity_eq : c.capacity = capacity
  evictions : c.stats.evictions = s.evictions

/-- What a run of the cache has to do where the list does `r`. -/
def Follows {α : Type} (capacity : Nat) :
    Option (α × Abstract) → Outcome CacheError α × BoundedCache → Prop
  | some (answer, s), (outcome, c) => outcome = .ok answer ∧ Agrees capacity c s
  | none, (outcome, _) => outcome = .panic "BoundedCache accounting overflow while inserting"

variable {capacity : Nat} {s : Abstract}

theorem step_follows (h : Agrees capacity c s) (hlt : capacity < u64Bound) (op : Operation) :
    Follows capacity (op.step capacity s) (op.run c) := by
  obtain ⟨hrefines, rfl, hevictions⟩ := h
  cases op with
  | get key =>
    obtain ⟨c', hrun, hrefines', hcapacity, hevictions'⟩ := get_refines (ε := CacheError) hrefines key
    rw [Operation.run, map_run, hrun]
    exact ⟨rfl, hrefines', hcapacity, hevictions'.trans hevictions⟩
  | remove key =>
    obtain ⟨c', hrun, hrefines', hcapacity, hevictions'⟩ := remove_refines (ε := CacheError) hrefines key
    rw [Operation.run, map_run, hrun]
    exact ⟨rfl, hrefines', hcapacity, hevictions'.trans hevictions⟩
  | insert key data =>
    rw [Operation.step, Operation.run, map_run]
    rcases Nat.lt_or_ge c.capacity data.length with hbig | hsize
    · have hput : LruList.put List.length c.capacity s.contents key data = none := if_pos hbig
      rw [hput, attempt, insert_too_large key hbig]
      exact ⟨rfl, hrefines, rfl, hevictions⟩
    · have hcases := insert_refines hrefines hlt key hsize
      rcases hcases with ⟨hover, hpanic⟩ | ⟨hfits, evicted, l', c', hput, hrun, hrefines', hcapacity, hcount⟩
      · have hput : LruList.put List.length c.capacity s.contents key data = some (_, _) :=
          if_neg (Nat.not_lt.mpr hsize)
        rw [hput]
        simp only
        rw [if_neg (Nat.not_lt.mpr hover), attempt]
        rcases hins : BoundedCache.insert key data c with ⟨_ | _ | message, c'⟩
        · rw [hins] at hpanic
          cases hpanic
        · rw [hins] at hpanic
          cases hpanic
        · rw [hins] at hpanic
          exact congrArg _ (Outcome.panic.inj hpanic)
      · rw [hput]
        simp only
        rw [if_pos hfits, attempt, hrun]
        exact ⟨rfl, hrefines', hcapacity, by rw [hcount, hevictions]⟩

theorem steps_follow (hlt : capacity < u64Bound) (ops : List Operation) (h : Agrees capacity c s) :
    Follows capacity (steps capacity ops s) (runAll ops c) := by
  induction ops generalizing c s with
  | nil => exact ⟨rfl, h⟩
  | cons op rest ih =>
    have hstep := step_follows h hlt op
    rw [steps, runAll, bind_run]
    rcases hrun : op.run c with ⟨outcome, c₁⟩
    rw [hrun] at hstep
    cases hop : op.step capacity s with
    | none =>
      rw [hop] at hstep
      cases hstep
      rfl
    | some r =>
      rw [hop] at hstep
      obtain ⟨rfl, hagrees⟩ := hstep
      have hrest := ih hagrees
      simp only [Option.bind_some]
      rw [bind_run]
      rcases hrun' : runAll rest c₁ with ⟨outcome', c₂⟩
      rw [hrun'] at hrest
      cases hsteps : steps capacity rest r.2 with
      | none =>
        rw [hsteps] at hrest
        cases hrest
        rfl
      | some t =>
        rw [hsteps] at hrest
        obtain ⟨rfl, hagrees'⟩ := hrest
        exact ⟨rfl, hagrees'⟩

theorem agrees_new (hnew : new capacity = .ok c) : Agrees capacity c { contents := [], evictions := 0 } := by
  rw [new] at hnew
  split at hnew
  · cases hnew
  · rw [← Except.ok.inj hnew]
    exact ⟨⟨rfl, fun key => Std.ExtTreeMap.getElem?_empty, rfl, List.Pairwise.nil⟩, rfl, rfl⟩

/-- A cache and the list stay together through every history, and an insertion evicts the
shortest front of the list without the old entry of its key. -/
theorem runAll_refines (hnew : new capacity = .ok c) (hlt : capacity < u64Bound) (ops : List Operation) :
    Follows capacity (steps capacity ops { contents := [], evictions := 0 }) (runAll ops c) ∧
    ∀ (l : Contents) (key : String) (data : List UInt8) (evicted l' : Contents),
      LruList.put List.length capacity l key data = some (evicted, l') →
      ∃ kept, LruList.without l key = evicted ++ kept ∧ l' = kept ++ [(key, data)] ∧
        LruList.weight List.length kept + data.length ≤ capacity ∧
        ∀ n < evicted.length,
          capacity < LruList.weight List.length ((LruList.without l key).drop n) + data.length :=
  ⟨steps_follow hlt ops (agrees_new hnew), fun _ _ _ _ _ hput => LruList.put_eq_some _ hput⟩

/-- Three entries, of which the first is used again, fill the cache; the next insertion evicts
the second. -/
def fullThenOneMore : List Operation :=
  [.insert "a" [1, 2], .insert "b" [3], .insert "c" [4, 5], .get "a", .insert "d" [6]]

def emptyCache (capacity : Nat) : BoundedCache where
  capacity := capacity
  used := 0
  entries := ∅
  lru := []
  stats := { capacityBytes := capacity }

theorem runAll_refines_fullThenOneMore :
    Follows 5 (steps 5 fullThenOneMore { contents := [], evictions := 0 })
        (runAll fullThenOneMore (emptyCache 5)) ∧
      (steps 5 fullThenOneMore { contents := [], evictions := 0 }).map (fun r => r.2.contents) =
        some [("c", [4, 5]), ("a", [1, 2]), ("d", [6])] :=
  ⟨(runAll_refines (rfl : new 5 = .ok (emptyCache 5)) (by decide) fullThenOneMore).1, by decide +kernel⟩

/-- What an insertion returns does not tell the entries that it evicted. -/
theorem insert_hides_evicted :
    ¬∃ read : Outcome CacheError Unit → Contents,
      ∀ (ops : List Operation) (key : String) (data : List UInt8) (c : BoundedCache)
        (answers : List Answer) (s : Abstract) (evicted contents : Contents),
        runAll ops (emptyCache 1) = (.ok answers, c) →
        steps 1 ops { contents := [], evictions := 0 } = some (answers, s) →
        LruList.put List.length 1 s.contents key data = some (evicted, contents) →
          read (BoundedCache.insert key data c).1 = evicted := by
  rintro ⟨read, hread⟩
  -- A cache of one byte evicts the entry of `key`, and says so in no way.
  have hanswer : ∀ key, LruList.put List.length 1 [(key, [(0 : UInt8)])] "z" [0] =
      some ([(key, [0])], [("z", [0])]) → read (.ok ()) = [(key, [0])] := by
    intro key hput
    have hempty : Agrees 1 (emptyCache 1) { contents := [], evictions := 0 } := agrees_new rfl
    have hrun := steps_follow (by decide) [.insert key [0]] hempty
    have hsteps : steps 1 [.insert key [0]] { contents := [], evictions := 0 } =
        some ([.inserted (.ok ())], { contents := [(key, [0])], evictions := 0 }) := rfl
    rw [hsteps] at hrun
    rcases hcache : runAll [.insert key [0]] (emptyCache 1) with ⟨outcome, c⟩
    rw [hcache] at hrun
    obtain ⟨rfl, hrefines, hcapacity, -⟩ := hrun
    have hsize : [(0 : UInt8)].length ≤ c.capacity := Nat.le_of_eq hcapacity.symm
    have hlt : c.capacity < u64Bound := hcapacity.symm ▸ (by decide : 1 < u64Bound)
    have hread := hread [.insert key [0]] "z" [0] c _ _ _ _ hcache hsteps hput
    rcases insert_refines hrefines hlt "z" hsize with ⟨hover, -⟩ | ⟨-, _, _, _, -, hinsert, -⟩
    · have hweight : LruList.weight List.length (LruList.without [(key, [(0 : UInt8)])] "z") ≤ 1 := by
        rw [LruList.without, List.filter_cons]
        split
        · exact Nat.le_refl _
        · exact Nat.zero_le _
      exact absurd (Nat.le_trans hover (Nat.add_le_add_right hweight 1)) (by decide)
    · rw [hinsert] at hread
      exact hread
  have hsame := (hanswer "a" (by decide)).symm.trans (hanswer "b" (by decide))
  exact absurd hsame (by decide)

end BoundedCache
end Ramforge
