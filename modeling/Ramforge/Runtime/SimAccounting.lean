/-
The residency accounts of a simulated run.

The initial placement, the staging and the accesses each keep the sum of the resident map
by hand.  What they keep is proved for one round of each and carried over the whole run; the
peak is the one count that the placement leaves alone.
-/
import Ramforge.Runtime.PredictionSim
import Ramforge.Rust.Checked
import Ramforge.Rust.MapSum
import Ramforge.Rust.Trace

namespace Ramforge

open Std Rust Rust.Outcome Rust.MapSum

/-! ## Scenarios -/

namespace SimScenario

def DistinctNames (scenario : SimScenario) : Prop :=
  (scenario.resources.map SimResource.name).Nodup

variable {scenario : SimScenario} {name : String} {r : SimResource}

theorem of_find (h : scenario.find name = some r) : r ∈ scenario.resources ∧ r.name = name :=
  ⟨List.mem_of_find?_eq_some h, by simpa using List.find?_some h⟩

theorem find_of_mem (hnames : scenario.DistinctNames) (h : r ∈ scenario.resources) :
    scenario.find r.name = some r := by
  cases hfind : scenario.find r.name with
  | none =>
    have hnot := List.find?_eq_none.mp hfind r h
    simp at hnot
  | some other =>
    obtain ⟨hmem, hname⟩ := of_find hfind
    rw [List.inj_on_of_nodup_map hnames hmem h hname]

/-- The bytes of the resource of a name. -/
def bytesOf (scenario : SimScenario) (name : String) : Nat :=
  ((scenario.find name).map SimResource.bytes).getD 0

theorem bytesOf_of_find (h : scenario.find name = some r) : scenario.bytesOf name = r.bytes := by
  rw [bytesOf, h]
  rfl

/-- The resources that a run may make resident. -/
def Touched (scenario : SimScenario) (selected : Names) (r : SimResource) : Prop :=
  r.initial = .resident ∨
  scenario.prefetchTiming = .onTime ∧ scenario.prefetchEffect = .makesResident ∧
    r.name ∈ selected ∨
  r.name ∈ scenario.testSequence

instance (selected : Names) : DecidablePred (Touched scenario selected) := fun _ =>
  inferInstanceAs (Decidable (_ ∨ _ ∧ _ ∧ _ ∨ _))

def touchedBytes (scenario : SimScenario) (selected : Names) : Nat :=
  ((scenario.resources.filter (Touched scenario selected ·)).map SimResource.bytes).sum

/-- No sum of resident bytes saturates: the budget stops it first, or there is not enough to
make resident. -/
def Fits (scenario : SimScenario) (selected : Names) : Prop :=
  scenario.budgetBytes < u64Bound - 1 ∨ scenario.touchedBytes selected < u64Bound

/-- The initial placement adds no bytes. -/
def PlacesNothing (scenario : SimScenario) : Prop :=
  ∀ r ∈ scenario.resources, r.initial = .resident → r.bytes = 0 ∨ scenario.budgetBytes < r.bytes

end SimScenario

namespace SimRun

open SimScenario

variable {scenario : SimScenario} {selected : Names} {run run' : SimRun} {name : String}
  {r : SimResource} {budget bytes rounds : Nat}

/-- The sum of the resident map. -/
def held (run : SimRun) : Nat := sumOver (fun _ entry => entry.1) run.resident

/-! ## The states of a run -/

/-- The states after the rounds of the eviction loop. -/
def evictions (budget bytes : Nat) : Nat → SimRun → List SimRun
  | 0, _ => []
  | rounds + 1, run =>
    if budget < saturatingAdd run.residentBytes bytes then
      match run.victim with
      | none => []
      | some name => run.evict name :: evictions budget bytes rounds (run.evict name)
    else []

/-- One access of the test sequence. -/
structure Visit where
  before : SimRun
  name : String
  after : SimRun

def visits (scenario : SimScenario) : SimRun → List String → List Visit
  | _, [] => []
  | run, name :: rest =>
    match access scenario run name with
    | .ok next =>
      { before := run
        name := name
        after := next } :: visits scenario next rest
    | _ => []

namespace Visit

/-- The states of an access: those of its evictions, and the one it ends in. -/
def states (scenario : SimScenario) (visit : Visit) : List SimRun :=
  (if visit.before.resident.contains visit.name then []
    else evictions scenario.budgetBytes (scenario.bytesOf visit.name)
      visit.before.resident.size visit.before.tick) ++ [visit.after]

/-- What the access is charged for a read. -/
def charge (scenario : SimScenario) (visit : Visit) : Nat :=
  if visit.before.resident.contains visit.name then 0 else scenario.bytesOf visit.name

end Visit

/-- The states of the placement and of the staging, one for each round. -/
def opening (scenario : SimScenario) (selected : Names) (initialUnknown : Nat) : List SimRun :=
  scenario.resources.scanl (place scenario) (start scenario initialUnknown) ++
  if scenario.prefetchTiming = .onTime then
    selected.toList.scanl (stage scenario) (placed scenario initialUnknown)
  else []

/-- The states of the run of a strategy, one for each round of its loops. -/
def moments (scenario : SimScenario) (selected : Names) (initialUnknown : Nat) : List SimRun :=
  opening scenario selected initialUnknown ++
  (visits scenario (staged scenario selected initialUnknown) scenario.testSequence).flatMap
    (Visit.states scenario)

/-! ## What every state keeps -/

/-- The sum is the one of the map and within the budget; what is resident is what the run
may make resident; and what was evicted before an access had been staged. -/
structure Kept (scenario : SimScenario) (selected : Names) (run : SimRun) : Prop where
  exact : run.residentBytes = run.held
  within : run.residentBytes ≤ scenario.budgetBytes
  entries : ∀ name entry, run.resident[name]? = some entry →
    ∃ r, scenario.find name = some r ∧ r.bytes = entry.1 ∧ Touched scenario selected r
  evicted : ∃ newly gone, run.newlyResidentBytes = min newly (u64Bound - 1) ∧
    run.evictedBeforeAccessBytes = min gone (u64Bound - 1) ∧
    gone + sumSet scenario.bytesOf run.stagedPending ≤ newly

theorem contains_eq_false : run.resident.contains name = false ↔ run.resident[name]? = none := by
  rw [ExtTreeMap.contains_eq_isSome_getElem?, Option.isSome_eq_false_iff, Option.isNone_iff_eq_none]

/-- What is resident under distinct names is at most what the run may make resident. -/
theorem sumOver_le_touchedBytes {m : ExtTreeMap String (Nat × Nat × Bool) compare}
    (h : ∀ name entry, m[name]? = some entry →
      ∃ r, scenario.find name = some r ∧ r.bytes = entry.1 ∧ Touched scenario selected r) :
    sumOver (fun _ entry => entry.1) m ≤ scenario.touchedBytes selected := by
  have hsome : ∀ entry ∈ m.toList, ∃ r, scenario.find entry.1 = some r ∧ r.bytes = entry.2.1 ∧
      Touched scenario selected r := fun entry hentry =>
    h entry.1 entry.2 (ExtTreeMap.mem_toList_iff_getElem?_eq_some.mp hentry)
  have hparts : ∀ entries : List (String × Nat × Nat × Bool),
      (∀ entry ∈ entries, ∃ r, scenario.find entry.1 = some r ∧ r.bytes = entry.2.1 ∧
        Touched scenario selected r) →
      ((entries.filterMap fun entry => scenario.find entry.1).map SimResource.name) =
        entries.map Prod.fst ∧
      ((entries.filterMap fun entry => scenario.find entry.1).map SimResource.bytes) =
        entries.map fun entry => entry.2.1 := by
    intro entries hentries
    induction entries with
    | nil => exact ⟨rfl, rfl⟩
    | cons entry rest ih =>
      obtain ⟨r, hfind, hbytes, -⟩ := hentries entry List.mem_cons_self
      obtain ⟨hnames, hsums⟩ := ih fun e he => hentries e (List.mem_cons_of_mem _ he)
      have hcons : ((entry :: rest).filterMap fun entry => scenario.find entry.1) =
          r :: rest.filterMap fun entry => scenario.find entry.1 := List.filterMap_cons_some hfind
      rw [hcons]
      simp only [List.map_cons, hnames, hsums, hbytes, (of_find hfind).2, and_self]
  obtain ⟨hnames, hsums⟩ := hparts m.toList hsome
  have hnodup : (m.toList.filterMap fun entry => scenario.find entry.1).Nodup := by
    refine List.Nodup.of_map SimResource.name ?_
    rw [hnames, ExtTreeMap.map_fst_toList_eq_keys]
    exact ExtTreeMap.nodup_keys
  have hsub : (m.toList.filterMap fun entry => scenario.find entry.1) ⊆
      scenario.resources.filter (Touched scenario selected ·) := by
    intro r hr
    obtain ⟨entry, hentry, hfind⟩ := List.mem_filterMap.mp hr
    obtain ⟨r', hfind', -, htouched⟩ := hsome entry hentry
    rw [hfind] at hfind'
    cases hfind'
    rw [List.mem_filter]
    exact ⟨(of_find hfind).1, decide_eq_true htouched⟩
  obtain ⟨kept, hperm, hsublist⟩ := List.subperm_of_subset hnodup hsub
  calc sumOver (fun _ entry => entry.1) m
      = ((m.toList.filterMap fun entry => scenario.find entry.1).map SimResource.bytes).sum := by
        rw [hsums]
        rfl
    _ = (kept.map SimResource.bytes).sum := ((hperm.map _).sum_eq).symm
    _ ≤ scenario.touchedBytes selected :=
      (hsublist.map SimResource.bytes).sum_le_sum fun _ _ => Nat.zero_le _

namespace Kept

/-- What a step has to leave alone for `Kept` to carry over. -/
theorem of_eq (h : Kept scenario selected run) (hresident : run'.resident = run.resident)
    (hbytes : run'.residentBytes = run.residentBytes)
    (hnewly : run'.newlyResidentBytes = run.newlyResidentBytes)
    (hevicted : run'.evictedBeforeAccessBytes = run.evictedBeforeAccessBytes)
    (hpending : run'.stagedPending = run.stagedPending) : Kept scenario selected run' where
  exact := by rw [hbytes, held, hresident, h.exact, held]
  within := hbytes ▸ h.within
  entries := hresident ▸ h.entries
  evicted := by
    rw [hnewly, hevicted, hpending]
    exact h.evicted

/-- A resource that is made resident within the budget adds its bytes. -/
theorem saturatingAdd_eq (h : Kept scenario selected run) (hfits : Fits scenario selected)
    (hfind : scenario.find r.name = some r) (htouched : Touched scenario selected r)
    (hnew : run.resident[r.name]? = none)
    (hroom : saturatingAdd run.residentBytes r.bytes ≤ scenario.budgetBytes) :
    saturatingAdd run.residentBytes r.bytes = run.residentBytes + r.bytes := by
  rcases hfits with hbudget | hsum
  · rw [saturatingAdd] at hroom ⊢
    omega
  · have hle : sumOver (fun _ entry => entry.1) (run.resident.insert r.name (r.bytes, 0, false)) ≤
        scenario.touchedBytes selected := by
      refine sumOver_le_touchedBytes fun name entry hentry => ?_
      rw [getElem?_insert'] at hentry
      split at hentry
      next heq =>
        cases hentry
        exact ⟨r, heq ▸ hfind, rfl, htouched⟩
      next => exact h.entries name entry hentry
    rw [sumOver_insert_of_none _ hnew] at hle
    have hexact := h.exact
    rw [held] at hexact
    exact saturatingAdd_of_lt (by omega)

theorem insert (h : Kept scenario selected run) (hfits : Fits scenario selected)
    (hfind : scenario.find r.name = some r) (htouched : Touched scenario selected r)
    (hnew : run.resident[r.name]? = none)
    (hroom : saturatingAdd run.residentBytes r.bytes ≤ scenario.budgetBytes) {order : Nat}
    {flag : Bool} (hresident : run'.resident = run.resident.insert r.name (r.bytes, order, flag))
    (hbytes : run'.residentBytes = saturatingAdd run.residentBytes r.bytes)
    (hevicted : ∃ newly gone, run'.newlyResidentBytes = min newly (u64Bound - 1) ∧
      run'.evictedBeforeAccessBytes = min gone (u64Bound - 1) ∧
      gone + sumSet scenario.bytesOf run'.stagedPending ≤ newly) :
    Kept scenario selected run' where
  exact := by
    rw [hbytes, h.saturatingAdd_eq hfits hfind htouched hnew hroom, held, hresident,
      sumOver_insert_of_none _ hnew, h.exact, held, Nat.add_comm]
  within := hbytes ▸ hroom
  entries name entry hentry := by
    rw [hresident, getElem?_insert'] at hentry
    split at hentry
    next heq =>
      cases hentry
      exact ⟨r, heq ▸ hfind, rfl, htouched⟩
    next => exact h.entries name entry hentry
  evicted := hevicted

end Kept

/-! ## The rounds -/

theorem place_of_ne (h : r.initial ≠ .resident) : run.place scenario r = run := if_neg h

theorem Kept.place (h : Kept scenario selected run) (hfits : Fits scenario selected)
    (hfind : scenario.find r.name = some r)
    (hnew : r.initial = .resident → run.resident[r.name]? = none) :
    Kept scenario selected (run.place scenario r) := by
  by_cases hinitial : r.initial = .resident
  · rw [SimRun.place, if_pos hinitial]
    split
    next hroom => exact h.insert hfits hfind (.inl hinitial) (hnew hinitial) hroom rfl rfl h.evicted
    next => exact h.of_eq rfl rfl rfl rfl rfl
  · rwa [place_of_ne hinitial]

/-- The first staging of a name. -/
theorem exists_evicted_stage (h : Kept scenario selected run)
    (hfind : scenario.find name = some r) :
    ∃ newly gone, saturatingAdd run.newlyResidentBytes r.bytes = min newly (u64Bound - 1) ∧
      run.evictedBeforeAccessBytes = min gone (u64Bound - 1) ∧
      gone + sumSet scenario.bytesOf (run.stagedPending.insert name) ≤ newly := by
  obtain ⟨newly, gone, hnewly, hgone, hle⟩ := h.evicted
  have hinsert := sumSet_insert_le scenario.bytesOf (s := run.stagedPending) name
  rw [bytesOf_of_find hfind] at hinsert
  refine ⟨newly + r.bytes, gone, ?_, hgone, by omega⟩
  rw [hnewly, saturatingAdd]
  omega

theorem Kept.prefetch (h : Kept scenario selected run) (hfits : Fits scenario selected)
    (hfind : scenario.find r.name = some r) (htime : scenario.prefetchTiming = .onTime)
    (hselected : r.name ∈ selected) (hnew : run.resident[r.name]? = none) :
    Kept scenario selected (run.prefetch scenario r.name r.bytes) := by
  rw [SimRun.prefetch]
  split
  next heffect =>
    split
    next => exact h.of_eq rfl rfl rfl rfl rfl
    next hroom =>
      exact h.insert hfits hfind (.inr (.inl ⟨htime, heffect, hselected⟩)) hnew (Nat.not_lt.mp hroom)
        rfl rfl (exists_evicted_stage h hfind)
  next => exact h.of_eq rfl rfl rfl rfl rfl
  next => exact h.of_eq rfl rfl rfl rfl rfl
  next => exact h.of_eq rfl rfl rfl rfl rfl

theorem Kept.stage (h : Kept scenario selected run) (hfits : Fits scenario selected)
    (htime : scenario.prefetchTiming = .onTime) (hselected : name ∈ selected) :
    Kept scenario selected (run.stage scenario name) := by
  rw [SimRun.stage]
  split
  next => exact h
  next r hfind =>
    obtain ⟨-, rfl⟩ := of_find hfind
    split
    next => exact h.of_eq rfl rfl rfl rfl rfl
    next hcontains =>
      exact h.prefetch hfits hfind htime hselected
        (contains_eq_false.mp (Bool.eq_false_iff.mpr hcontains))

/-- What a round of the eviction loop does. -/
theorem evict_cases (run : SimRun) (name : String) :
    run.resident[name]? = none ∧ run.evict name = run ∨
      ∃ entry pending evicted, run.resident[name]? = some entry ∧
        run.evict name =
          { run with
            resident := run.resident.erase name
            residentBytes := run.residentBytes - entry.1
            stagedPending := pending
            evictedBeforeAccessBytes := evicted } ∧
        (name ∈ run.stagedPending ∧ pending = run.stagedPending.erase name ∧
            evicted = saturatingAdd run.evictedBeforeAccessBytes entry.1 ∨
          pending = run.stagedPending ∧ evicted = run.evictedBeforeAccessBytes) := by
  rw [evict]
  split
  next hnone => exact .inl ⟨hnone, rfl⟩
  next bytes order flag hentry =>
    by_cases hpending : run.stagedPending.contains name
    · simp only [hpending, if_true]
      exact .inr ⟨_, _, _, hentry, rfl, .inl ⟨hpending, rfl, rfl⟩⟩
    · simp only [hpending]
      exact .inr ⟨_, _, _, hentry, rfl, .inr ⟨rfl, rfl⟩⟩

theorem Kept.evict (h : Kept scenario selected run) (name : String) :
    Kept scenario selected (run.evict name) := by
  rcases evict_cases run name with ⟨-, heq⟩ | ⟨entry, pending, evicted, hentry, heq, hcount⟩
  · rwa [heq]
  obtain ⟨r, hfind, hbytes, -⟩ := h.entries name entry hentry
  obtain ⟨newly, gone, hnewly, hgone, hle⟩ := h.evicted
  rw [heq]
  refine ⟨?_, Nat.le_trans (Nat.sub_le _ _) h.within, ?_, ?_⟩
  · rw [held, sumOver_erase_of_some _ hentry, h.exact, held]
  · intro name' entry' hentry'
    rw [getElem?_erase'] at hentry'
    split at hentry'
    next => cases hentry'
    next => exact h.entries name' entry' hentry'
  · rcases hcount with ⟨hmem, rfl, rfl⟩ | ⟨rfl, rfl⟩
    · rw [sumSet_of_mem _ hmem, bytesOf_of_find hfind, hbytes] at hle
      refine ⟨newly, gone + entry.1, hnewly, ?_, ?_⟩
      · show saturatingAdd run.evictedBeforeAccessBytes entry.1 = _
        rw [hgone, saturatingAdd]
        omega
      · show gone + entry.1 + sumSet scenario.bytesOf (run.stagedPending.erase name) ≤ newly
        omega
    · exact ⟨newly, gone, hnewly, hgone, hle⟩

theorem Kept.hit (h : Kept scenario selected run) (name : String) :
    Kept scenario selected (run.hit name) := by
  obtain ⟨newly, gone, hnewly, hgone, hle⟩ := h.evicted
  refine ⟨?_, h.within, ?_, ?_⟩
  · have hheld : (run.hit name).held = run.held :=
      sumOver_modify (fun (_ : String) (entry : Nat × Nat × Bool) => entry.1) fun _ _ => rfl
    exact h.exact.trans hheld.symm
  · intro name' entry hentry
    rw [SimRun.hit, ExtTreeMap.getElem?_modify] at hentry
    split at hentry
    next heq =>
      obtain rfl := LawfulEqCmp.eq_of_compare heq
      obtain ⟨old, hold, rfl⟩ := Option.map_eq_some_iff.mp hentry
      exact h.entries name old hold
    next => exact h.entries name' entry hentry
  · have herase := sumSet_erase_le scenario.bytesOf (s := run.stagedPending) name
    exact ⟨newly, gone, hnewly, hgone, Nat.le_trans (Nat.add_le_add_left herase _) hle⟩

/-! ## The eviction loop -/

theorem mem_of_victim (h : run.victim = some name) : ∃ entry, run.resident[name]? = some entry := by
  obtain ⟨entry, hmin, rfl⟩ := Option.map_eq_some_iff.mp h
  have hmem := List.argmin_mem hmin
  exact ⟨entry.2, ExtTreeMap.mem_toList_iff_getElem?_eq_some.mp hmem⟩

theorem eq_empty_of_victim (h : run.victim = none) : run.resident = ∅ := by
  have hnil := List.argmin_eq_none.mp (Option.map_eq_none_iff.mp h)
  exact ExtTreeMap.toList_eq_nil_iff.mp hnil

/-- What an eviction keeps holds in every state of the loop and after it. -/
theorem evictions_rule {P : SimRun → Prop} (hstep : ∀ run name, P run → P (run.evict name))
    (h : P run) :
    P (makeRoom budget bytes rounds run) ∧ ∀ m ∈ evictions budget bytes rounds run, P m := by
  induction rounds generalizing run with
  | zero => exact ⟨h, by simp [evictions]⟩
  | succ rounds ih =>
    rw [makeRoom, evictions]
    split
    next =>
      cases run.victim with
      | none => exact ⟨h, by simp⟩
      | some name =>
        obtain ⟨hlast, hall⟩ := ih (hstep run name h)
        refine ⟨hlast, fun m hm => ?_⟩
        rcases List.mem_cons.mp hm with rfl | hm
        · exact hstep run name h
        · exact hall m hm
    next => exact ⟨h, by simp⟩

/-- As many rounds as there are entries are enough for the loop to end. -/
theorem makeRoom_ends (h : run.resident.size ≤ rounds) :
    saturatingAdd (makeRoom budget bytes rounds run).residentBytes bytes ≤ budget ∨
      (makeRoom budget bytes rounds run).resident = ∅ := by
  induction rounds generalizing run with
  | zero => exact .inr (ExtTreeMap.eq_empty_iff_size_eq_zero.mpr (Nat.le_zero.mp h))
  | succ rounds ih =>
    rw [makeRoom]
    split
    next =>
      cases hvictim : run.victim with
      | none => exact .inr (eq_empty_of_victim hvictim)
      | some name =>
        obtain ⟨entry, hentry⟩ := mem_of_victim hvictim
        refine ih ?_
        rcases evict_cases run name with ⟨hnone, -⟩ | ⟨_, _, _, -, heq, -⟩
        · rw [hentry] at hnone
          cases hnone
        · have hcontains : run.resident.contains name = true := by
            rw [ExtTreeMap.contains_eq_isSome_getElem?, hentry]
            rfl
          rw [heq, ExtTreeMap.size_erase, if_pos hcontains]
          omega
    next hroom => exact .inl (Nat.not_lt.mp hroom)

/-- What the eviction loop of a load goes through. -/
structure Making (scenario : SimScenario) (selected : Names) (name : String) (before run : SimRun) :
    Prop where
  kept : Kept scenario selected run
  absent : run.resident[name]? = none
  le : run.residentBytes ≤ before.residentBytes
  peak : run.peak = before.peak
  reread : run.rereadBytes = before.rereadBytes
  staged : run.stagedBytes = before.stagedBytes
  redundant : run.redundantStagedBytes = before.redundantStagedBytes
  newly : run.newlyResidentBytes = before.newlyResidentBytes
  ineffective : run.ineffectiveStagedBytes = before.ineffectiveStagedBytes

theorem Making.evict {before : SimRun} (h : Making scenario selected name before run)
    (victim : String) : Making scenario selected name before (run.evict victim) := by
  rcases evict_cases run victim with ⟨-, heq⟩ | ⟨entry, pending, evicted, -, heq, -⟩
  · rwa [heq]
  · have hkept := h.kept.evict victim
    rw [heq] at hkept ⊢
    refine { h with
      kept := hkept
      absent := ?_
      le := Nat.le_trans (Nat.sub_le _ _) h.le }
    rw [getElem?_erase']
    split
    next => rfl
    next => exact h.absent

theorem makeRoom_making (budget bytes rounds : Nat) (h : Kept scenario selected run)
    (hnew : run.resident[name]? = none) :
    Making scenario selected name run (makeRoom budget bytes rounds run) ∧
      ∀ m ∈ evictions budget bytes rounds run, Making scenario selected name run m :=
  evictions_rule (fun _ victim h => h.evict victim)
    { kept := h
      absent := hnew
      le := Nat.le_refl _
      peak := rfl
      reread := rfl
      staged := rfl
      redundant := rfl
      newly := rfl
      ineffective := rfl }

theorem Kept.load (h : Kept scenario selected run) (hfits : Fits scenario selected)
    (hfind : scenario.find r.name = some r) (htest : r.name ∈ scenario.testSequence)
    (hnew : run.resident[r.name]? = none) : Kept scenario selected (run.load scenario r) := by
  have hroom :=
    (makeRoom_making scenario.budgetBytes r.bytes run.resident.size h hnew).1
  rw [SimRun.load]
  split
  next => exact hroom.kept.of_eq rfl rfl rfl rfl rfl
  next hfull =>
    exact hroom.kept.insert hfits hfind (.inr (.inr htest)) hroom.absent (Nat.not_lt.mp hfull) rfl
      rfl hroom.kept.evicted

/-! ## One access -/

theorem access_cases (h : access scenario run name = .ok run') :
    ∃ r, scenario.find name = some r ∧
      (run.resident.contains name = true ∧ run' = run.tick.hit name ∨
        run.resident.contains name = false ∧ run' = run.tick.load scenario r) := by
  rw [access] at h
  split at h
  next => cases h
  next r hfind =>
    refine ⟨r, hfind, ?_⟩
    split at h
    next hcontains => exact .inl ⟨hcontains, (Outcome.ok.inj h).symm⟩
    next hcontains => exact .inr ⟨Bool.eq_false_iff.mpr hcontains, (Outcome.ok.inj h).symm⟩

theorem Kept.tick (h : Kept scenario selected run) : Kept scenario selected run.tick :=
  h.of_eq rfl rfl rfl rfl rfl

theorem Kept.access (h : Kept scenario selected run) (hfits : Fits scenario selected)
    (htest : name ∈ scenario.testSequence) (haccess : access scenario run name = .ok run') :
    Kept scenario selected run' := by
  obtain ⟨r, hfind, ⟨-, rfl⟩ | ⟨hcontains, rfl⟩⟩ := access_cases haccess
  · exact h.tick.hit name
  · obtain ⟨-, rfl⟩ := of_find hfind
    exact h.tick.load hfits hfind htest (contains_eq_false.mp hcontains)

/-- What an access charges and what it leaves alone. -/
structure Visited (scenario : SimScenario) (visit : Visit) : Prop where
  reread : visit.after.rereadBytes =
    if visit.before.resident.contains visit.name then visit.before.rereadBytes
    else saturatingAdd visit.before.rereadBytes (scenario.bytesOf visit.name)
  staged : visit.after.stagedBytes = visit.before.stagedBytes
  redundant : visit.after.redundantStagedBytes = visit.before.redundantStagedBytes
  newly : visit.after.newlyResidentBytes = visit.before.newlyResidentBytes
  ineffective : visit.after.ineffectiveStagedBytes = visit.before.ineffectiveStagedBytes
  peak : visit.before.residentBytes ≤ visit.before.peak →
    visit.after.peak = max visit.before.peak visit.after.residentBytes ∧
    ∀ m ∈ visit.states scenario, m.residentBytes ≤ visit.after.peak

theorem Kept.visited (h : Kept scenario selected run)
    (haccess : SimRun.access scenario run name = .ok run') : Visited scenario ⟨run, name, run'⟩ := by
  obtain ⟨r, hfind, ⟨hcontains, rfl⟩ | ⟨hcontains, rfl⟩⟩ := access_cases haccess
  · refine ⟨by rw [if_pos hcontains]; rfl, rfl, rfl, rfl, rfl, fun hle => ⟨?_, fun m hm => ?_⟩⟩
    · exact (Nat.max_eq_left hle).symm
    · simp only [Visit.states, hcontains, if_true, List.nil_append, List.mem_singleton] at hm
      rw [hm]
      exact hle
  · obtain ⟨-, rfl⟩ := of_find hfind
    obtain ⟨hlast, hall⟩ := makeRoom_making scenario.budgetBytes r.bytes run.resident.size
      h.tick (contains_eq_false.mp hcontains)
    have hload : ∀ after, after = run.tick.load scenario r →
        after.rereadBytes = saturatingAdd run.rereadBytes r.bytes ∧
        after.stagedBytes = run.stagedBytes ∧
        after.redundantStagedBytes = run.redundantStagedBytes ∧
        after.newlyResidentBytes = run.newlyResidentBytes ∧
        after.ineffectiveStagedBytes = run.ineffectiveStagedBytes ∧
        (run.residentBytes ≤ run.peak → after.peak = max run.peak after.residentBytes) := by
      intro after hafter
      rw [SimRun.load] at hafter
      split at hafter
      next =>
        subst hafter
        refine ⟨congrArg (saturatingAdd · r.bytes) hlast.reread, hlast.staged, hlast.redundant,
          hlast.newly, hlast.ineffective, fun hle => ?_⟩
        exact hlast.peak.trans (Nat.max_eq_left (Nat.le_trans hlast.le hle)).symm
      next =>
        subst hafter
        refine ⟨congrArg (saturatingAdd · r.bytes) hlast.reread, hlast.staged, hlast.redundant,
          hlast.newly, hlast.ineffective, fun _ => ?_⟩
        exact congrArg (max · _) hlast.peak
    obtain ⟨hreread, hstaged, hredundant, hnewly, hineffective, hpeak⟩ := hload _ rfl
    refine ⟨?_, hstaged, hredundant, hnewly, hineffective, fun hle => ⟨hpeak hle, fun m hm => ?_⟩⟩
    · simp only [hcontains, bytesOf_of_find hfind]
      exact hreread
    · simp only [Visit.states, hcontains, Bool.false_eq_true, if_false, bytesOf_of_find hfind,
        List.mem_append, List.mem_singleton] at hm
      rw [hpeak hle]
      rcases hm with hm | rfl
      · exact Nat.le_trans (Nat.le_trans (hall m hm).le hle) (Nat.le_max_left _ _)
      · exact Nat.le_max_right _ _

/-! ## The three loops -/

theorem kept_start (initialUnknown : Nat) :
    Kept scenario selected (start scenario initialUnknown) where
  exact := (sumOver_empty _).symm
  within := Nat.zero_le _
  entries name entry h := by simp [start] at h
  evicted := ⟨0, 0, rfl, rfl, Nat.le_of_eq (congrArg (0 + ·) (sumSet_empty _))⟩

/-- The placement of the resources that are left. -/
structure Placing (scenario : SimScenario) (selected : Names) (rest : List SimResource)
    (run : SimRun) : Prop where
  kept : Kept scenario selected run
  resources : ∀ r ∈ rest, r ∈ scenario.resources
  distinct : (rest.map SimResource.name).Nodup
  new : ∀ r ∈ rest, run.resident[r.name]? = none

theorem Placing.place (hnames : scenario.DistinctNames) (hfits : Fits scenario selected)
    {rest : List SimResource} (h : Placing scenario selected (r :: rest) run) :
    Placing scenario selected rest (run.place scenario r) where
  kept := h.kept.place hfits (find_of_mem hnames (h.resources r List.mem_cons_self))
    fun _ => h.new r List.mem_cons_self
  resources r' hr' := h.resources r' (List.mem_cons_of_mem _ hr')
  distinct := (List.nodup_cons.mp h.distinct).2
  new r' hr' := by
    have hold := h.new r' (List.mem_cons_of_mem _ hr')
    have hne : r'.name ≠ r.name := fun e =>
      (List.nodup_cons.mp h.distinct).1 (e ▸ List.mem_map_of_mem hr')
    rw [SimRun.place]
    split
    next =>
      split
      next => rw [getElem?_insert', if_neg hne, hold]
      next => exact hold
    next => exact hold

theorem placing_start (hnames : scenario.DistinctNames) (initialUnknown : Nat) :
    Placing scenario selected scenario.resources (start scenario initialUnknown) where
  kept := kept_start initialUnknown
  resources _ h := h
  distinct := hnames
  new r _ := by simp [start]

theorem kept_placed (hnames : scenario.DistinctNames) (hfits : Fits scenario selected)
    (initialUnknown : Nat) : Kept scenario selected (placed scenario initialUnknown) :=
  (foldl_rule (I := Placing scenario selected) (fun _ _ _ h => h.place hnames hfits)
    (placing_start hnames initialUnknown)).kept

theorem kept_staged (hnames : scenario.DistinctNames) (hfits : Fits scenario selected)
    (initialUnknown : Nat) : Kept scenario selected (staged scenario selected initialUnknown) := by
  rw [staged]
  split
  next htime =>
    have hrule := foldl_rule (f := stage scenario) (l := selected.toList)
      (I := fun rest run => (∀ name ∈ rest, name ∈ selected) ∧ Kept scenario selected run)
      (fun name rest run h => ⟨fun n hn => h.1 n (List.mem_cons_of_mem _ hn),
        h.2.stage hfits htime (h.1 name List.mem_cons_self)⟩)
      ⟨fun name hname => ExtTreeSet.mem_toList.mp hname, kept_placed hnames hfits initialUnknown⟩
    exact hrule.2
  next => exact kept_placed hnames hfits initialUnknown

section accesses

variable {names : List String}

theorem visits_cons {rest : List String} (h : access scenario run name = .ok run') :
    visits scenario run (name :: rest) = ⟨run, name, run'⟩ :: visits scenario run' rest := by
  rw [visits, h]

/-- Every access of a test sequence that is known is visited once, from a state that is
kept. -/
theorem visits_ok (hfits : Fits scenario selected) (hkept : Kept scenario selected run)
    (htest : ∀ name ∈ names, name ∈ scenario.testSequence)
    (h : names.foldlM (access scenario) run = .ok run') :
    (visits scenario run names).map Visit.name = names ∧
      ∀ visit ∈ visits scenario run names, Visited scenario visit ∧
        ∀ m ∈ visit.states scenario, Kept scenario selected m := by
  induction names generalizing run with
  | nil => exact ⟨rfl, fun _ h => by simp [visits] at h⟩
  | cons name rest ih =>
    rw [List.foldlM_cons] at h
    obtain ⟨next, haccess, h⟩ := of_bind_ok h
    have hnext := hkept.access hfits (htest name List.mem_cons_self) haccess
    obtain ⟨hmap, hrest⟩ := ih hnext (fun n hn => htest n (List.mem_cons_of_mem _ hn)) h
    rw [visits_cons haccess]
    refine ⟨by rw [List.map_cons, hmap], fun visit hvisit => ?_⟩
    rcases List.mem_cons.mp hvisit with rfl | hvisit
    · refine ⟨hkept.visited haccess, fun m hm => ?_⟩
      rcases List.mem_append.mp hm with hm | hm
      · cases hcontains : run.resident.contains name with
        | true => simp [hcontains] at hm
        | false =>
          rw [if_neg (by rw [hcontains]; exact Bool.false_ne_true)] at hm
          exact ((makeRoom_making _ _ _ hkept.tick (contains_eq_false.mp hcontains)).2 m hm).kept
      · rw [List.mem_singleton.mp hm]
        exact hnext
    · exact hrest visit hvisit

/-- The counts that the accesses leave alone, and the bytes they are charged. -/
theorem visits_counts (hreread : run.rereadBytes < u64Bound)
    (hall : ∀ visit ∈ visits scenario run names, Visited scenario visit)
    (h : names.foldlM (access scenario) run = .ok run') :
    run'.rereadBytes = min (run.rereadBytes +
        ((visits scenario run names).map (Visit.charge scenario)).sum) (u64Bound - 1) ∧
      run'.stagedBytes = run.stagedBytes ∧
      run'.redundantStagedBytes = run.redundantStagedBytes ∧
      run'.newlyResidentBytes = run.newlyResidentBytes ∧
      run'.ineffectiveStagedBytes = run.ineffectiveStagedBytes := by
  induction names generalizing run with
  | nil =>
    cases h
    refine ⟨?_, rfl, rfl, rfl, rfl⟩
    simp only [visits, List.map_nil, List.sum_nil]
    omega
  | cons name rest ih =>
    rw [List.foldlM_cons] at h
    obtain ⟨next, haccess, h⟩ := of_bind_ok h
    rw [visits_cons haccess] at hall ⊢
    have hfirst := hall _ List.mem_cons_self
    have hcharge : next.rereadBytes = saturatingAdd run.rereadBytes
        (Visit.charge scenario ⟨run, name, next⟩) := by
      rw [hfirst.reread, Visit.charge]
      split
      next => exact (saturatingAdd_of_lt (b := 0) hreread).symm
      next => rfl
    have hlt : next.rereadBytes < u64Bound := hcharge ▸ saturatingAdd_lt _ _
    obtain ⟨htotal, hstaged, hredundant, hnewly, hineffective⟩ :=
      ih hlt (fun visit hvisit => hall visit (List.mem_cons_of_mem _ hvisit)) h
    refine ⟨?_, hstaged.trans hfirst.staged, hredundant.trans hfirst.redundant,
      hnewly.trans hfirst.newly, hineffective.trans hfirst.ineffective⟩
    rw [htotal, hcharge, saturatingAdd, List.map_cons, List.sum_cons]
    omega

end accesses

/-! ## The peak -/

/-- The peak of a run is the most that it or a state before it has had. -/
structure Peaked (ms : List SimRun) (run : SimRun) : Prop where
  below : ∀ m ∈ ms, m.residentBytes ≤ run.peak
  current : run.residentBytes ≤ run.peak
  reached : run.residentBytes = run.peak ∨ ∃ m ∈ ms, m.residentBytes = run.peak

namespace Peaked

variable {ms : List SimRun}

theorem add (h : Peaked ms run) : Peaked (ms ++ [run]) run where
  below m hm := by
    rcases List.mem_append.mp hm with hm | hm
    · exact h.below m hm
    · exact List.mem_singleton.mp hm ▸ h.current
  current := h.current
  reached := by
    rcases h.reached with heq | ⟨m, hm, heq⟩
    · exact .inl heq
    · exact .inr ⟨m, List.mem_append_left _ hm, heq⟩

/-- A step that raises the peak to what it makes resident. -/
theorem step (h : Peaked ms run) (hmem : run ∈ ms)
    (hpeak : run'.peak = max run.peak run'.residentBytes) : Peaked ms run' where
  below m hm := hpeak ▸ Nat.le_trans (h.below m hm) (Nat.le_max_left _ _)
  current := hpeak ▸ Nat.le_max_right _ _
  reached := by
    by_cases hle : run'.residentBytes ≤ run.peak
    · rw [Nat.max_eq_left hle] at hpeak
      rw [hpeak]
      rcases h.reached with heq | ⟨m, hm, heq⟩
      · exact .inr ⟨run, hmem, heq⟩
      · exact .inr ⟨m, hm, heq⟩
    · exact .inl (by omega)

theorem scanl {α : Type} {f : SimRun → α → SimRun}
    (hstep : ∀ run a, run.residentBytes ≤ run.peak →
      (f run a).peak = max run.peak (f run a).residentBytes)
    (h : Peaked ms run) (l : List α) : Peaked (ms ++ l.scanl f run) (l.foldl f run) := by
  induction l generalizing ms run with
  | nil => exact h.add
  | cons a rest ih =>
    have hnext := h.add.step (List.mem_append_right _ (List.mem_singleton_self _))
      (hstep run a h.current)
    rw [List.scanl_cons, List.foldl_cons, ← List.singleton_append, ← List.append_assoc]
    exact ih hnext

theorem visits {names : List String} (h : Peaked ms run) (hmem : run ∈ ms)
    (hall : ∀ visit ∈ SimRun.visits scenario run names, Visited scenario visit)
    (haccess : names.foldlM (access scenario) run = .ok run') :
    Peaked (ms ++ (SimRun.visits scenario run names).flatMap (Visit.states scenario)) run' ∧
      run' ∈ ms ++ (SimRun.visits scenario run names).flatMap (Visit.states scenario) := by
  induction names generalizing ms run with
  | nil =>
    cases haccess
    rw [SimRun.visits, List.flatMap_nil, List.append_nil]
    exact ⟨h, hmem⟩
  | cons name rest ih =>
    rw [List.foldlM_cons] at haccess
    obtain ⟨next, hfirst, haccess⟩ := of_bind_ok haccess
    rw [visits_cons hfirst] at hall ⊢
    obtain ⟨hpeak, hstates⟩ := (hall _ List.mem_cons_self).peak h.current
    have hnext := h.step hmem hpeak
    rw [List.flatMap_cons, ← List.append_assoc]
    refine ih ⟨fun m hm => ?_, hnext.current, ?_⟩ ?_
      (fun visit hvisit => hall visit (List.mem_cons_of_mem _ hvisit)) haccess
    · rcases List.mem_append.mp hm with hm | hm
      · exact hnext.below m hm
      · exact hstates m hm
    · rcases hnext.reached with heq | ⟨m, hm, heq⟩
      · exact .inl heq
      · exact .inr ⟨m, List.mem_append_left _ hm, heq⟩
    · exact List.mem_append_right _ (List.mem_append_right _ (List.mem_singleton_self _))

end Peaked

theorem stage_peak (name : String) (h : run.residentBytes ≤ run.peak) :
    (run.stage scenario name).peak = max run.peak (run.stage scenario name).residentBytes := by
  rw [stage]
  split
  next => exact (Nat.max_eq_left h).symm
  next =>
    split
    next => exact (Nat.max_eq_left h).symm
    next =>
      rw [prefetch]
      split
      next =>
        split
        next => exact (Nat.max_eq_left h).symm
        next => rfl
      next => exact (Nat.max_eq_left h).symm
      next => exact (Nat.max_eq_left h).symm
      next => exact (Nat.max_eq_left h).symm

/-! ## A placement that adds nothing -/

/-- Nothing of nonzero size is resident and nothing is staged. -/
structure Bare (scenario : SimScenario) (run : SimRun) : Prop where
  residentBytes : run.residentBytes = 0
  peak : run.peak = 0
  entries : ∀ name ∈ run.resident, scenario.bytesOf name = 0
  staged : run.stagedBytes = 0
  redundant : run.redundantStagedBytes = 0
  newly : run.newlyResidentBytes = 0
  ineffective : run.ineffectiveStagedBytes = 0
  reread : run.rereadBytes = 0

theorem bare_start (initialUnknown : Nat) : Bare scenario (start scenario initialUnknown) where
  residentBytes := rfl
  peak := rfl
  entries name h := by simp [start] at h
  staged := rfl
  redundant := rfl
  newly := rfl
  ineffective := rfl
  reread := rfl

theorem Bare.place (hnames : scenario.DistinctNames) (hnothing : scenario.PlacesNothing)
    (hr : r ∈ scenario.resources) (h : Bare scenario run) : Bare scenario (run.place scenario r) := by
  rw [SimRun.place]
  split
  next hinitial =>
    split
    next hroom =>
      have hlt := r.bytes_lt
      have hsum : saturatingAdd run.residentBytes r.bytes = r.bytes := by
        rw [h.residentBytes, saturatingAdd]
        omega
      have hzero : r.bytes = 0 := by
        rcases hnothing r hr hinitial with hzero | hbudget
        · exact hzero
        · omega
      refine { h with
        residentBytes := hsum.trans hzero
        entries := fun name hname => ?_ }
      rcases ExtTreeMap.mem_insert.mp hname with heq | hold
      · rw [← LawfulEqCmp.eq_of_compare heq, bytesOf_of_find (find_of_mem hnames hr), hzero]
      · exact h.entries name hold
    next => exact { h with }
  next => exact h

theorem bare_placing (hnames : scenario.DistinctNames) (hnothing : scenario.PlacesNothing)
    (initialUnknown : Nat) :
    Bare scenario (placed scenario initialUnknown) ∧
      ∀ m ∈ scenario.resources.scanl (place scenario) (start scenario initialUnknown),
        Bare scenario m := by
  have hstep : ∀ r rest run, ((∀ r' ∈ r :: rest, r' ∈ scenario.resources) ∧ Bare scenario run) →
      (∀ r' ∈ rest, r' ∈ scenario.resources) ∧ Bare scenario (run.place scenario r) :=
    fun r rest run h => ⟨fun r' hr' => h.1 r' (List.mem_cons_of_mem _ hr'),
      h.2.place hnames hnothing (h.1 r List.mem_cons_self)⟩
  have hstart : (∀ r ∈ scenario.resources, r ∈ scenario.resources) ∧
      Bare scenario (start scenario initialUnknown) := ⟨fun _ h => h, bare_start initialUnknown⟩
  refine ⟨(foldl_rule (f := place scenario) (I := fun rest run => (∀ r ∈ rest, r ∈ scenario.resources) ∧
    Bare scenario run) hstep hstart).2, fun m hm => ?_⟩
  obtain ⟨rest, h⟩ := scanl_rule (f := place scenario) (I := fun rest run => (∀ r ∈ rest, r ∈ scenario.resources) ∧
    Bare scenario run) hstep hstart m hm
  exact h.2

/-- How the bytes staged divide up, where nothing of nonzero size is staged twice. -/
structure Balanced (scenario : SimScenario) (run : SimRun) : Prop where
  redundant : run.redundantStagedBytes = 0
  lt : run.stagedBytes < u64Bound
  newly : scenario.prefetchEffect = .makesResident →
    run.ineffectiveStagedBytes = 0 ∧ run.stagedBytes = run.newlyResidentBytes
  ineffective : scenario.prefetchEffect ≠ .makesResident →
    run.newlyResidentBytes = 0 ∧ run.stagedBytes = run.ineffectiveStagedBytes

theorem Balanced.total (h : Balanced scenario run) :
    run.stagedBytes =
      run.newlyResidentBytes + run.redundantStagedBytes + run.ineffectiveStagedBytes := by
  by_cases heffect : scenario.prefetchEffect = .makesResident
  · obtain ⟨hzero, hstaged⟩ := h.newly heffect
    rw [hzero, h.redundant, hstaged, Nat.add_zero]
  · obtain ⟨hzero, hstaged⟩ := h.ineffective heffect
    rw [hzero, h.redundant, hstaged, Nat.zero_add]

theorem Bare.balanced (h : Bare scenario run) : Balanced scenario run where
  redundant := h.redundant
  lt := by rw [h.staged]; decide
  newly _ := ⟨h.ineffective, h.staged.trans h.newly.symm⟩
  ineffective _ := ⟨h.newly, h.staged.trans h.ineffective.symm⟩

/-- Staging that makes nothing resident. -/
theorem Balanced.ineffectively (h : Balanced scenario run)
    (hne : scenario.prefetchEffect ≠ .makesResident)
    (hredundant : run'.redundantStagedBytes = run.redundantStagedBytes)
    (hnewly : run'.newlyResidentBytes = run.newlyResidentBytes)
    (hstaged : run'.stagedBytes = saturatingAdd run.stagedBytes bytes)
    (hineffective :
      run'.ineffectiveStagedBytes = saturatingAdd run.ineffectiveStagedBytes bytes) :
    Balanced scenario run' where
  redundant := hredundant.trans h.redundant
  lt := hstaged ▸ saturatingAdd_lt _ _
  newly heq := absurd heq hne
  ineffective _ := by
    obtain ⟨hzero, hsame⟩ := h.ineffective hne
    exact ⟨hnewly.trans hzero, by rw [hstaged, hineffective, hsame]⟩

theorem Balanced.prefetch (h : Balanced scenario run) (name : String) (bytes : Nat) :
    Balanced scenario (run.prefetch scenario name bytes) := by
  rw [SimRun.prefetch]
  split
  next heffect =>
    split
    next => exact { h with }
    next =>
      obtain ⟨hzero, hstaged⟩ := h.newly heffect
      exact
        { redundant := h.redundant
          lt := saturatingAdd_lt _ _
          newly := fun _ => ⟨hzero, congrArg (saturatingAdd · bytes) hstaged⟩
          ineffective := fun hne => absurd heffect hne }
  next heffect => exact h.ineffectively (by rw [heffect]; decide) rfl rfl rfl rfl
  next => exact { h with }
  next heffect => exact h.ineffectively (by rw [heffect]; decide) rfl rfl rfl rfl

/-- The staging of the names that are left. -/
structure Staging (scenario : SimScenario) (rest : List String) (run : SimRun) : Prop where
  distinct : rest.Nodup
  entries : ∀ name ∈ rest, name ∈ run.resident → scenario.bytesOf name = 0
  balanced : Balanced scenario run
  reread : run.rereadBytes = 0

theorem Staging.stage {rest : List String} (h : Staging scenario (name :: rest) run) :
    Staging scenario rest (run.stage scenario name) := by
  obtain ⟨hnot, hdistinct⟩ := List.nodup_cons.mp h.distinct
  have hentries : ∀ n ∈ rest, n ∈ run.resident → scenario.bytesOf n = 0 :=
    fun n hn => h.entries n (List.mem_cons_of_mem _ hn)
  rw [SimRun.stage]
  split
  next => exact ⟨hdistinct, hentries, h.balanced, h.reread⟩
  next r hfind =>
    split
    next hcontains =>
      have hzero : r.bytes = 0 := by
        rw [← bytesOf_of_find hfind]
        exact h.entries name List.mem_cons_self (ExtTreeMap.contains_iff_mem.mp hcontains)
      have hsame : saturatingAdd run.stagedBytes r.bytes = run.stagedBytes := by
        rw [hzero]
        exact saturatingAdd_of_lt (b := 0) h.balanced.lt
      refine ⟨hdistinct, hentries, ⟨?_, ?_, ?_, ?_⟩, h.reread⟩
      · show saturatingAdd run.redundantStagedBytes r.bytes = 0
        rw [hzero, h.balanced.redundant]
        rfl
      · exact saturatingAdd_lt _ _
      · exact fun heffect => ⟨(h.balanced.newly heffect).1,
          hsame.trans (h.balanced.newly heffect).2⟩
      · exact fun heffect => ⟨(h.balanced.ineffective heffect).1,
          hsame.trans (h.balanced.ineffective heffect).2⟩
    next =>
      refine ⟨hdistinct, fun n hn hmem => ?_, h.balanced.prefetch name r.bytes, ?_⟩
      · have hne : n ≠ name := fun e => hnot (e ▸ hn)
        refine hentries n hn ?_
        rw [SimRun.prefetch] at hmem
        split at hmem
        next =>
          split at hmem
          next => exact hmem
          next =>
            refine (ExtTreeMap.mem_insert.mp hmem).resolve_left fun heq => hne ?_
            exact (LawfulEqCmp.eq_of_compare heq).symm
        next => exact hmem
        next => exact hmem
        next => exact hmem
      · rw [SimRun.prefetch]
        split
        next =>
          split
          next => exact h.reread
          next => exact h.reread
        next => exact h.reread
        next => exact h.reread
        next => exact h.reread

theorem staging_staged (selected : Names) (hnames : scenario.DistinctNames)
    (hnothing : scenario.PlacesNothing) (initialUnknown : Nat) :
    Staging scenario [] (staged scenario selected initialUnknown) := by
  have hbare := (bare_placing hnames hnothing initialUnknown).1
  rw [staged]
  split
  next =>
    exact foldl_rule (I := Staging scenario) (fun _ _ _ h => h.stage)
      ⟨nodup_toList_set selected, fun name _ => hbare.entries name, hbare.balanced, hbare.reread⟩
  next => exact ⟨List.nodup_nil, fun _ h => by simp at h, hbare.balanced, hbare.reread⟩

/-! ## The accounts of a strategy -/

/-- The residency accounts of a run whose planner selected `selected`. -/
structure Accounts (scenario : SimScenario) (selected : Names) (result : SimResult) : Prop where
  resident : ∀ m ∈ moments scenario selected result.initialUnknownBytes,
    m.residentBytes = m.held ∧ m.residentBytes ≤ scenario.budgetBytes
  peak : IsGreatest
    {n | ∃ m ∈ moments scenario selected result.initialUnknownBytes, m.residentBytes = n}
    result.peakResidentBytes
  staged : scenario.prefetchTiming = .onTime → result.stagedBytes =
    result.newlyResidentBytes + result.redundantStagedBytes + result.ineffectiveStagedBytes
  evicted : result.evictedBeforeAccessBytes ≤ result.newlyResidentBytes
  visited : (visits scenario (SimRun.staged scenario selected result.initialUnknownBytes)
    scenario.testSequence).map Visit.name = scenario.testSequence
  charged : ∀ visit ∈ visits scenario (SimRun.staged scenario selected result.initialUnknownBytes)
      scenario.testSequence,
    visit.after.rereadBytes =
      if visit.before.resident.contains visit.name then visit.before.rereadBytes
      else saturatingAdd visit.before.rereadBytes (scenario.bytesOf visit.name)
  reread : result.rereadBytes =
    min ((visits scenario (SimRun.staged scenario selected result.initialUnknownBytes)
      scenario.testSequence).map (Visit.charge scenario)).sum (u64Bound - 1)

/-- What a result takes from the run of its loops. -/
structure Reports (scenario : SimScenario) (run : SimRun) (result : SimResult) : Prop where
  peak : result.peakResidentBytes = run.peak
  staged : scenario.prefetchTiming = .onTime → result.stagedBytes = run.stagedBytes
  newly : result.newlyResidentBytes = run.newlyResidentBytes
  redundant : result.redundantStagedBytes = run.redundantStagedBytes
  ineffective : result.ineffectiveStagedBytes = run.ineffectiveStagedBytes
  evicted : result.evictedBeforeAccessBytes = run.evictedBeforeAccessBytes
  reread : result.rereadBytes = run.rereadBytes

theorem kept_moments (hnames : scenario.DistinctNames) (hfits : Fits scenario selected)
    {initialUnknown : Nat} (h : accessed scenario selected initialUnknown = .ok run) :
    ∀ m ∈ moments scenario selected initialUnknown, Kept scenario selected m := by
  have hstaged := kept_staged hnames hfits initialUnknown
  intro m hm
  rcases List.mem_append.mp hm with hm | hm
  · rcases List.mem_append.mp hm with hm | hm
    · obtain ⟨rest, h⟩ := scanl_rule (I := Placing scenario selected)
        (fun _ _ _ h => h.place hnames hfits) (placing_start hnames initialUnknown) m hm
      exact h.kept
    · split at hm
      next htime =>
        obtain ⟨rest, h⟩ := scanl_rule (f := stage scenario)
          (I := fun rest run => (∀ name ∈ rest, name ∈ selected) ∧ Kept scenario selected run)
          (fun name rest run h => ⟨fun n hn => h.1 n (List.mem_cons_of_mem _ hn),
            h.2.stage hfits htime (h.1 name List.mem_cons_self)⟩)
          ⟨fun name hname => ExtTreeSet.mem_toList.mp hname,
            kept_placed hnames hfits initialUnknown⟩ m hm
        exact h.2
      next => simp at hm
  · obtain ⟨visit, hvisit, hm⟩ := List.mem_flatMap.mp hm
    exact ((visits_ok hfits hstaged (fun _ h => h) h).2 visit hvisit).2 m hm

theorem mem_scanl_foldl {α : Type} (f : SimRun → α → SimRun) (l : List α) (run : SimRun) :
    l.foldl f run ∈ l.scanl f run := by
  induction l generalizing run with
  | nil => exact List.mem_singleton_self _
  | cons a rest ih =>
    rw [List.scanl_cons]
    exact List.mem_cons_of_mem _ (ih (f run a))

theorem peaked_opening (selected : Names) (hnames : scenario.DistinctNames)
    (hnothing : scenario.PlacesNothing) (initialUnknown : Nat) :
    Peaked (opening scenario selected initialUnknown) (staged scenario selected initialUnknown) ∧
      staged scenario selected initialUnknown ∈ opening scenario selected initialUnknown := by
  obtain ⟨hbare, hall⟩ := bare_placing hnames hnothing initialUnknown
  have hplaced : Peaked (scenario.resources.scanl (place scenario) (start scenario initialUnknown))
      (placed scenario initialUnknown) := by
    refine ⟨fun m hm => ?_, ?_, .inl ?_⟩
    · rw [(hall m hm).residentBytes]
      exact Nat.zero_le _
    · rw [hbare.residentBytes]
      exact Nat.zero_le _
    · rw [hbare.residentBytes, hbare.peak]
  rw [opening, staged]
  split
  next =>
    exact ⟨hplaced.scanl (fun _ name h => stage_peak name h) _,
      List.mem_append_right _ (mem_scanl_foldl _ _ _)⟩
  next =>
    rw [List.append_nil]
    exact ⟨hplaced, mem_scanl_foldl _ _ _⟩

theorem isGreatest_peak (hnames : scenario.DistinctNames) (hnothing : scenario.PlacesNothing)
    (hfits : Fits scenario selected) {initialUnknown : Nat}
    (h : accessed scenario selected initialUnknown = .ok run) :
    run ∈ moments scenario selected initialUnknown ∧
      IsGreatest {n | ∃ m ∈ moments scenario selected initialUnknown, m.residentBytes = n}
        run.peak := by
  have hvisits := (visits_ok hfits (kept_staged hnames hfits initialUnknown) (fun _ h => h) h).2
  obtain ⟨hopening, hmem⟩ := peaked_opening selected hnames hnothing initialUnknown
  obtain ⟨hpeaked, hrun⟩ := hopening.visits hmem (fun visit hvisit => (hvisits visit hvisit).1) h
  refine ⟨hrun, ?_, ?_⟩
  · rcases hpeaked.reached with heq | hreached
    · exact ⟨run, hrun, heq⟩
    · exact hreached
  · rintro n ⟨m, hm, rfl⟩
    exact hpeaked.below m hm

/-- The result of a run whose loops are `run` keeps the accounts. -/
theorem Reports.accounts {result : SimResult} (hreports : Reports scenario run result)
    (hnames : scenario.DistinctNames) (hnothing : scenario.PlacesNothing)
    (hfits : Fits scenario selected)
    (h : accessed scenario selected result.initialUnknownBytes = .ok run) :
    Accounts scenario selected result := by
  have hstaging := staging_staged selected hnames hnothing result.initialUnknownBytes
  have hkept := kept_moments hnames hfits h
  obtain ⟨hmem, hpeak⟩ := isGreatest_peak hnames hnothing hfits h
  obtain ⟨hmap, hvisits⟩ :=
    visits_ok hfits (kept_staged hnames hfits result.initialUnknownBytes) (fun _ h => h) h
  obtain ⟨hreread, hstaged, hredundant, hnewly, hineffective⟩ :=
    visits_counts (by rw [hstaging.reread]; decide) (fun visit hvisit => (hvisits visit hvisit).1) h
  rw [hstaging.reread, Nat.zero_add] at hreread
  refine ⟨fun m hm => ⟨(hkept m hm).exact, (hkept m hm).within⟩, ?_, fun htime => ?_, ?_, hmap,
    fun visit hvisit => (hvisits visit hvisit).1.reread, hreports.reread.trans hreread⟩
  · rw [hreports.peak]
    exact hpeak
  · rw [hreports.staged htime, hreports.newly, hreports.redundant, hreports.ineffective, hstaged,
      hredundant, hnewly, hineffective]
    exact hstaging.balanced.total
  · obtain ⟨newly, gone, hnewly, hgone, hle⟩ := (hkept run hmem).evicted
    rw [hreports.evicted, hreports.newly, hnewly, hgone]
    omega

end SimRun

namespace SimScenario

open SimRun

variable {build : Build} {scenario : SimScenario} {inventory : ResourceInventory}
  {profile : ExecutionProfile} {strategy : SimStrategy} {result : SimResult}
  {comparison : SimComparison}

/-- What the planner selects for a strategy. -/
def selectedBy (build : Build) (scenario : SimScenario) (strategy : SimStrategy) :
    Outcome String Names := do
  let (inventory, profile) ← scenarioInputs build scenario
  let predictions ← predictionsFor build scenario inventory profile strategy
  let residentBefore ← initialBytes build scenario .resident
  pure (selectedNames (planFor scenario inventory strategy predictions residentBefore))

theorem of_runStrategy_ok (hinputs : scenarioInputs build scenario = .ok (inventory, profile))
    (h : runStrategy build scenario inventory profile strategy = .ok result) :
    ∃ selected run, selectedBy build scenario strategy = .ok selected ∧
      accessed scenario selected result.initialUnknownBytes = .ok run ∧
      Reports scenario run result := by
  rw [runStrategy] at h
  obtain ⟨predictions, hpredictions, h⟩ := of_bind_ok h
  obtain ⟨residentBefore, hresident, h⟩ := of_bind_ok h
  obtain ⟨initialNonresident, -, h⟩ := of_bind_ok h
  obtain ⟨initialUnknown, -, h⟩ := of_bind_ok h
  obtain ⟨run, hrun, h⟩ := of_bind_ok h
  obtain ⟨wasted, -, h⟩ := of_bind_ok h
  obtain ⟨stagedBytes, hstaged, h⟩ := of_bind_ok h
  obtain ⟨coverage, -, h⟩ := of_bind_ok h
  cases h
  refine ⟨_, run, ?_, hrun, rfl, fun htime => ?_, rfl, rfl, rfl, rfl, rfl⟩
  · rw [selectedBy, hinputs, ok_bind]
    show (predictionsFor build scenario inventory profile strategy >>= _) = _
    rw [hpredictions, ok_bind, hresident]
    rfl
  · rw [reportedStagedBytes, if_neg (by rw [htime]; simp)] at hstaged
    cases hstaged
    rfl

theorem reports_compared {run : SimRun} {baseline : SimResult}
    (h : Reports scenario run result) : Reports scenario run (compared baseline result) :=
  ⟨h.peak, h.staged, h.newly, h.redundant, h.ineffective, h.evicted, h.reread⟩

theorem of_simulate_ok (h : simulate build scenario = .ok comparison) (strategy : SimStrategy) :
    ∃ selected run, selectedBy build scenario strategy = .ok selected ∧
      accessed scenario selected (comparison.result strategy).initialUnknownBytes = .ok run ∧
      Reports scenario run (comparison.result strategy) := by
  rw [simulate] at h
  obtain ⟨-, h⟩ := of_failIf_bind_ok h
  obtain ⟨-, h⟩ := of_failIf_bind_ok h
  obtain ⟨⟨inventory, profile⟩, hinputs, h⟩ := of_bind_ok h
  obtain ⟨baseline, hbaseline, h⟩ := of_bind_ok h
  obtain ⟨reactive, hreactive, h⟩ := of_bind_ok h
  obtain ⟨predictive, hpredictive, h⟩ := of_bind_ok h
  obtain ⟨conservative, hconservative, h⟩ := of_bind_ok h
  obtain ⟨aggressive, haggressive, h⟩ := of_bind_ok h
  cases h
  have hcompared : ∀ {strategy result}, runStrategy build scenario inventory profile strategy =
      .ok result → ∃ selected run, selectedBy build scenario strategy = .ok selected ∧
        accessed scenario selected (compared baseline result).initialUnknownBytes = .ok run ∧
        Reports scenario run (compared baseline result) := by
    intro strategy result hrun
    obtain ⟨selected, run, hselected, haccessed, hreports⟩ := of_runStrategy_ok hinputs hrun
    exact ⟨selected, run, hselected, haccessed, reports_compared hreports⟩
  cases strategy with
  | baseline => exact of_runStrategy_ok hinputs hbaseline
  | reactive => exact hcompared hreactive
  | predictive => exact hcompared hpredictive
  | conservative => exact hcompared hconservative
  | aggressive => exact hcompared haggressive

/-- Where the initial placement adds no bytes and no sum of resident bytes saturates, every
strategy keeps its accounts. -/
theorem simulate_accounts (hnames : scenario.DistinctNames)
    (h : simulate build scenario = .ok comparison) (hnothing : scenario.PlacesNothing)
    (strategy : SimStrategy) :
    ∃ selected, selectedBy build scenario strategy = .ok selected ∧
      (scenario.Fits selected → Accounts scenario selected (comparison.result strategy)) := by
  obtain ⟨selected, run, hselected, haccessed, hreports⟩ := of_simulate_ok h strategy
  exact ⟨selected, hselected, fun hfits => hreports.accounts hnames hnothing hfits haccessed⟩

/-- A scenario of two resources that the budget can hold one at a time: what is staged is
evicted before its access. -/
def evictedBeforeAccess : SimScenario where
  name := "evicted-before-access"
  budgetBytes := 4096
  stagingWindowBytes := 4096
  speculativeBudgetBytes := 4096
  minConfidenceBps := 5000
  predictionHorizon := 8
  resources :=
    [{ name := "a"
       bytes := 4096
       fileBacked := true
       knownSize := true
       initial := .nonResident
       overlapGroup := none },
     { name := "b"
       bytes := 4096
       fileBacked := true
       knownSize := true
       initial := .nonResident
       overlapGroup := none }]
  trainingSequence := ["a"]
  testSequence := ["b", "a"]
  prefetchEffect := .makesResident
  prefetchTiming := .onTime
  observationMode := .disabled
  observationPageBudget := 0
  beforeAccessObservation := false
  cacheCondition := .uncontrolled
  costs := {}

theorem simulate_accounts_evictedBeforeAccess :
    ∃ comparison selected, simulate .debug evictedBeforeAccess = .ok comparison ∧
      selectedBy .debug evictedBeforeAccess .predictive = .ok selected ∧
      Accounts evictedBeforeAccess selected (comparison.result .predictive) := by
  obtain ⟨comparison, h⟩ :=
    exists_of_isOk (m := simulate .debug evictedBeforeAccess) (by decide +kernel)
  obtain ⟨selected, hselected, haccounts⟩ := simulate_accounts
    (show evictedBeforeAccess.DistinctNames by unfold DistinctNames; decide) h
    (by unfold PlacesNothing; decide) .predictive
  exact ⟨comparison, selected, h, hselected, haccounts (.inl (by decide))⟩

/-- One resource, resident from the start. -/
def alreadyResident : SimScenario :=
  { evictedBeforeAccess with
    name := "already-resident"
    budgetBytes := 8192
    resources :=
      [{ name := "a"
         bytes := 4096
         fileBacked := true
         knownSize := true
         initial := .resident
         overlapGroup := none }]
    testSequence := ["a"] }

/-- The placement leaves the peak at zero. -/
theorem not_accounts_alreadyResident :
    ∃ comparison selected, alreadyResident.DistinctNames ∧
      simulate .debug alreadyResident = .ok comparison ∧
      selectedBy .debug alreadyResident .baseline = .ok selected ∧
      ¬Accounts alreadyResident selected (comparison.result .baseline) := by
  have hpeak : (simulate .debug alreadyResident).map
      (fun comparison => comparison.baseline.peakResidentBytes) = .ok 0 := by
    decide +kernel
  obtain ⟨comparison, h, hzero⟩ := of_map_ok hpeak
  obtain ⟨selected, run, hselected, -, -⟩ := of_simulate_ok h .baseline
  refine ⟨comparison, selected, by unfold DistinctNames; decide, h, hselected, fun haccounts => ?_⟩
  have hplaced : ∀ u, (placed alreadyResident u).residentBytes = 4096 := by
    intro u
    simp [placed, place, start, alreadyResident, evictedBeforeAccess, saturatingAdd, u64Bound]
  have hle : 4096 ≤ comparison.baseline.peakResidentBytes := haccounts.peak.2
    ⟨placed alreadyResident comparison.baseline.initialUnknownBytes,
      List.mem_append_left _ (List.mem_append_left _ (mem_scanl_foldl _ _ _)), hplaced _⟩
  rw [hzero] at hle
  exact absurd hle (by decide)

end SimScenario
end Ramforge
