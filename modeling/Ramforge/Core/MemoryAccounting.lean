/-
The accounting of a budget over whole runs, and the atomicity of its errors.
-/
import Ramforge.Core.MemoryRun

namespace Ramforge
namespace MemoryBudget

open Rust Rust.Exec Rust.MapSum Rust.KeyMove

/-- A client that keeps nothing beside the budget. -/
def alone : Empty → Exec (Unit × MemoryBudget) String Unit := nofun

/-- The budgets a run goes through, from the first to the last. -/
def history (calls : List (Call Empty)) (b : MemoryBudget) : List MemoryBudget :=
  b :: (Call.visitedAll alone calls ((), b)).map Prod.snd

/-- The budget after a run. -/
def after (calls : List (Call Empty)) (b : MemoryBudget) : MemoryBudget :=
  (Call.runAll alone calls ((), b)).2.2

theorem history_path (calls : List (Call Empty)) (b : MemoryBudget) :
    Path (fun b b' => Accounted b → Step b b') b
      ((Call.visitedAll alone calls ((), b)).map Prod.snd) (after calls b) := by
  refine (Call.runAll_path alone calls ((), b) (Call.eachOf_true alone calls _)).map Prod.snd ?_
  intro s t hst hs
  rcases hst.step alone hs with ⟨i, -⟩ | ⟨-, h⟩
  · cases i
  · exact h

theorem new_run {total : Nat} (h0 : 0 < total) :
    MemoryBudget.new total = .ok { total, allocations := ∅, used := 0, peakUsed := 0 } :=
  if_neg (Nat.ne_of_gt h0)

theorem accounted_new {total : Nat} {b : MemoryBudget} (h64 : total < u64Bound)
    (h : MemoryBudget.new total = .ok b) :
    Accounted b ∧ b.used = 0 ∧ b.peakUsed = 0 ∧ b.total = total ∧ b.allocations = ∅ := by
  rw [MemoryBudget.new] at h
  split at h
  · cases h
  · cases h
    refine ⟨⟨?_, Nat.zero_le _, h64, fun name bytes hn => ?_, Nat.le_refl _⟩, rfl, rfl, rfl, rfl⟩
    · rw [charged, sumOver_empty]
    · simp [get] at hn

/-- Neither a panic nor a report of broken accounting. -/
structure Clean {α : Type} (o : Outcome MemoryError α) : Prop where
  panic : ∀ p, o ≠ .panic p
  underflow : ∀ name released used, o ≠ .err (.accountingUnderflow name released used)
  overflow : ∀ name requested used, o ≠ .err (.accountingOverflow name requested used)

/-- No operation on `b` panics or reports an underflow, and only a
`commit_resize` whose final size does not fit a `u64` on top of the other charges
reports an overflow. -/
structure FaultFree (b : MemoryBudget) : Prop where
  available : ∀ p, ((availableBytes : Exec MemoryBudget MemoryError Nat) b).1 ≠ .panic p
  allocate : ∀ name bytes, Clean (allocate name bytes b).1
  reserve : ∀ name bytes, Clean (reserve name bytes b).1
  release : ∀ name, Clean (release name b).1
  resize : ∀ name newBytes, Clean (resize name newBytes b).1
  renamePrefix : ∀ oldPrefix newPrefix, Clean (renamePrefix oldPrefix newPrefix b).1
  commitResize : ∀ target reservation finalBytes,
    (∀ p, (commitResize target reservation finalBytes b).1 ≠ .panic p) ∧
    (∀ name released used, (commitResize target reservation finalBytes b).1 ≠
      .err (.accountingUnderflow name released used)) ∧
    ((∃ name requested used, (commitResize target reservation finalBytes b).1 =
        .err (.accountingOverflow name requested used)) ↔
      target ≠ reservation ∧ ∃ oldBytes reservedBytes, b.get target = some oldBytes ∧
        b.get reservation = some reservedBytes ∧ 0 < finalBytes ∧
        u64Bound ≤ b.baseUsed oldBytes reservedBytes + finalBytes)

section clean

variable {α : Type}

theorem clean_ok (a : α) : Clean (.ok a) := ⟨nofun, nofun, nofun⟩

theorem clean_err {e : MemoryError} (hu : ∀ n r u, e ≠ .accountingUnderflow n r u)
    (ho : ∀ n r u, e ≠ .accountingOverflow n r u) : Clean (.err e : Outcome MemoryError α) :=
  ⟨nofun, fun n r u h => hu n r u (Outcome.err.inj h), fun n r u h => ho n r u (Outcome.err.inj h)⟩

end clean

variable {b : MemoryBudget}

theorem allocate_clean (h : Accounted b) (name : String) (bytes : Nat) :
    Clean (allocate name bytes b).1 := by
  rw [allocate_run h]
  split_ifs
  · exact clean_err nofun nofun
  · exact clean_err nofun nofun
  · exact clean_ok ()
  · exact clean_err nofun nofun

theorem release_clean (h : Accounted b) (name : String) : Clean (release name b).1 := by
  rw [release_run h]
  cases b.get name with
  | none => exact clean_err nofun nofun
  | some bytes => exact clean_ok bytes

theorem resize_clean (h : Accounted b) (name : String) (newBytes : Nat) :
    Clean (resize name newBytes b).1 := by
  rw [resize_run h]
  split_ifs
  · exact clean_err nofun nofun
  · cases b.get name with
    | none => exact clean_err nofun nofun
    | some oldBytes =>
      simp only
      split_ifs
      · exact clean_ok oldBytes
      · exact clean_err nofun nofun

theorem renamePrefix_clean (b : MemoryBudget) (oldPrefix newPrefix : String) :
    Clean (renamePrefix oldPrefix newPrefix b).1 := by
  rw [renamePrefix_run]
  split_ifs
  · exact clean_err nofun nofun
  · cases (b.renames oldPrefix newPrefix).find? (fun p => b.allocations.contains p.2) with
    | some p => exact clean_err nofun nofun
    | none => exact clean_ok _

theorem commitResize_overflow_iff (h : Accounted b) (target reservation : String)
    (finalBytes : Nat) :
    (∃ name requested used, (commitResize target reservation finalBytes b).1 =
        .err (.accountingOverflow name requested used)) ↔
      target ≠ reservation ∧ ∃ oldBytes reservedBytes, b.get target = some oldBytes ∧
        b.get reservation = some reservedBytes ∧ 0 < finalBytes ∧
        u64Bound ≤ b.baseUsed oldBytes reservedBytes + finalBytes := by
  rw [commitResize_run h]
  by_cases h0 : finalBytes = 0
  · simp [h0]
  by_cases hne : target = reservation
  · simp [h0, hne]
  rw [if_neg h0, if_neg hne]
  cases b.get target with
  | none => simp
  | some oldBytes =>
    cases b.get reservation with
    | none => simp
    | some reservedBytes =>
      simp only
      by_cases hov : u64Bound ≤ b.baseUsed oldBytes reservedBytes + finalBytes
      · simp [hov, hne, Nat.pos_of_ne_zero h0]
      · rw [if_neg hov]
        constructor
        · rintro ⟨n, r, u, he⟩
          split_ifs at he
          cases he
        · rintro ⟨-, o, r, ho, hr, -, hle⟩
          cases ho
          cases hr
          exact absurd hle hov

theorem commitResize_no_panic (h : Accounted b) (target reservation : String)
    (finalBytes : Nat) :
    (∀ p, (commitResize target reservation finalBytes b).1 ≠ .panic p) ∧
      ∀ name released used, (commitResize target reservation finalBytes b).1 ≠
        .err (.accountingUnderflow name released used) := by
  rw [commitResize_run h]
  split_ifs
  · exact ⟨nofun, nofun⟩
  · exact ⟨nofun, nofun⟩
  · cases b.get target with
    | none => exact ⟨nofun, nofun⟩
    | some oldBytes =>
      cases b.get reservation with
      | none => exact ⟨nofun, nofun⟩
      | some reservedBytes =>
        simp only
        split_ifs <;> exact ⟨nofun, nofun⟩

theorem Accounted.faultFree (h : Accounted b) : FaultFree b where
  available := by rw [availableBytes_run h.used_le]; nofun
  allocate := allocate_clean h
  reserve := allocate_clean h
  release := release_clean h
  resize := resize_clean h
  renamePrefix := renamePrefix_clean b
  commitResize target reservation finalBytes :=
    ⟨(commitResize_no_panic h _ _ _).1, (commitResize_no_panic h _ _ _).2,
      commitResize_overflow_iff h _ _ _⟩

/-- Every budget a run goes through keeps its counters in agreement with its map,
records the greatest usage so far as its peak, and is free of accounting
faults. -/
theorem history_accounted {total : Nat} (h0 : 0 < total) (h64 : total < u64Bound)
    (calls : List (Call Empty)) :
    ∃ b₀, MemoryBudget.new total = .ok b₀ ∧
      (history calls b₀).getLast? = some (after calls b₀) ∧
      ∀ pre b post, history calls b₀ = pre ++ b :: post →
        b.used = charged b.allocations ∧ b.used ≤ b.total ∧
        (∀ name bytes, b.get name = some bytes → 0 < bytes) ∧
        IsGreatest {u | ∃ b' ∈ pre ++ [b], b'.used = u} b.peakUsed ∧
        FaultFree b := by
  refine ⟨_, new_run h0, (history_path calls _).getLast?_eq, fun pre b post hb => ?_⟩
  obtain ⟨hacc, hused, hpeak, -, -⟩ := accounted_new h64 (new_run h0)
  have hpath := history_path calls { total, allocations := ∅, used := 0, peakUsed := 0 }
  have hinv : Accounted b := by
    refine hpath.invariant (fun _ _ hs ha => (hs ha).accounted ha) hacc b ?_
    show b ∈ history calls _
    rw [hb]
    simp
  have hg := hpath.isGreatest_level (I := Accounted) MemoryBudget.used MemoryBudget.peakUsed
    (fun _ _ hs ha => ⟨(hs ha).accounted ha, (hs ha).peakUsed_eq ha⟩) hacc (m := 0)
    (by rw [hused, hpeak]; rfl) hb
  refine ⟨hinv.used_eq, hinv.used_le, hinv.pos, ?_, hinv.faultFree⟩
  -- The first budget has nothing in use, so the lower bound `0` is among the levels.
  have hzero : (0 : Nat) ∈ {u | ∃ b' ∈ pre ++ [b], b'.used = u} := by
    cases pre with
    | nil =>
      obtain ⟨rfl, -⟩ := List.cons.inj hb
      exact ⟨_, List.mem_singleton_self _, rfl⟩
    | cons a pre =>
      obtain ⟨rfl, -⟩ := List.cons.inj hb
      exact ⟨_, List.mem_cons_self, rfl⟩
  rwa [Set.insert_eq_of_mem hzero] at hg

/-- The run of `history_accounted` with scopes nested in scopes, one of which ends in a
panic after its closure released the scope's own charge. -/
theorem history_accounted_nested :
    ∃ b₀, MemoryBudget.new 1000 = .ok b₀ ∧
      (history [.allocate "kv" 10, .withTemp "a" 5 [.withTemp "b" 7 [.release "b"] (.panic "x")]
        (.err "e"), .renamePrefix "kv" "cache:kv"] b₀).getLast? =
        some (after [.allocate "kv" 10, .withTemp "a" 5 [.withTemp "b" 7 [.release "b"]
          (.panic "x")] (.err "e"), .renamePrefix "kv" "cache:kv"] b₀) ∧
      ∀ pre b post, history [.allocate "kv" 10, .withTemp "a" 5 [.withTemp "b" 7 [.release "b"]
          (.panic "x")] (.err "e"), .renamePrefix "kv" "cache:kv"] b₀ = pre ++ b :: post →
        b.used = charged b.allocations ∧ b.used ≤ b.total ∧
        (∀ name bytes, b.get name = some bytes → 0 < bytes) ∧
        IsGreatest {u | ∃ b' ∈ pre ++ [b], b'.used = u} b.peakUsed ∧
        FaultFree b :=
  history_accounted (by decide) (by decide) _

/-- Three one-byte charges, of which two are merged at `u64::MAX` bytes: the checked
addition of `commit_resize` reports an overflow. -/
theorem commitResize_overflow_reached :
    ∃ b₀, MemoryBudget.new 10 = .ok b₀ ∧
      (commitResize "kv" "kv:growth" (2 ^ 64 - 1)
        (after [.allocate "kv" 1, .allocate "kv:growth" 1, .allocate "other" 1] b₀)).1 =
      .err (.accountingOverflow "kv" (2 ^ 64 - 1) 1) :=
  ⟨{ total := 10, allocations := ∅, used := 0, peakUsed := 0 }, rfl, by decide⟩

/-! ## Errors change nothing -/

/-- A budget that some run from a fresh budget goes through. -/
def Reachable (b : MemoryBudget) : Prop :=
  ∃ total b₀ calls, 0 < total ∧ total < u64Bound ∧ MemoryBudget.new total = .ok b₀ ∧
    b ∈ history calls b₀

theorem Reachable.accounted {b : MemoryBudget} (h : Reachable b) : Accounted b := by
  obtain ⟨total, b₀, calls, -, h64, hnew, hb⟩ := h
  exact (history_path calls b₀).invariant (fun _ _ hs ha => (hs ha).accounted ha)
    (accounted_new h64 hnew).1 b hb

/-- A call that answers `Err` leaves the budget as it was. -/
def ErrKeeps {α : Type} (m : Exec MemoryBudget MemoryError α) (b : MemoryBudget) : Prop :=
  ∀ e, (m b).1 = .err e → (m b).2 = b

section errors

variable {b : MemoryBudget}

theorem allocate_errKeeps (h : Accounted b) (name : String) (bytes : Nat) :
    ErrKeeps (allocate name bytes) b := by
  intro e he
  rw [allocate_run h] at he ⊢
  split_ifs at he ⊢
  · rfl
  · rfl
  · rfl

theorem release_errKeeps (h : Accounted b) (name : String) : ErrKeeps (release name) b := by
  intro e he
  rw [release_run h] at he ⊢
  cases hn : b.get name with
  | none => rfl
  | some bytes => rw [hn] at he; cases he

theorem resize_errKeeps (h : Accounted b) (name : String) (newBytes : Nat) :
    ErrKeeps (resize name newBytes) b := by
  intro e he
  rw [resize_run h] at he ⊢
  by_cases h0 : newBytes = 0
  · simp only [if_pos h0]
  rw [if_neg h0] at he ⊢
  cases hn : b.get name with
  | none => rfl
  | some oldBytes =>
    rw [hn] at he
    simp only at he ⊢
    split_ifs at he ⊢
    rfl

theorem commitResize_errKeeps (h : Accounted b) (target reservation : String)
    (finalBytes : Nat) : ErrKeeps (commitResize target reservation finalBytes) b := by
  intro e he
  rw [commitResize_run h] at he ⊢
  by_cases h0 : finalBytes = 0
  · simp only [if_pos h0]
  by_cases hne : target = reservation
  · simp only [if_neg h0, if_pos hne]
  rw [if_neg h0, if_neg hne] at he ⊢
  cases hn : b.get target with
  | none => rfl
  | some oldBytes =>
    rw [hn] at he
    cases hm : b.get reservation with
    | none => rfl
    | some reservedBytes =>
      rw [hm] at he
      simp only at he ⊢
      split_ifs at he ⊢
      · rfl
      · rfl

theorem renamePrefix_errKeeps (b : MemoryBudget) (oldPrefix newPrefix : String) :
    ErrKeeps (renamePrefix oldPrefix newPrefix) b := by
  intro e he
  rw [renamePrefix_run] at he ⊢
  split_ifs at he ⊢
  · rfl
  · cases hf : (b.renames oldPrefix newPrefix).find? (fun p => b.allocations.contains p.2) with
    | some p => rfl
    | none => rw [hf] at he; cases he

end errors

/-- What a successful prefix rename does: the entries under `oldPrefix` move, one to
one and with their bytes, to the names returned; every other entry stays. -/
structure Renamed (b b' : MemoryBudget) (oldPrefix newPrefix : String) (names : List String) :
    Prop where
  bijOn : Set.BijOn (renamed oldPrefix newPrefix)
    {n | (b.get n).isSome ∧ Text.startsWith n oldPrefix = true} {m | m ∈ names}
  moved : ∀ n, (b.get n).isSome → Text.startsWith n oldPrefix = true →
    b'.get (renamed oldPrefix newPrefix n) = b.get n
  fresh : ∀ m ∈ names, b.get m = none
  others : ∀ m, m ∉ names →
    b'.get m = if Text.startsWith m oldPrefix then none else b.get m
  used : b'.used = b.used
  peakUsed : b'.peakUsed = b.peakUsed
  total : b'.total = b.total

theorem renamePrefix_ok {b b' : MemoryBudget} {oldPrefix newPrefix : String}
    {names : List String} (h : renamePrefix oldPrefix newPrefix b = (.ok names, b')) :
    Renamed b b' oldPrefix newPrefix names := by
  rw [renamePrefix_run] at h
  by_cases hnil : b.renames oldPrefix newPrefix = []
  · rw [if_pos hnil] at h
    cases h
  rw [if_neg hnil] at h
  cases hf : (b.renames oldPrefix newPrefix).find? (fun p => b.allocations.contains p.2) with
  | some p => rw [hf] at h; cases h
  | none =>
    rw [hf] at h
    obtain ⟨hn, hb⟩ := Prod.mk.inj h
    obtain rfl := Outcome.ok.inj hn
    have habs := absent_of_find?_eq_none hf
    have hmov := movable_renames habs
    have hname : ∀ m, m ∈ (b.renames oldPrefix newPrefix).map Prod.snd ↔
        ∃ n, ((b.get n).isSome ∧ Text.startsWith n oldPrefix = true) ∧
          renamed oldPrefix newPrefix n = m := by
      intro m
      rw [List.mem_map]
      constructor
      · rintro ⟨p, hp, rfl⟩
        obtain ⟨hs, hst, he⟩ := mem_renames.mp hp
        exact ⟨p.1, ⟨hs, hst⟩, he.symm⟩
      · rintro ⟨n, ⟨hs, hst⟩, rfl⟩
        exact ⟨(n, _), mem_renames.mpr ⟨hs, hst, rfl⟩, rfl⟩
    subst hb
    refine ⟨⟨fun n hn => (hname _).mpr ⟨n, hn, rfl⟩, fun n hn m hm he => ?_, fun m hm => ?_⟩,
      fun n hs hst => ?_, fun m hm => ?_, fun m hm => ?_, rfl, rfl, rfl⟩
    · exact renamed_injective hn.2 hm.2 he
    · obtain ⟨n, hn, he⟩ := (hname m).mp hm
      exact ⟨n, hn, he⟩
    · exact getElem?_moveKeys_target hmov (mem_renames.mpr ⟨hs, hst, rfl⟩)
    · obtain ⟨p, hp, rfl⟩ := List.mem_map.mp hm
      exact habs p hp
    · show (moveKeys (b.renames oldPrefix newPrefix) b.allocations)[m]? = _
      by_cases hs : (b.get m).isSome ∧ Text.startsWith m oldPrefix = true
      · rw [getElem?_moveKeys_source hmov (t := renamed oldPrefix newPrefix m)
          (mem_renames.mpr ⟨hs.1, hs.2, rfl⟩), if_pos hs.2]
      · have hsrc : m ∉ (b.renames oldPrefix newPrefix).map Prod.fst := by
          intro hin
          obtain ⟨p, hp, rfl⟩ := List.mem_map.mp hin
          obtain ⟨h₁, h₂, -⟩ := mem_renames.mp hp
          exact hs ⟨h₁, h₂⟩
        rw [getElem?_moveKeys_of_notMem hmov hsrc hm]
        show b.get m = _
        split_ifs with hst
        · exact Option.not_isSome_iff_eq_none.mp fun h₁ => hs ⟨h₁, hst⟩
        · rfl

/-- On a reachable budget every call that answers `Err` leaves the charges, the
usage and the peak as they were, and a prefix rename that answers `Ok` moves
exactly the entries under the old prefix. -/
theorem errors_atomic {b : MemoryBudget} (h : Reachable b) :
    (∀ name bytes, ErrKeeps (allocate name bytes) b) ∧
    (∀ name bytes, ErrKeeps (reserve name bytes) b) ∧
    (∀ name, ErrKeeps (release name) b) ∧
    (∀ name newBytes, ErrKeeps (resize name newBytes) b) ∧
    (∀ target reservation finalBytes, ErrKeeps (commitResize target reservation finalBytes) b) ∧
    (∀ oldPrefix newPrefix, ErrKeeps (renamePrefix oldPrefix newPrefix) b) ∧
    ∀ oldPrefix newPrefix names b', renamePrefix oldPrefix newPrefix b = (.ok names, b') →
      Renamed b b' oldPrefix newPrefix names :=
  have ha := h.accounted
  ⟨allocate_errKeeps ha, allocate_errKeeps ha, release_errKeeps ha, resize_errKeeps ha,
    commitResize_errKeeps ha, renamePrefix_errKeeps b, fun _ _ _ _ hr => renamePrefix_ok hr⟩

/-- The budget of the repository's own resize test, with both charges of a growth live. -/
def growing : MemoryBudget :=
  after [.allocate "kv_cache" 200, .allocate "kv_cache:growth" 400, .allocate "other" 400]
    { total := 1000, allocations := ∅, used := 0, peakUsed := 0 }

theorem growing_reachable : Reachable growing :=
  ⟨1000, _, _, by decide, by decide, rfl, (history_path _ _).last_mem⟩

theorem errors_atomic_growing :
    (∀ name bytes, ErrKeeps (allocate name bytes) growing) ∧
    (∀ name bytes, ErrKeeps (reserve name bytes) growing) ∧
    (∀ name, ErrKeeps (release name) growing) ∧
    (∀ name newBytes, ErrKeeps (resize name newBytes) growing) ∧
    (∀ target reservation finalBytes,
      ErrKeeps (commitResize target reservation finalBytes) growing) ∧
    (∀ oldPrefix newPrefix, ErrKeeps (renamePrefix oldPrefix newPrefix) growing) ∧
    ∀ oldPrefix newPrefix names b', renamePrefix oldPrefix newPrefix growing = (.ok names, b') →
      Renamed growing b' oldPrefix newPrefix names :=
  errors_atomic growing_reachable

example : (commitResize "kv_cache" "kv_cache:growth" 700 growing).1 =
    .err (.insufficient "kv_cache" 700 600 1000 400) := by decide

end MemoryBudget
end Ramforge
