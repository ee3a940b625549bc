/-
What a call leaves of the charges that are not its own.

`Apart own b b'` compares two budgets outside the names `own`.  A temporary scope adds one
name to those its body may touch, and gives it back.
-/
import Ramforge.Core.MemoryPrefix

namespace Ramforge
namespace MemoryBudget

open Rust Rust.Exec

variable {κ ε α : Type} {own : String → Prop} {b b' : MemoryBudget} {name : String} {bytes : Nat}

/-- The charges outside `own` are those of `b`. -/
structure Apart (own : String → Prop) (b b' : MemoryBudget) : Prop where
  accounted : Accounted b'
  get_eq : ∀ name, ¬own name → b'.get name = b.get name

theorem Apart.refl (h : Accounted b) : Apart own b b := ⟨h, fun _ _ => rfl⟩

theorem Apart.trans {b'' : MemoryBudget} (h : Apart own b b') (h' : Apart own b' b'') :
    Apart own b b'' :=
  ⟨h'.accounted, fun name hname => (h'.get_eq name hname).trans (h.get_eq name hname)⟩

theorem Outside.apart {pre : String} (h : Outside pre b b') :
    Apart (fun name => Text.startsWith name pre = true) b b' :=
  ⟨h.accounted, fun name hname => h.get_eq name (Bool.eq_false_iff.mpr hname)⟩

theorem accounted_charge (h : Accounted b) (hpos : 0 < bytes) (hnone : b.get name = none)
    (hfit : b.used + bytes ≤ b.total) : Accounted (b.charge name bytes) :=
  (Step.charge hpos hnone hfit).accounted h

theorem accounted_discharge (h : Accounted b) (hget : b.get name = some bytes) :
    Accounted (b.discharge name bytes) := by
  have hstep := release_step h name
  rw [release_run h, hget] at hstep
  exact hstep.accounted h

theorem keeps_isSome_resize (other name : String) (bytes : Nat) :
    Keeps (fun b => Accounted b ∧ (b.get other).isSome) (resize name bytes) := by
  intro b ⟨hacc, hsome⟩
  refine ⟨(resize_step hacc name bytes).accounted hacc, ?_⟩
  by_cases he : other = name
  · rw [he] at hsome ⊢
    rw [resize_run hacc]
    obtain ⟨old, hold⟩ := Option.isSome_iff_exists.mp hsome
    rw [hold]
    simp only
    split_ifs
    · exact hsome
    · show ((b.allocations.insert name bytes)[name]?).isSome
      rw [MapSum.getElem?_insert', if_pos rfl]
      rfl
    · exact hsome
  · rw [resize_get hacc he]
    exact hsome

/-- The rule of a temporary scope: its body starts with the charge, and ends with one of the
same name, which is then given back. -/
theorem ends_withTemp {ofMemory : MemoryError → ε} {f : Exec (κ × MemoryBudget) ε α}
    {s : κ × MemoryBudget} {Q : α → κ × MemoryBudget → Prop} {E : ε → κ × MemoryBudget → Prop}
    {P : String → κ × MemoryBudget → Prop} (h : Accounted s.2) (hpos : 0 < bytes)
    (hrefused : ∀ error, E (ofMemory error) s)
    (hbody : s.2.get name = none → Accounted (s.2.charge name bytes) →
      Ends f (s.1, s.2.charge name bytes)
        (fun a t => Accounted t.2 ∧ ∃ n, t.2.get name = some n ∧ Q a (t.1, t.2.discharge name n))
        (fun e t => Accounted t.2 ∧ ∃ n, t.2.get name = some n ∧ E e (t.1, t.2.discharge name n))
        fun p t => (∀ p t, P p t) ∨
          Accounted t.2 ∧ ∃ n, t.2.get name = some n ∧ P p (t.1, t.2.discharge name n)) :
    Ends (withTemp ofMemory name bytes f) s Q E P := by
  have hrun := allocate_run h name bytes
  rw [withTemp, if_neg (Nat.ne_of_gt hpos), ends_bind, ends_mapErr, ends_onSnd]
  rw [if_neg (Nat.ne_of_gt hpos)] at hrun
  by_cases hold : (s.2.get name).isSome
  · rw [if_pos hold] at hrun
    exact (ends_of_err hrun).mpr (hrefused _)
  rw [if_neg hold] at hrun
  by_cases hfit : s.2.used + bytes ≤ s.2.total
  · rw [if_pos hfit] at hrun
    have hnone : s.2.get name = none := Option.not_isSome_iff_eq_none.mp hold
    refine (ends_of_ok hrun).mpr (ends_bind.mpr ((ends_catchUnwind f).mpr ?_))
    refine (hbody hnone (accounted_charge h hpos hnone hfit)).mono ?_ ?_ ?_
    · rintro a t ⟨hacc, n, hget, ht⟩
      have hrelease := release_run hacc name
      rw [hget] at hrelease
      exact ends_bind.mpr ((ends_attempt _).mpr (ends_onSnd.mpr ((ends_of_ok hrelease).mpr ht)))
    · rintro e t ⟨hacc, n, hget, ht⟩
      have hrelease := release_run hacc name
      rw [hget] at hrelease
      exact ends_bind.mpr ((ends_attempt _).mpr (ends_onSnd.mpr ((ends_of_ok hrelease).mpr ht)))
    · intro p t hp
      refine ends_bind.mpr ((ends_attempt _).mpr (ends_onSnd.mpr ?_))
      rcases hp with hall | ⟨hacc, n, hget, ht⟩
      · unfold Ends
        rcases release name t.2 with ⟨_ | _ | _, _⟩ <;> exact hall _ _
      · have hrelease := release_run hacc name
        rw [hget] at hrelease
        exact (ends_of_ok hrelease).mpr ht
  · rw [if_neg hfit] at hrun
    exact (ends_of_err hrun).mpr (hrefused _)

/-! ## Calls that leave every charge -/

/-- A call on a part of the state and the budget leaves the names outside `own` alone. -/
def Sparing (own : String → Prop) (m : Exec (κ × MemoryBudget) ε α) : Prop :=
  ∀ b, Keeps (fun s => Apart own b s.2) m

namespace Sparing

theorem onFst (m : Exec κ ε α) : Sparing own (Exec.onFst m : Exec (κ × MemoryBudget) ε α) :=
  fun _ _ hs => hs

/-- A temporary charge is gone when the scope ends. -/
theorem withTemp {ofMemory : MemoryError → ε} {f : Exec (κ × MemoryBudget) ε α}
    (hf : Sparing own f) (hname : ¬own name) (bytes : Nat) :
    Sparing own (withTemp ofMemory name bytes f) := by
  intro b s hs
  by_cases hzero : bytes = 0
  · rw [hzero, Call.withTemp_zero]
    exact hf b s hs
  refine Ends.state (I := fun s => Apart own b s.2)
    (ends_withTemp hs.accounted (Nat.pos_of_ne_zero hzero) (fun _ => hs) fun hnone hcharged => ?_)
  have hgiven : ∀ t : κ × MemoryBudget, Apart own (s.2.charge name bytes) t.2 → Accounted t.2 ∧
      ∃ n, t.2.get name = some n ∧ Apart own b (t.2.discharge name n) := by
    intro t ht
    have hget : t.2.get name = some bytes := by
      rw [ht.get_eq name hname, get_charge, if_pos rfl]
    refine ⟨ht.accounted, bytes, hget, accounted_discharge ht.accounted hget, fun other hother => ?_⟩
    rw [get_discharge, ← hs.get_eq other hother]
    by_cases heq : other = name
    · rw [if_pos heq, heq, hnone]
    · rw [if_neg heq, ht.get_eq other hother, get_charge, if_neg heq]
  exact ((hf _).ends (.refl hcharged)).mono (fun _ => hgiven) (fun _ => hgiven)
    fun _ t ht => .inr (hgiven t ht)

end Sparing
end MemoryBudget
end Ramforge

/-!
The charges of an owner.

An owner charges names that were free, and touches no others.  What it has charged is given
back by its names, in any order.
-/

namespace Ramforge
namespace MemoryBudget

open Rust Rust.Exec

variable {b b' : MemoryBudget} {names : List String} {name : String} {bytes : Nat}

/-- `b'` is `b` with charges under `names`, which were free. -/
structure Holds (names : List String) (b b' : MemoryBudget) : Prop where
  accounted : Accounted b'
  nodup : names.Nodup
  fresh : ∀ name ∈ names, b.get name = none
  held : ∀ name ∈ names, (b'.get name).isSome
  get_eq : ∀ name, name ∉ names → b'.get name = b.get name

namespace Holds

theorem refl (h : Accounted b) : Holds [] b b := by
  refine ⟨h, List.nodup_nil, ?_, ?_, fun _ _ => rfl⟩ <;> simp

theorem charge (h : Holds names b b') (hpos : 0 < bytes) (hnone : b'.get name = none)
    (hfit : b'.used + bytes ≤ b'.total) : Holds (names ++ [name]) b (b'.charge name bytes) := by
  have hnew : name ∉ names := fun hmem => by
    have hsome := h.held name hmem
    rw [hnone] at hsome
    cases hsome
  refine ⟨accounted_charge h.accounted hpos hnone hfit, ?_, fun other hother => ?_,
    fun other hother => ?_, fun other hother => ?_⟩
  · exact List.nodup_append.mpr ⟨h.nodup, List.nodup_singleton name, by simp; grind⟩
  · by_cases he : other = name
    · rw [he, ← h.get_eq name hnew, hnone]
    · apply h.fresh
      simpa [he] using hother
  · rw [get_charge]
    split
    next => rfl
    next he =>
      apply h.held
      simpa [he] using hother
  · simp only [List.mem_append, List.mem_singleton, not_or] at hother
    rw [get_charge, if_neg hother.2, h.get_eq other hother.1]

/-- A charge of the owner has another size. -/
theorem resize (h : Holds names b b') (hmem : name ∈ names) (newBytes : Nat) :
    Holds names b (resize name newBytes b').2 := by
  refine ⟨(resize_step h.accounted _ _).accounted h.accounted, h.nodup, h.fresh, fun other hother => ?_,
    fun other hother => ?_⟩
  · exact (keeps_isSome_resize other name newBytes b' ⟨h.accounted, h.held other hother⟩).2
  · rw [resize_get h.accounted (ne_of_mem_of_not_mem hmem hother).symm, h.get_eq other hother]

theorem discharge (h : Holds (names ++ [name]) b b') (hget : b'.get name = some bytes) :
    Holds names b (b'.discharge name bytes) := by
  obtain ⟨hnodup, -, hdisjoint⟩ := List.nodup_append.mp h.nodup
  have hne : ∀ other ∈ names, other ≠ name := fun other hother =>
    hdisjoint other hother name (List.mem_singleton_self name)
  refine ⟨accounted_discharge h.accounted hget, hnodup,
    fun other hother => h.fresh other (List.mem_append_left _ hother), fun other hother => ?_,
    fun other hother => ?_⟩
  · rw [get_discharge, if_neg (hne other hother)]
    exact h.held other (List.mem_append_left _ hother)
  · rw [get_discharge]
    split
    next he => rw [he, h.fresh name (by simp)]
    next he => exact h.get_eq other (by simp [hother, he])

/-- Without its names the owner leaves what it has found. -/
theorem dischargeAll (h : Holds names b b') {released : List String} (hperm : released.Perm names) :
    Accounted (MemoryBudget.dischargeAll released b') ∧
      (MemoryBudget.dischargeAll released b').allocations = b.allocations := by
  refine ⟨dischargeAll_accounted h.accounted (hperm.nodup_iff.mpr h.nodup) fun other hother =>
    h.held other (hperm.mem_iff.mp hother), Std.ExtTreeMap.ext_getElem? fun other => ?_⟩
  show (MemoryBudget.dischargeAll released b').get other = b.get other
  rw [get_dischargeAll]
  split
  next hmem => rw [h.fresh other (hperm.mem_iff.mp hmem)]
  next hmem => exact h.get_eq other fun hin => hmem (hperm.mem_iff.mpr hin)

end Holds
end MemoryBudget
end Ramforge
