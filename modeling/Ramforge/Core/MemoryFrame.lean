/-
The frame of a budget call: charges under names it does not name stay.

Two parts of a program share a budget by keeping to disjoint names.  A call that
avoids a prefix leaves every charge under that prefix as it was.
-/
import Ramforge.Core.MemoryRun

namespace Ramforge

open Rust Rust.Exec Rust.MapSum Rust.KeyMove

namespace MemoryBudget

variable {b : MemoryBudget} {name target reservation other : String}

theorem allocate_get (h : Accounted b) (hne : other ≠ name) (bytes : Nat) :
    (allocate name bytes b).2.get other = b.get other := by
  rw [allocate_run h]
  split_ifs
  · rfl
  · rfl
  · rw [get_charge, if_neg hne]
  · rfl

theorem release_get (h : Accounted b) (hne : other ≠ name) :
    (release name b).2.get other = b.get other := by
  rw [release_run h]
  cases b.get name with
  | none => rfl
  | some bytes =>
    show (b.discharge name bytes).get other = b.get other
    rw [get_discharge, if_neg hne]

theorem resize_get (h : Accounted b) (hne : other ≠ name) (newBytes : Nat) :
    (resize name newBytes b).2.get other = b.get other := by
  rw [resize_run h]
  split_ifs
  · rfl
  · cases b.get name with
    | none => rfl
    | some oldBytes =>
      simp only
      split_ifs
      · show (b.allocations.insert name newBytes)[other]? = b.get other
        rw [getElem?_insert', if_neg hne]
        rfl
      · rfl

theorem commitResize_get (h : Accounted b) (ht : other ≠ target) (hr : other ≠ reservation)
    (finalBytes : Nat) :
    (commitResize target reservation finalBytes b).2.get other = b.get other := by
  rw [commitResize_run h]
  split_ifs
  · rfl
  · rfl
  · cases b.get target with
    | none => rfl
    | some oldBytes =>
      cases b.get reservation with
      | none => rfl
      | some reservedBytes =>
        simp only
        split_ifs
        · rfl
        · show (((b.allocations.erase target).erase reservation).insert target
            finalBytes)[other]? = b.get other
          rw [getElem?_insert', getElem?_erase', getElem?_erase', if_neg ht, if_neg hr, if_neg ht]
          rfl
        · rfl

theorem renamePrefix_get {oldPrefix newPrefix : String}
    (h : ∀ p ∈ b.renames oldPrefix newPrefix, other ≠ p.1 ∧ other ≠ p.2) :
    (renamePrefix oldPrefix newPrefix b).2.get other = b.get other := by
  rw [renamePrefix_run]
  split_ifs
  · rfl
  · cases hf : (b.renames oldPrefix newPrefix).find? (fun p => b.allocations.contains p.2) with
    | some p => rfl
    | none =>
      have hm := movable_renames (absent_of_find?_eq_none hf)
      refine getElem?_moveKeys_of_notMem hm (fun hs => ?_) (fun ht => ?_)
      · obtain ⟨p, hp, he⟩ := List.mem_map.mp hs
        exact (h p hp).1 he.symm
      · obtain ⟨p, hp, he⟩ := List.mem_map.mp ht
        exact (h p hp).2 he.symm

end MemoryBudget

namespace Call

variable {ι κ : Type} (other : ι → Exec (κ × MemoryBudget) String Unit)

/-- The names a call acts on in a given budget.  The charge of a temporary scope
is a call of its own. -/
def names : Call ι → MemoryBudget → List String
  | .other _, _ => []
  | .allocate name _, _ => [name]
  | .reserve name _, _ => [name]
  | .release name, _ => [name]
  | .resize name _, _ => [name]
  | .commitResize target reservation _, _ => [target, reservation]
  | .renamePrefix oldPrefix newPrefix, b =>
    (b.renames oldPrefix newPrefix).flatMap fun p => [p.1, p.2]
  | .withTemp .., _ => []

/-- A call that acts on no name under `pre`. -/
def Avoids (pre : String) (c : Call ι) (s : κ × MemoryBudget) : Prop :=
  ∀ name ∈ c.names s.2, Text.startsWith name pre = false

instance (pre : String) (c : Call ι) (s : κ × MemoryBudget) : Decidable (Avoids pre c s) :=
  inferInstanceAs (Decidable (∀ name ∈ c.names s.2, Text.startsWith name pre = false))

variable {s t : κ × MemoryBudget}

theorem run_get {c : Call ι} (hc : c.IsPrimitive) (ho : ∀ i, c ≠ .other i)
    (hs : s.2.Accounted) {name : String} (hn : name ∉ c.names s.2) :
    (run other c s).2.2.get name = s.2.get name := by
  cases c with
  | other i => exact absurd rfl (ho i)
  | withTemp name bytes body finish => cases hc
  | allocate n bytes =>
    rw [run, onBudget_snd]
    exact MemoryBudget.allocate_get hs (by simpa [names] using hn) bytes
  | reserve n bytes =>
    rw [run, onBudget_snd]
    exact MemoryBudget.allocate_get hs (by simpa [names] using hn) bytes
  | release n =>
    rw [run, onBudget_snd]
    exact MemoryBudget.release_get hs (by simpa [names] using hn)
  | resize n newBytes =>
    rw [run, onBudget_snd]
    exact MemoryBudget.resize_get hs (by simpa [names] using hn) newBytes
  | commitResize t r finalBytes =>
    have hne : name ≠ t ∧ name ≠ r := by simpa [names] using hn
    rw [run, onBudget_snd]
    exact MemoryBudget.commitResize_get hs hne.1 hne.2 finalBytes
  | renamePrefix oldPrefix newPrefix =>
    rw [run, onBudget_snd]
    refine MemoryBudget.renamePrefix_get fun p hp => ?_
    have hp' : ¬ (name = p.1 ∨ name = p.2) := fun he =>
      hn (List.mem_flatMap.mpr ⟨p, hp, by simpa using he⟩)
    exact not_or.mp hp'

/-- A budget call that avoids a prefix, seen by the owner of that prefix: its
state and its charges stay, and the accounting still holds. -/
theorem Atom.frame {pre : String} (h : Atom other (Avoids pre) s t) (hs : s.2.Accounted) :
    (∃ i, t = (other i s).2) ∨
      (t.1 = s.1 ∧ t.2.Accounted ∧ t.2.total = s.2.total ∧
        ∀ name, Text.startsWith name pre = true → t.2.get name = s.2.get name) := by
  rcases h.step other hs with ⟨i, -, ht⟩ | ⟨hfst, hstep⟩
  · exact .inl ⟨i, ht⟩
  obtain ⟨c, hp, hc⟩ := h
  by_cases ho : ∀ i, c ≠ .other i
  · refine .inr ⟨hfst, hstep.accounted hs, hstep.total_eq, fun name hname => ?_⟩
    apply run_get other hc ho hs
    intro hin
    rw [hp name hin] at hname
    cases hname
  · obtain ⟨i, hi⟩ := not_forall.mp ho
    obtain rfl : c = .other i := not_not.mp hi
    exact .inl ⟨i, by rw [run]⟩

end Call
end Ramforge
