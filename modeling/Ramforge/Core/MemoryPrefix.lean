/-
Calls whose charges are all under one prefix.

Seen from the other names such a call leaves the budget as it was, whichever way it ends,
and so its charges can be given back by the prefix alone.
-/
import Ramforge.Core.MemoryBatch
import Ramforge.Core.MemoryFrame
import Ramforge.Rust.Ends

namespace Ramforge
namespace MemoryBudget

open Rust Rust.Exec

variable {κ ε α : Type} {pre name : String} {b b' : MemoryBudget}

/-- The charges that are not under the prefix are those of `b`. -/
structure Outside (pre : String) (b b' : MemoryBudget) : Prop where
  accounted : Accounted b'
  get_eq : ∀ name, Text.startsWith name pre = false → b'.get name = b.get name

theorem Outside.refl (h : Accounted b) : Outside pre b b := ⟨h, fun _ _ => rfl⟩

/-- A call on a part of the state and the budget leaves the names outside the prefix alone. -/
def Confined (pre : String) (m : Exec (κ × MemoryBudget) ε α) : Prop :=
  ∀ b, Keeps (fun s => Outside pre b s.2) m

namespace Confined

theorem bind {β : Type} {m : Exec (κ × MemoryBudget) ε α} {k : α → Exec (κ × MemoryBudget) ε β}
    (hm : Confined pre m) (hk : ∀ a, Confined pre (k a)) : Confined pre (m >>= k) :=
  fun b => (hm b).bind fun a => hk a b

theorem pure (a : α) : Confined pre (pure a : Exec (κ × MemoryBudget) ε α) := fun _ => .pure a

theorem self : Confined pre (Exec.self : Exec (κ × MemoryBudget) ε (κ × MemoryBudget)) :=
  fun _ => .self

theorem failIf (c : Prop) [Decidable c] (e : ε) :
    Confined pre (Exec.failIf c e : Exec (κ × MemoryBudget) ε Unit) := fun _ => .failIf c e

theorem okOr (o : Option α) (e : ε) : Confined pre (Exec.okOr o e : Exec (κ × MemoryBudget) ε α) :=
  fun _ => .okOr o e

theorem ofResult (r : Except ε α) : Confined pre (Exec.ofResult r : Exec (κ × MemoryBudget) ε α) :=
  fun _ => .ofResult r

theorem resume (o : Outcome ε α) : Confined pre (Exec.resume o : Exec (κ × MemoryBudget) ε α) :=
  fun _ => .resume o

theorem mapErr {ε' : Type} {m : Exec (κ × MemoryBudget) ε α} (hm : Confined pre m) (f : ε → ε') :
    Confined pre (Exec.mapErr f m) := fun b => (hm b).mapErr f

theorem foldlM {β : Type} {f : β → α → Exec (κ × MemoryBudget) ε β}
    (hf : ∀ b a, Confined pre (f b a)) (xs : List α) (b : β) : Confined pre (xs.foldlM f b) :=
  fun b₀ => .foldlM (fun b a => hf b a b₀) xs b

theorem forM {f : α → Exec (κ × MemoryBudget) ε PUnit} (hf : ∀ a, Confined pre (f a))
    (xs : List α) : Confined pre (xs.forM f) := fun b => .forM (fun a => hf a b) xs

/-- A call that does not see the budget. -/
theorem onFst (m : Exec κ ε α) : Confined pre (Exec.onFst m : Exec (κ × MemoryBudget) ε α) :=
  fun _ _ hs => hs

/-- A budget call that acts on one name under the prefix. -/
theorem onName {m : Exec MemoryBudget ε α} (hname : Text.startsWith name pre = true)
    (hstep : ∀ b, Accounted b → Step b (m b).2)
    (hget : ∀ b other, Accounted b → other ≠ name → (m b).2.get other = b.get other) :
    Confined pre (Exec.onSnd m : Exec (κ × MemoryBudget) ε α) := by
  refine fun b => Keeps.onSnd fun b' hb' => ⟨(hstep b' hb'.accounted).accounted hb'.accounted, ?_⟩
  intro other hother
  have hne : other ≠ name := fun he => by
    rw [he, hname] at hother
    cases hother
  rw [hget b' other hb'.accounted hne, hb'.get_eq other hother]

theorem allocate (hname : Text.startsWith name pre = true) (bytes : Nat) :
    Confined pre (Exec.onSnd (MemoryBudget.allocate name bytes) :
      Exec (κ × MemoryBudget) MemoryError Unit) :=
  onName hname (fun _ hb => allocate_step hb _ _) fun _ _ hb hne => allocate_get hb hne _

theorem resize (hname : Text.startsWith name pre = true) (newBytes : Nat) :
    Confined pre (Exec.onSnd (MemoryBudget.resize name newBytes) :
      Exec (κ × MemoryBudget) MemoryError Nat) :=
  onName hname (fun _ hb => resize_step hb _ _) fun _ _ hb hne => resize_get hb hne _

/-- A temporary charge is outside the prefix, and it is gone when the scope ends. -/
theorem withTemp {ofMemory : MemoryError → ε} {f : Exec (κ × MemoryBudget) ε α}
    (hname : Text.startsWith name pre = false) (hf : Confined pre f) (bytes : Nat) :
    Confined pre (MemoryBudget.withTemp ofMemory name bytes f) := by
  intro b s hs
  by_cases hzero : bytes = 0
  · rw [hzero, Call.withTemp_zero]
    exact hf b s hs
  have hrun := allocate_run hs.accounted name bytes
  rw [if_neg hzero] at hrun
  rw [Call.withTemp_snd _ _ hzero, Call.entered]
  by_cases hold : (s.2.get name).isSome
  · rw [if_pos hold] at hrun
    rw [hrun]
    exact hs
  rw [if_neg hold] at hrun
  by_cases hfit : s.2.used + bytes ≤ s.2.total
  · rw [if_pos hfit] at hrun
    rw [hrun]
    have hnone : s.2.get name = none := Option.not_isSome_iff_eq_none.mp hold
    have hcharged : Accounted (s.2.charge name bytes) :=
      (Step.charge (Nat.pos_of_ne_zero hzero) hnone hfit).accounted hs.accounted
    -- What the closure leaves is compared with the budget in which its own charge is live.
    have hbody := hf (s.2.charge name bytes) (s.1, s.2.charge name bytes) (.refl hcharged)
    have hget : (f (s.1, s.2.charge name bytes)).2.2.get name = some bytes := by
      rw [hbody.get_eq name hname, get_charge, if_pos rfl]
    refine ⟨(release_step hbody.accounted name).accounted hbody.accounted, fun other hother => ?_⟩
    show (release name (f (s.1, s.2.charge name bytes)).2.2).2.get other = b.get other
    rw [release_run hbody.accounted, hget]
    show ((f (s.1, s.2.charge name bytes)).2.2.discharge name bytes).get other = b.get other
    rw [get_discharge, ← hs.get_eq other hother]
    by_cases heq : other = name
    · rw [if_pos heq, heq, hnone]
    · rw [if_neg heq, hbody.get_eq other hother, get_charge, if_neg heq]
  · rw [if_neg hfit] at hrun
    rw [hrun]
    exact hs

end Confined

/-! ## Giving the charges back -/

theorem get_dischargeUnder (b : MemoryBudget) (pre name : String) :
    (dischargeAll (b.namesUnder pre) b).get name =
      if Text.startsWith name pre then none else b.get name := by
  rw [get_dischargeAll]
  by_cases hpre : Text.startsWith name pre
  · rw [if_pos hpre]
    split
    next => rfl
    next hmem =>
      have hnot : ¬(b.get name).isSome := fun h => hmem (mem_namesUnder.mpr ⟨h, hpre⟩)
      exact Option.not_isSome_iff_eq_none.mp hnot
  · rw [if_neg hpre, if_neg fun hmem => hpre (mem_namesUnder.mp hmem).2]

/-- After a confined call and its cleanup the charges are as they were if and only if none
of them was under the prefix. -/
theorem Outside.cleanup_eq_iff (h : Outside pre b b') :
    (dischargeAll (b'.namesUnder pre) b').allocations = b.allocations ↔ b.namesUnder pre = [] := by
  constructor
  · intro heq
    refine List.eq_nil_iff_forall_not_mem.mpr fun name hmem => ?_
    obtain ⟨hsome, hpre⟩ := mem_namesUnder.mp hmem
    have hget : (dischargeAll (b'.namesUnder pre) b').get name = b.get name := by
      rw [MemoryBudget.get, heq]
      rfl
    rw [get_dischargeUnder, if_pos hpre] at hget
    rw [← hget] at hsome
    cases hsome
  · intro hnil
    refine Std.ExtTreeMap.ext_getElem? fun name => ?_
    show (dischargeAll (b'.namesUnder pre) b').get name = b.get name
    rw [get_dischargeUnder]
    by_cases hpre : Text.startsWith name pre
    · have hnone : ¬(b.get name).isSome := fun hsome => by
        have hmem := mem_namesUnder.mpr ⟨hsome, hpre⟩
        rw [hnil] at hmem
        cases hmem
      rw [if_pos hpre, Option.not_isSome_iff_eq_none.mp hnone]
    · rw [if_neg hpre, h.get_eq name (Bool.eq_false_iff.mpr hpre)]

end MemoryBudget
end Ramforge
