/-
Consecutive intervals: a list whose element `a` takes the places from `lo a` up
to `hi a`, each where the one before it ended.
-/
import Mathlib.Tactic

namespace Rust

variable {α : Type}

/-- The intervals of the list take the places from `start` up to `stop`. -/
inductive Tiles (lo hi : α → Nat) : Nat → List α → Nat → Prop where
  | nil (start : Nat) : Tiles lo hi start [] start
  | cons {start : Nat} {a : α} {as : List α} {stop : Nat} :
    lo a = start → start ≤ hi a → Tiles lo hi (hi a) as stop → Tiles lo hi start (a :: as) stop

namespace Tiles

variable {lo hi : α → Nat} {start stop x : Nat} {as : List α} {a : α}

theorem le (h : Tiles lo hi start as stop) : start ≤ stop := by
  induction h with
  | nil => exact Nat.le_refl _
  | cons _ hle _ ih => exact Nat.le_trans hle ih

theorem bounds (h : Tiles lo hi start as stop) (ha : a ∈ as) : start ≤ lo a ∧ hi a ≤ stop := by
  induction h with
  | nil => cases ha
  | cons hstart hle htail ih =>
    rcases List.mem_cons.mp ha with rfl | hmem
    · exact ⟨Nat.le_of_eq hstart.symm, htail.le⟩
    · obtain ⟨hlo, hhi⟩ := ih hmem
      exact ⟨Nat.le_trans hle hlo, hhi⟩

theorem concat {mid : Nat} (h : Tiles lo hi start as mid) (hlo : lo a = mid) (hle : mid ≤ hi a) :
    Tiles lo hi start (as ++ [a]) (hi a) := by
  induction h with
  | nil => exact cons hlo hle (nil _)
  | cons hstart hle' _ ih => exact cons hstart hle' (ih hlo hle)

theorem hi_last (h : Tiles lo hi start (as ++ [a]) stop) : hi a = stop := by
  induction as generalizing start with
  | nil =>
    cases h with
    | cons _ _ htail =>
      cases htail
      rfl
  | cons b bs ih =>
    cases h with
    | cons _ _ htail => exact ih htail

theorem exists_mem (h : Tiles lo hi start as stop) (hlo : start ≤ x) (hhi : x < stop) :
    ∃ a ∈ as, lo a ≤ x ∧ x < hi a := by
  induction h with
  | nil => omega
  | @cons start b bs stop hstart hle htail ih =>
    rcases Nat.lt_or_ge x (hi b) with hlt | hge
    · exact ⟨b, List.mem_cons_self, by omega, hlt⟩
    · obtain ⟨a, ha, hbounds⟩ := ih hge hhi
      exact ⟨a, List.mem_cons_of_mem b ha, hbounds⟩

/-- The places of the intervals, one interval after another. -/
theorem flatMap_range' (h : Tiles lo hi start as stop) :
    (as.flatMap fun a => List.range' (lo a) (hi a - lo a)) = List.range' start (stop - start) := by
  induction h with
  | nil => simp
  | @cons start b bs stop hstart hle htail ih =>
    have hstop := htail.le
    have hlen : stop - start = (hi b - start) + (stop - hi b) := by omega
    have hmid : start + (hi b - start) = hi b := by omega
    rw [List.flatMap_cons, ih, hstart, hlen, ← List.range'_append_1, hmid]

/-- A place lies in one interval, so a search for the place finds that interval. -/
theorem find?_eq (h : Tiles lo hi start as stop) (ha : a ∈ as) (hlo : lo a ≤ x)
    (hhi : x < hi a) : as.find? (fun b => decide (lo b ≤ x ∧ x < hi b)) = some a := by
  induction h with
  | nil => cases ha
  | @cons start b bs stop hstart hle htail ih =>
    rcases List.mem_cons.mp ha with rfl | hmem
    · exact List.find?_cons_of_pos (decide_eq_true ⟨hlo, hhi⟩)
    · have hpast : ¬(lo b ≤ x ∧ x < hi b) := by
        have := (htail.bounds hmem).1
        omega
      rw [List.find?_cons_of_neg (by simpa using hpast)]
      exact ih hmem

theorem pairwise (h : Tiles lo hi start as stop) : as.Pairwise fun a b => hi a ≤ lo b := by
  induction h with
  | nil => exact List.Pairwise.nil
  | cons _ _ htail ih => exact List.pairwise_cons.mpr ⟨fun b hb => (htail.bounds hb).1, ih⟩

theorem sum_add (h : Tiles lo hi start as stop) :
    start + (as.map fun a => hi a - lo a).sum = stop := by
  induction h with
  | nil => rfl
  | cons hstart hle _ ih =>
    rw [List.map_cons, List.sum_cons]
    omega

theorem of_map {β : Type} {g : β → α} {bs : List β} (h : Tiles lo hi start (bs.map g) stop) :
    Tiles (fun b => lo (g b)) (fun b => hi (g b)) start bs stop := by
  induction bs generalizing start with
  | nil =>
    cases h
    exact nil _
  | cons b bs ih =>
    cases h with
    | cons hstart hle htail => exact cons hstart hle (ih htail)

end Tiles
end Rust
