/-
Reductions that join neighbours.

A partial rank of two neighbours says which are joined: the first of those with the least
rank, until no neighbours have one.
-/
import Mathlib.Tactic

namespace Rust
namespace PairReduction

variable {α β R : Type} [LinearOrder R]

/-! ## The first of the least ranks -/

/-- A rank at place `i` against the best rank so far and its place. -/
def keep (best : Option (R × Nat)) (rank : Option R) (i : Nat) : Option (R × Nat) :=
  match rank with
  | none => best
  | some rank =>
    match best with
    | none => some (rank, i)
    | some found => if rank < found.1 then some (rank, i) else some found

/-- A scan of the ranks at the first `n` places has come to `best`. -/
structure Scanned (ranks : Nat → Option R) (n : Nat) (best : Option (R × Nat)) : Prop where
  unranked : best = none → ∀ j < n, ranks j = none
  least : ∀ r i, best = some (r, i) → i < n ∧ ranks i = some r ∧
    ∀ j < n, ∀ s, ranks j = some s → r ≤ s ∧ (s = r → i ≤ j)

theorem Scanned.keep {ranks : Nat → Option R} {n : Nat} {best : Option (R × Nat)}
    (h : Scanned ranks n best) : Scanned ranks (n + 1) (keep best (ranks n) n) := by
  have hsplit : ∀ {j}, j < n + 1 → j < n ∨ j = n := Nat.lt_succ_iff_lt_or_eq.mp
  unfold PairReduction.keep
  split
  next hrank =>
    refine ⟨fun hnone j hj => ?_, fun r i hbest => ?_⟩
    · rcases hsplit hj with hj | rfl
      · exact h.unranked hnone j hj
      · exact hrank
    · obtain ⟨hi, hranked, hleast⟩ := h.least r i hbest
      refine ⟨by omega, hranked, fun j hj s hs => ?_⟩
      rcases hsplit hj with hj | rfl
      · exact hleast j hj s hs
      · rw [hrank] at hs
        cases hs
  next rank hrank =>
    split
    next =>
      refine ⟨fun hnone => (by cases hnone), fun r i hbest => ?_⟩
      cases hbest
      refine ⟨Nat.lt_succ_self n, hrank, fun j hj s hs => ?_⟩
      rcases hsplit hj with hj | rfl
      · rw [h.unranked rfl j hj] at hs
        cases hs
      · rw [hrank] at hs
        cases hs
        exact ⟨le_refl _, fun _ => Nat.le_refl _⟩
    next found =>
      obtain ⟨hi, hranked, hleast⟩ := h.least found.1 found.2 rfl
      split
      next hlt =>
        refine ⟨fun hnone => (by cases hnone), fun r i hbest => ?_⟩
        cases hbest
        refine ⟨Nat.lt_succ_self n, hrank, fun j hj s hs => ?_⟩
        rcases hsplit hj with hj | rfl
        · have hless := hlt.trans_le (hleast j hj s hs).1
          exact ⟨hless.le, fun heq => absurd heq hless.ne'⟩
        · rw [hrank] at hs
          cases hs
          exact ⟨le_refl _, fun _ => Nat.le_refl _⟩
      next hge =>
        refine ⟨fun hnone => (by cases hnone), fun r i hbest => ?_⟩
        cases hbest
        refine ⟨by omega, hranked, fun j hj s hs => ?_⟩
        rcases hsplit hj with hj | rfl
        · exact hleast j hj s hs
        · rw [hrank] at hs
          cases hs
          exact ⟨not_lt.mp hge, fun _ => hi.le⟩

theorem scanned_foldl (f : β → Option R) (l : List β) :
    Scanned (fun j => l[j]?.bind f) l.length
      (l.zipIdx.foldl (fun best entry => keep best (f entry.1) entry.2) none) := by
  have hfront : ∀ front back, l = front ++ back → Scanned (fun j => l[j]?.bind f) front.length
      (front.zipIdx.foldl (fun best entry => keep best (f entry.1) entry.2) none) := by
    intro front
    induction front using List.reverseRecOn with
    | nil =>
      exact fun _ _ => ⟨fun _ j hj => absurd hj (Nat.not_lt_zero j), fun _ _ hbest => (by cases hbest)⟩
    | append_singleton front a ih =>
      intro back hl
      rw [List.append_assoc] at hl
      have hget : l[front.length]?.bind f = f a := by
        rw [hl, List.getElem?_append_right (Nat.le_refl _), Nat.sub_self]
        rfl
      have hstep := (ih _ hl).keep
      rw [hget] at hstep
      rw [List.zipIdx_append, List.foldl_append, Nat.zero_add, List.length_append]
      exact hstep
  exact hfront l [] (List.append_nil l).symm

/-! ## Reductions -/

/-- The neighbours at a place have a rank. -/
def Ranked (rank : α → α → Option R) (xs : List α) (i : Nat) (r : R) : Prop :=
  ∃ a b, xs[i]? = some a ∧ xs[i + 1]? = some b ∧ rank a b = some r

/-- The first of the neighbours with the least rank. -/
structure Lowest (rank : α → α → Option R) (xs : List α) (i : Nat) (r : R) : Prop where
  ranked : Ranked rank xs i r
  le : ∀ j s, Ranked rank xs j s → r ≤ s
  first : ∀ j, Ranked rank xs j r → i ≤ j

/-- The first neighbours with the least rank are joined again and again. -/
inductive Reduces (rank : α → α → Option R) (join : α → α → α) : List α → List α → Prop where
  | done (xs : List α) (h : ∀ i r, ¬Ranked rank xs i r) : Reduces rank join xs xs
  | step (xs out : List α) (i : Nat) (r : R) (a b : α) (hlowest : Lowest rank xs i r)
    (ha : xs[i]? = some a) (hb : xs[i + 1]? = some b)
    (h : Reduces rank join (xs.take i ++ join a b :: xs.drop (i + 2)) out) : Reduces rank join xs out

variable {rank : α → α → Option R} {join : α → α → α} {xs out out' : List α}

theorem Lowest.unique {i j : Nat} {r s : R} (h : Lowest rank xs i r) (h' : Lowest rank xs j s) :
    i = j := by
  obtain rfl := le_antisymm (h.le j s h'.ranked) (h'.le i r h.ranked)
  exact Nat.le_antisymm (h.first j h'.ranked) (h'.first i h.ranked)

/-- A list is reduced to one list only. -/
theorem Reduces.unique (h : Reduces rank join xs out) (h' : Reduces rank join xs out') :
    out = out' := by
  induction h generalizing out' with
  | done xs hdone =>
    cases h' with
    | done => rfl
    | step _ _ i r _ _ hlowest => exact absurd hlowest.ranked (hdone i r)
  | step xs out i r a b hlowest ha hb h ih =>
    cases h' with
    | done _ hdone => exact absurd hlowest.ranked (hdone i r)
    | step _ _ j s a' b' hlowest' ha' hb' h' =>
      obtain rfl := hlowest.unique hlowest'
      obtain rfl := Option.some.inj (ha.symm.trans ha')
      obtain rfl := Option.some.inj (hb.symm.trans hb')
      exact ih h'

theorem Reduces.irreducible (h : Reduces rank join xs out) (i : Nat) (r : R) :
    ¬Ranked rank out i r := by
  induction h with
  | done xs hdone => exact hdone i r
  | step _ _ _ _ _ _ _ _ _ _ ih => exact ih

end PairReduction
end Rust
