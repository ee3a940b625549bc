/-
Derived orders on map keys.

`#[derive(Ord)]` compares a key part by part.  Two parts that determine the key
make the order of a map lawful.
-/
import Mathlib.Tactic
import Std.Data.ExtTreeMap.Lemmas
import Ramforge.Rust.MapSum

namespace Rust

open Std

variable {α β γ : Type} [Ord β] [Ord γ]

/-- The order by `f`, then by `g`. -/
def orderBy (f : α → β) (g : α → γ) : α → α → Ordering := compareLex (compareOn f) (compareOn g)

instance [TransOrd β] [TransOrd γ] (f : α → β) (g : α → γ) : TransCmp (orderBy f g) :=
  inferInstanceAs (TransCmp (compareLex (compareOn f) (compareOn g)))

theorem orderBy_eq [LawfulEqOrd β] [LawfulEqOrd γ] {f : α → β} {g : α → γ} {a b : α}
    (h : orderBy f g a b = .eq) : f a = f b ∧ g a = g b := by
  obtain ⟨hf, hg⟩ := Ordering.then_eq_eq.mp h
  exact ⟨LawfulEqOrd.eq_of_compare hf, LawfulEqOrd.eq_of_compare hg⟩

/-- The order on pairs. -/
abbrev pairOrder : β × γ → β × γ → Ordering := orderBy Prod.fst Prod.snd

instance [TransOrd β] [TransOrd γ] [LawfulEqOrd β] [LawfulEqOrd γ] :
    LawfulEqCmp (pairOrder : β × γ → β × γ → Ordering) where
  eq_of_compare h := Prod.ext (orderBy_eq h).1 (orderBy_eq h).2

/-- A comparison that `sort_by` can use orders any two values. -/
theorem isLE_total (cmp : α → α → Ordering) [TransCmp cmp] (a b : α) :
    (cmp a b).isLE = true ∨ (cmp b a).isLE = true := by
  have hswap : cmp b a = (cmp a b).swap := OrientedCmp.eq_swap
  rw [hswap]
  cases cmp a b <;> simp

/-- `Iterator::max_by`: the last of the greatest elements. -/
def maxBy (cmp : α → α → Ordering) : List α → Option α
  | [] => none
  | a :: rest => some (rest.foldl (fun best b => if cmp best b = .gt then best else b) a)

section maxBy

variable {cmp : α → α → Ordering}

theorem maxBy_cons (a b : α) (rest : List α) :
    maxBy cmp (a :: b :: rest) = maxBy cmp ((if cmp a b = .gt then a else b) :: rest) := rfl

/-- What is found is in the list and no element is greater. -/
theorem of_maxBy [TransCmp cmp] {xs : List α} {m : α} (h : maxBy cmp xs = some m) :
    m ∈ xs ∧ ∀ a ∈ xs, (cmp a m).isLE := by
  cases xs with
  | nil => cases h
  | cons a rest =>
    induction rest generalizing a with
    | nil =>
      obtain rfl := Option.some.inj h
      have hrefl : cmp a a = .eq := ReflCmp.compare_self
      refine ⟨List.mem_singleton_self a, fun b hb => ?_⟩
      show (cmp b a).isLE = true
      rw [List.mem_singleton.mp hb, hrefl]
      rfl
    | cons b rest ih =>
      rw [maxBy_cons] at h
      obtain ⟨hmem, hle⟩ := ih _ h
      have hfirst := hle _ List.mem_cons_self
      rw [List.mem_cons] at hmem
      split at h
      next hgt =>
        rw [if_pos hgt] at hmem hfirst
        refine ⟨?_, List.forall_mem_cons.mpr ⟨hfirst, List.forall_mem_cons.mpr ⟨?_, ?_⟩⟩⟩
        · exact hmem.elim (fun heq => heq ▸ List.mem_cons_self)
            fun hmem => List.mem_cons_of_mem _ (List.mem_cons_of_mem _ hmem)
        · exact TransCmp.isLE_trans (Ordering.isLE_of_eq_lt (OrientedCmp.lt_of_gt hgt)) hfirst
        · exact fun c hc => hle c (List.mem_cons_of_mem _ hc)
      next hngt =>
        rw [if_neg hngt] at hmem hfirst
        refine ⟨?_, List.forall_mem_cons.mpr ⟨?_, List.forall_mem_cons.mpr ⟨hfirst, ?_⟩⟩⟩
        · exact List.mem_cons_of_mem _ (List.mem_cons.mpr hmem)
        · exact TransCmp.isLE_trans (Ordering.isLE_iff_ne_gt.mpr hngt) hfirst
        · exact fun c hc => hle c (List.mem_cons_of_mem _ hc)

theorem mem_of_maxBy [TransCmp cmp] {xs : List α} {m : α} (h : maxBy cmp xs = some m) : m ∈ xs :=
  (of_maxBy h).1

theorem maxBy_eq_none {xs : List α} : maxBy cmp xs = none ↔ xs = [] := by
  cases xs with
  | nil => exact ⟨fun _ => rfl, fun _ => rfl⟩
  | cons a rest => exact ⟨fun h => (by cases h), fun h => (by cases h)⟩

/-- Where no two elements tie, their order does not matter. -/
theorem maxBy_perm [TransCmp cmp] {xs ys : List α} (hperm : xs.Perm ys)
    (hties : ∀ a ∈ xs, ∀ b ∈ xs, cmp a b = .eq → a = b) : maxBy cmp xs = maxBy cmp ys := by
  cases hxs : maxBy cmp xs with
  | none =>
    rw [maxBy_eq_none.mp hxs, List.nil_perm] at hperm
    rw [hperm]
    rfl
  | some m =>
    cases hys : maxBy cmp ys with
    | none =>
      rw [maxBy_eq_none.mp hys, List.perm_nil] at hperm
      rw [hperm] at hxs
      cases hxs
    | some m' =>
      obtain ⟨hm, hle⟩ := of_maxBy hxs
      obtain ⟨hm', hle'⟩ := of_maxBy hys
      have heq := OrientedCmp.isLE_antisymm (hle' m (hperm.mem_iff.mp hm))
        (hle m' (hperm.mem_iff.mpr hm'))
      rw [hties m hm m' (hperm.mem_iff.mpr hm') heq]

end maxBy
end Rust

/-!
Moving entries of a finite map to new keys, one after another.

The moves are safe when the sources are distinct and present and the targets are
distinct and absent.  Then the order of the moves does not matter: each target
ends with the value its source had, each source that is not a target is gone, and
every other key is untouched.
-/

namespace Rust
namespace KeyMove

open Std MapSum

variable {α β : Type} {cmp : α → α → Ordering} [TransCmp cmp] [LawfulEqCmp cmp]

def moveKey (m : ExtTreeMap α β cmp) (source target : α) : ExtTreeMap α β cmp :=
  match m[source]? with
  | some v => (m.erase source).insert target v
  | none => m

def moveKeys : List (α × α) → ExtTreeMap α β cmp → ExtTreeMap α β cmp
  | [], m => m
  | (source, target) :: rest, m => moveKeys rest (moveKey m source target)

/-- Distinct present sources and distinct absent targets. -/
structure Movable (l : List (α × α)) (m : ExtTreeMap α β cmp) : Prop where
  sources : (l.map Prod.fst).Nodup
  targets : (l.map Prod.snd).Nodup
  present : ∀ p ∈ l, ∃ v, m[p.1]? = some v
  absent : ∀ p ∈ l, m[p.2]? = none

variable {m : ExtTreeMap α β cmp} {l : List (α × α)} {s t : α}

omit [LawfulEqCmp cmp] in
theorem Movable.ne (h : Movable l m) {p q : α × α} (hp : p ∈ l) (hq : q ∈ l) :
    p.1 ≠ q.2 := by
  intro e
  obtain ⟨v, hv⟩ := h.present p hp
  have hn := h.absent q hq
  rw [← e, hv] at hn
  cases hn

theorem getElem?_moveKey [DecidableEq α] {v : β} (h : m[s]? = some v) (a : α) :
    (moveKey m s t)[a]? = if a = t then some v else if a = s then none else m[a]? := by
  simp only [moveKey, h, getElem?_insert', getElem?_erase']

/-- One move leaves the remaining moves safe. -/
theorem Movable.tail (h : Movable ((s, t) :: l) m) : Movable l (moveKey m s t) := by
  classical
  obtain ⟨v, hv⟩ := h.present (s, t) List.mem_cons_self
  have hs := List.nodup_cons.mp h.sources
  have ht := List.nodup_cons.mp h.targets
  refine ⟨hs.2, ht.2, fun p hp => ?_, fun p hp => ?_⟩
  · have hps : p.1 ≠ s := fun e => hs.1 (List.mem_map.mpr ⟨p, hp, e⟩)
    have hpt : p.1 ≠ t := h.ne (q := (s, t)) (List.mem_cons_of_mem _ hp) List.mem_cons_self
    rw [getElem?_moveKey hv, if_neg hpt, if_neg hps]
    exact h.present p (List.mem_cons_of_mem _ hp)
  · have hpt : p.2 ≠ t := fun e => ht.1 (List.mem_map.mpr ⟨p, hp, e⟩)
    have hps : p.2 ≠ s := (h.ne (p := (s, t)) List.mem_cons_self (List.mem_cons_of_mem _ hp)).symm
    rw [getElem?_moveKey hv, if_neg hpt, if_neg hps]
    exact h.absent p (List.mem_cons_of_mem _ hp)

/-- A key that no move names keeps its entry. -/
theorem getElem?_moveKeys_of_notMem (h : Movable l m) {a : α} (hs : a ∉ l.map Prod.fst)
    (ht : a ∉ l.map Prod.snd) : (moveKeys l m)[a]? = m[a]? := by
  classical
  induction l generalizing m with
  | nil => rfl
  | cons p rest ih =>
    obtain ⟨s, t⟩ := p
    simp only [List.map_cons, List.mem_cons, not_or] at hs ht
    obtain ⟨v, hv⟩ := h.present (s, t) List.mem_cons_self
    rw [moveKeys, ih h.tail hs.2 ht.2, getElem?_moveKey hv, if_neg ht.1, if_neg hs.1]

/-- A target ends with the value of its source. -/
theorem getElem?_moveKeys_target (h : Movable l m) (hp : (s, t) ∈ l) :
    (moveKeys l m)[t]? = m[s]? := by
  classical
  induction l generalizing m with
  | nil => cases hp
  | cons q rest ih =>
    obtain ⟨s₀, t₀⟩ := q
    obtain ⟨v, hv⟩ := h.present (s₀, t₀) List.mem_cons_self
    rw [moveKeys]
    rcases List.mem_cons.mp hp with he | hp'
    · obtain ⟨rfl, rfl⟩ := Prod.mk.inj he
      have ht : t ∉ rest.map Prod.snd := (List.nodup_cons.mp h.targets).1
      have hs : t ∉ rest.map Prod.fst := by
        intro hm
        obtain ⟨q, hq, hqt⟩ := List.mem_map.mp hm
        exact h.ne (q := (s, t)) (List.mem_cons_of_mem _ hq) List.mem_cons_self hqt
      rw [getElem?_moveKeys_of_notMem h.tail hs ht, getElem?_moveKey hv, if_pos rfl, hv]
    · have hst : s ≠ t₀ := h.ne (q := (s₀, t₀)) hp List.mem_cons_self
      have hss : s ≠ s₀ := fun e =>
        (List.nodup_cons.mp h.sources).1 (List.mem_map.mpr ⟨_, hp', e⟩)
      rw [ih h.tail hp', getElem?_moveKey hv, if_neg hst, if_neg hss]

/-- A source is gone after the moves. -/
theorem getElem?_moveKeys_source (h : Movable l m) (hp : (s, t) ∈ l) :
    (moveKeys l m)[s]? = none := by
  classical
  induction l generalizing m with
  | nil => cases hp
  | cons q rest ih =>
    obtain ⟨s₀, t₀⟩ := q
    obtain ⟨v, hv⟩ := h.present (s₀, t₀) List.mem_cons_self
    rw [moveKeys]
    rcases List.mem_cons.mp hp with he | hp'
    · obtain ⟨rfl, rfl⟩ := Prod.mk.inj he
      have hs : s ∉ rest.map Prod.fst := (List.nodup_cons.mp h.sources).1
      have ht : s ∉ rest.map Prod.snd := by
        intro hm
        obtain ⟨q, hq, hqs⟩ := List.mem_map.mp hm
        exact h.ne (p := (s, t)) List.mem_cons_self (List.mem_cons_of_mem _ hq) hqs.symm
      have hst : s ≠ t := h.ne hp hp
      rw [getElem?_moveKeys_of_notMem h.tail hs ht, getElem?_moveKey hv, if_neg hst, if_pos rfl]
    · exact ih h.tail hp'

theorem sumOver_moveKey (w : β → Nat) {v : β} (hs : m[s]? = some v) (ht : m[t]? = none) :
    sumOver (fun _ => w) (moveKey m s t) = sumOver (fun _ => w) m := by
  classical
  have hne : (m.erase s)[t]? = none := by
    rw [getElem?_erase', ht, ite_self]
  rw [moveKey, hs]
  simp only
  rw [sumOver_insert_of_none _ hne, ← sumOver_of_some (fun _ => w) hs]

/-- A sum that looks only at the values is unchanged. -/
theorem sumOver_moveKeys (w : β → Nat) (h : Movable l m) :
    sumOver (fun _ => w) (moveKeys l m) = sumOver (fun _ => w) m := by
  induction l generalizing m with
  | nil => rfl
  | cons p rest ih =>
    obtain ⟨s, t⟩ := p
    obtain ⟨v, hv⟩ := h.present (s, t) List.mem_cons_self
    have ht := h.absent (s, t) List.mem_cons_self
    rw [moveKeys, ih h.tail, sumOver_moveKey w hv ht]

end KeyMove
end Rust
