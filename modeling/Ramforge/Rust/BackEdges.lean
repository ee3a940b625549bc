/-
Depth-first search that counts back edges.

The nodes are `0 .. n - 1`, and `deps` lists where the edges of a node lead; a target
that is not a node is skipped.  An edge to a node still being visited closes a
cycle, and the count is 0 exactly where no node reaches itself.
-/
import Mathlib.Tactic
import Mathlib.Logic.Relation

namespace Rust
namespace BackEdges

open Relation

inductive Mark where
  | unvisited
  | visiting
  | done
deriving DecidableEq, Repr

structure Search where
  marks : List Mark
  cycles : Nat
deriving DecidableEq, Repr

namespace Search

/-- `marks.get(node).copied().unwrap_or(Mark::Done)`. -/
def mark (s : Search) (node : Nat) : Mark := s.marks.getD node .done

def set (s : Search) (node : Nat) (m : Mark) : Search := { s with marks := s.marks.set node m }

/-- The nodes no visit has reached yet. -/
def left (s : Search) : Nat := s.marks.count .unvisited

@[simp] theorem set_cycles (s : Search) (node : Nat) (m : Mark) : (s.set node m).cycles = s.cycles := rfl

@[simp] theorem length_set (s : Search) (node : Nat) (m : Mark) :
    (s.set node m).marks.length = s.marks.length := List.length_set

theorem mark_set_self {s : Search} {node : Nat} {m : Mark} (h : node < s.marks.length) :
    (s.set node m).mark node = m := by
  simp [mark, set, h]

theorem mark_set_of_ne {s : Search} {node a : Nat} {m : Mark} (h : a ≠ node) :
    (s.set node m).mark a = s.mark a := by
  simp [mark, set, List.getElem?_set_ne h.symm]

theorem lt_of_mark_ne {s : Search} {node : Nat} (h : s.mark node ≠ .done) :
    node < s.marks.length := by
  by_contra hge
  exact h (by simp [mark, List.getElem?_eq_none (Nat.le_of_not_lt hge)])

theorem lt_of_mark {s : Search} {node : Nat} {m : Mark} (h : s.mark node = m) (hm : m ≠ .done) :
    node < s.marks.length := lt_of_mark_ne (by rwa [h])

theorem getElem_of_mark {s : Search} {node : Nat} {m : Mark} (h : node < s.marks.length)
    (hm : s.mark node = m) : s.marks[node] = m := by
  rw [← hm, mark, List.getD_eq_getElem?_getD, List.getElem?_eq_getElem h, Option.getD_some]

theorem left_set_lt {s : Search} {node : Nat} (h : s.mark node = .unvisited) {m : Mark}
    (hm : m ≠ .unvisited) : (s.set node m).left < s.left := by
  have hlt := lt_of_mark h (by decide)
  have hget := getElem_of_mark hlt h
  have hmem : Mark.unvisited ∈ s.marks := hget ▸ List.getElem_mem hlt
  have hpos := List.count_pos_iff.mpr hmem
  simp only [left, set, List.count_set hlt, hget, beq_self_eq_true, if_true, beq_iff_eq, if_neg hm]
  omega

theorem left_set_le {s : Search} {node : Nat} {m : Mark} (hm : m ≠ .unvisited) :
    (s.set node m).left ≤ s.left := by
  by_cases hlt : node < s.marks.length
  · simp only [left, set, List.count_set hlt, beq_iff_eq, if_neg hm]
    omega
  · rw [left, set, List.set_eq_of_length_le (Nat.le_of_not_lt hlt), left]

end Search

/-- One edge of the node being visited. -/
def examine (visit : Nat → Search → Search) (s : Search) (dependency : Nat) : Search :=
  match s.mark dependency with
  | .unvisited => visit dependency s
  | .visiting => { s with cycles := s.cycles + 1 }
  | .done => s

variable (deps : Nat → List Nat)

/-- The depth of the recursion is bounded by the nodes left. -/
def visit : Nat → Nat → Search → Search
  | 0, _, s => s
  | depth + 1, node, s =>
    ((deps node).foldl (examine (visit depth)) (s.set node .visiting)).set node .done

def visitNew (n : Nat) (s : Search) (node : Nat) : Search :=
  if s.mark node = .unvisited then visit deps n node s else s

def search (n : Nat) : Search :=
  (List.range n).foldl (visitNew deps n) { marks := List.replicate n .unvisited, cycles := 0 }

/-- The edges between nodes. -/
def Edge (n a b : Nat) : Prop := a < n ∧ b < n ∧ b ∈ deps a

def Cyclic (n : Nat) : Prop := ∃ a, TransGen (Edge deps n) a a

/-! ## What a visit keeps -/

/-- A finished node is below no infinite path while no cycle is counted, and a counted
cycle is one. -/
structure Sound (n : Nat) (s : Search) : Prop where
  length : s.marks.length = n
  finished : s.cycles = 0 → ∀ a < n, s.mark a = .done → Acc (Function.swap (Edge deps n)) a
  counted : s.cycles ≠ 0 → Cyclic deps n

/-- Marks never go back, and a call leaves the nodes that were being visited. -/
structure Grown (s s' : Search) : Prop where
  length : s'.marks.length = s.marks.length
  visiting : ∀ a, s'.mark a = .visiting ↔ s.mark a = .visiting
  done : ∀ a, s.mark a = .done → s'.mark a = .done
  cycles : s.cycles ≤ s'.cycles
  left : s'.left ≤ s.left

theorem Grown.refl (s : Search) : Grown s s :=
  ⟨rfl, fun _ => Iff.rfl, fun _ h => h, Nat.le_refl _, Nat.le_refl _⟩

theorem Grown.trans {s s' s'' : Search} (h : Grown s s') (h' : Grown s' s'') : Grown s s'' where
  length := h'.length.trans h.length
  visiting a := (h'.visiting a).trans (h.visiting a)
  done a ha := h'.done a (h.done a ha)
  cycles := Nat.le_trans h.cycles h'.cycles
  left := Nat.le_trans h'.left h.left

variable {deps} {n : Nat}

/-- Every node being visited reaches `node`. -/
def Stacked (deps : Nat → List Nat) (n : Nat) (s : Search) (node : Nat) : Prop :=
  ∀ a, s.mark a = .visiting → ReflTransGen (Edge deps n) a node

theorem Stacked.of_grown {s s' : Search} {node : Nat} (h : Stacked deps n s node)
    (hg : Grown s s') : Stacked deps n s' node := fun a ha => h a ((hg.visiting a).mp ha)

/-- What holds where a visit begins with the edges of its node. -/
theorem Sound.opened {node : Nat} {s : Search} (hs : Sound deps n s)
    (hm : s.mark node = .unvisited) (hstack : Stacked deps n s node) :
    Sound deps n (s.set node .visiting) ∧ (s.set node .visiting).mark node = .visiting ∧
      Stacked deps n (s.set node .visiting) node := by
  have hopen : (s.set node .visiting).mark node = .visiting :=
    Search.mark_set_self (Search.lt_of_mark hm (by decide))
  refine ⟨⟨by rw [Search.length_set, hs.length], fun hz a ha hd => ?_, hs.counted⟩, hopen,
    fun a ha => ?_⟩
  · have hne : a ≠ node := fun e => by rw [e, hopen] at hd; cases hd
    rw [Search.mark_set_of_ne hne] at hd
    exact hs.finished hz a ha hd
  · by_cases he : a = node
    · rw [he]
    · exact hstack a (by rwa [Search.mark_set_of_ne he] at ha)

/-- What `visit` promises of a node not visited before. -/
def Visits (deps : Nat → List Nat) (n depth : Nat) : Prop :=
  ∀ node s, Sound deps n s → s.mark node = .unvisited → Stacked deps n s node → s.left ≤ depth →
    Sound deps n (visit deps depth node s) ∧ Grown s (visit deps depth node s) ∧
      (visit deps depth node s).mark node = .done

theorem examine_spec {depth node d : Nat} {s : Search} (hv : Visits deps n depth)
    (hs : Sound deps n s) (hnode : s.mark node = .visiting) (hstack : Stacked deps n s node)
    (hleft : s.left ≤ depth) (hd : d ∈ deps node) :
    Sound deps n (examine (visit deps depth) s d) ∧ Grown s (examine (visit deps depth) s d) ∧
      ((examine (visit deps depth) s d).cycles = 0 →
        (examine (visit deps depth) s d).mark d = .done) := by
  have hlt : node < n := hs.length ▸ Search.lt_of_mark hnode (by decide)
  have hedge : d < n → Edge deps n node d := fun h => ⟨hlt, h, hd⟩
  rw [examine]
  cases hm : s.mark d with
  | unvisited =>
    have hdn : d < n := hs.length ▸ Search.lt_of_mark hm (by decide)
    have hdown : Stacked deps n s d := fun a ha => (hstack a ha).tail (hedge hdn)
    obtain ⟨hsound, hgrown, hdone⟩ := hv d s hs hm hdown hleft
    exact ⟨hsound, hgrown, fun _ => hdone⟩
  | visiting =>
    have hdn : d < n := hs.length ▸ Search.lt_of_mark hm (by decide)
    have hcycle : Cyclic deps n := ⟨node, TransGen.head' (hedge hdn) (hstack d hm)⟩
    exact ⟨⟨hs.length, fun h => absurd h (Nat.succ_ne_zero _), fun _ => hcycle⟩,
      ⟨rfl, fun _ => Iff.rfl, fun _ h => h, Nat.le_succ _, Nat.le_refl _⟩,
      fun h => absurd h (Nat.succ_ne_zero _)⟩
  | done => exact ⟨hs, Grown.refl s, fun _ => hm⟩

theorem foldl_examine_spec {depth node : Nat} (hv : Visits deps n depth) {ds : List Nat}
    (hds : ∀ d ∈ ds, d ∈ deps node) {s : Search} (hs : Sound deps n s)
    (hnode : s.mark node = .visiting) (hstack : Stacked deps n s node) (hleft : s.left ≤ depth) :
    Sound deps n (ds.foldl (examine (visit deps depth)) s) ∧
      Grown s (ds.foldl (examine (visit deps depth)) s) ∧
      ((ds.foldl (examine (visit deps depth)) s).cycles = 0 →
        ∀ d ∈ ds, (ds.foldl (examine (visit deps depth)) s).mark d = .done) := by
  induction ds generalizing s with
  | nil => exact ⟨hs, Grown.refl s, fun _ d hd => by cases hd⟩
  | cons d rest ih =>
    obtain ⟨hs', hg, hd⟩ := examine_spec hv hs hnode hstack hleft (hds d List.mem_cons_self)
    obtain ⟨hs'', hg', hrest⟩ := ih (fun a ha => hds a (List.mem_cons_of_mem _ ha)) hs'
      ((hg.visiting node).mpr hnode) (hstack.of_grown hg) (Nat.le_trans hg.left hleft)
    refine ⟨hs'', hg.trans hg', fun hzero a ha => ?_⟩
    rcases List.mem_cons.mp ha with rfl | ha
    · exact hg'.done a (hd (Nat.eq_zero_of_le_zero (hzero ▸ hg'.cycles)))
    · exact hrest hzero a ha

/-- The induction is on the depth: each call has one node fewer left. -/
theorem visits (deps : Nat → List Nat) (n depth : Nat) : Visits deps n depth := by
  induction depth with
  | zero =>
    intro node s _ hm _ hleft
    have := Search.left_set_lt hm (m := .done) (by decide)
    omega
  | succ depth ih =>
    intro node s hs hm hstack hleft
    have hlt := Search.lt_of_mark hm (by decide)
    obtain ⟨hopened, hopen, hstack'⟩ := hs.opened hm hstack
    have hleft' : (s.set node .visiting).left ≤ depth := by
      have := Search.left_set_lt hm (m := .visiting) (by decide)
      omega
    obtain ⟨hr, hg, hdeps⟩ := foldl_examine_spec ih (fun _ h => h) hopened hopen hstack' hleft'
    rw [visit]
    generalize (deps node).foldl (examine (visit deps depth)) (s.set node .visiting) = r at hr hg hdeps
    have hrlt : node < r.marks.length := by rw [hg.length, Search.length_set]; exact hlt
    have hclosed : (r.set node .done).mark node = .done := Search.mark_set_self hrlt
    refine ⟨⟨by rw [Search.length_set, hr.length], fun hz a ha hd => ?_, hr.counted⟩,
      ⟨by rw [Search.length_set, hg.length, Search.length_set], fun a => ?_, fun a ha => ?_,
        hg.cycles, ?_⟩, hclosed⟩
    · by_cases he : a = node
      · subst he
        exact Acc.intro _ fun b hb => hr.finished hz b hb.2.1 (hdeps hz b hb.2.2)
      · rw [Search.mark_set_of_ne he] at hd
        exact hr.finished hz a ha hd
    · by_cases he : a = node
      · subst he
        rw [hclosed, hm]
        simp
      · rw [Search.mark_set_of_ne he, hg.visiting, Search.mark_set_of_ne he]
    · have he : a ≠ node := fun e => by rw [e, hm] at ha; cases ha
      rw [Search.mark_set_of_ne he]
      exact hg.done a (by rwa [Search.mark_set_of_ne he])
    · exact Nat.le_trans (Search.left_set_le (by decide))
        (Nat.le_trans hg.left (Search.left_set_le (by decide)))

/-! ## The whole search -/

/-- Between two roots no node is being visited. -/
structure Rested (deps : Nat → List Nat) (n k : Nat) (s : Search) : Prop where
  sound : Sound deps n s
  idle : ∀ a, s.mark a ≠ .visiting
  done : ∀ a < k, s.mark a = .done

theorem visitNew_rested {k : Nat} {s : Search} (h : Rested deps n k s) :
    Rested deps n (k + 1) (visitNew deps n s k) := by
  rw [visitNew]
  split
  next hm =>
    have hleft : s.left ≤ n := h.sound.length ▸ List.count_le_length
    obtain ⟨hs, hg, hk⟩ := visits deps n n k s h.sound hm (fun a ha => absurd ha (h.idle a)) hleft
    refine ⟨hs, fun a ha => h.idle a ((hg.visiting a).mp ha), fun a ha => ?_⟩
    rcases Nat.lt_succ_iff_lt_or_eq.mp ha with hlt | rfl
    · exact hg.done a (h.done a hlt)
    · exact hk
  next hm =>
    refine ⟨h.sound, h.idle, fun a ha => ?_⟩
    rcases Nat.lt_succ_iff_lt_or_eq.mp ha with hlt | rfl
    · exact h.done a hlt
    · have := h.idle a
      cases hk : s.mark a <;> simp_all

theorem foldl_rested (deps : Nat → List Nat) (n k : Nat) (hk : k ≤ n) :
    Rested deps n k ((List.range k).foldl (visitNew deps n)
      { marks := List.replicate n .unvisited, cycles := 0 }) := by
  have hstart : Rested deps n 0 { marks := List.replicate n .unvisited, cycles := 0 } := by
    have hmark : ∀ a, Search.mark { marks := List.replicate n .unvisited, cycles := 0 } a =
        if a < n then .unvisited else .done := by
      intro a
      by_cases ha : a < n <;> simp [Search.mark, ha]
    refine ⟨⟨List.length_replicate, fun _ a ha hd => ?_, fun h => absurd rfl h⟩, fun a => ?_,
      fun a ha => absurd ha (Nat.not_lt_zero a)⟩
    · rw [hmark, if_pos ha] at hd
      cases hd
    · rw [hmark]
      split <;> decide
  induction k with
  | zero => exact hstart
  | succ k ih =>
    rw [List.range_succ, List.foldl_append]
    exact visitNew_rested (ih (Nat.le_of_succ_le hk))

theorem search_rested (deps : Nat → List Nat) (n : Nat) : Rested deps n n (search deps n) :=
  foldl_rested deps n n (Nat.le_refl n)

theorem search_cycles_eq_zero_iff (deps : Nat → List Nat) (n : Nat) :
    (search deps n).cycles = 0 ↔ ¬Cyclic deps n := by
  have h := search_rested deps n
  refine ⟨fun hz => ?_, fun hacyclic => ?_⟩
  · have hwf : WellFounded (Function.swap (Edge deps n)) := by
      refine ⟨fun a => ?_⟩
      by_cases ha : a < n
      · exact h.sound.finished hz a ha (h.done a ha)
      · exact Acc.intro _ fun b hb => absurd hb.1 ha
    rintro ⟨a, ha⟩
    exact hwf.transGen.irrefl.irrefl a (transGen_swap.mpr ha)
  · by_contra hne
    exact hacyclic (h.sound.counted hne)

/-! ## Termination

The recursion of the source has no bound of its own.  Here it is given a depth that it may
use up, and every depth from the number of nodes on gives the search above. -/

def examineIn (visit : Nat → Search → Option Search) (s : Search) (dependency : Nat) :
    Option Search :=
  match s.mark dependency with
  | .unvisited => visit dependency s
  | .visiting => some { s with cycles := s.cycles + 1 }
  | .done => some s

/-- `none` where the depth is used up, or where `marks[node]` is out of bounds. -/
def visitIn (deps : Nat → List Nat) : Nat → Nat → Search → Option Search
  | 0, _, _ => none
  | depth + 1, node, s =>
    if node < s.marks.length then
      ((deps node).foldlM (examineIn (visitIn deps depth)) (s.set node .visiting)).map
        fun r => r.set node .done
    else none

def visitNewIn (deps : Nat → List Nat) (depth : Nat) (s : Search) (node : Nat) : Option Search :=
  if s.mark node = .unvisited then visitIn deps depth node s else some s

def searchIn (deps : Nat → List Nat) (n depth : Nat) : Option Search :=
  (List.range n).foldlM (visitNewIn deps depth)
    { marks := List.replicate n .unvisited, cycles := 0 }

/-- A visit that is given depth enough ends, and as a visit of any other such depth does. -/
def Completes (deps : Nat → List Nat) (n depth : Nat) : Prop :=
  ∀ depth' node s, Sound deps n s → s.mark node = .unvisited → Stacked deps n s node →
    s.left ≤ depth → s.left ≤ depth' →
      visitIn deps depth node s = some (visit deps depth' node s)

theorem foldlM_examineIn {depth depth' node : Nat} (hc : Completes deps n depth) {ds : List Nat}
    (hds : ∀ d ∈ ds, d ∈ deps node) {s : Search} (hs : Sound deps n s)
    (hnode : s.mark node = .visiting) (hstack : Stacked deps n s node) (hleft : s.left ≤ depth)
    (hleft' : s.left ≤ depth') :
    ds.foldlM (examineIn (visitIn deps depth)) s =
      some (ds.foldl (examine (visit deps depth')) s) := by
  induction ds generalizing s with
  | nil => rfl
  | cons d rest ih =>
    have hd := hds d List.mem_cons_self
    have hstep : examineIn (visitIn deps depth) s d = some (examine (visit deps depth') s d) := by
      rw [examineIn, examine]
      cases hm : s.mark d with
      | unvisited =>
        have hdn : d < n := hs.length ▸ Search.lt_of_mark hm (by decide)
        have hlt : node < n := hs.length ▸ Search.lt_of_mark hnode (by decide)
        exact hc depth' d s hs hm (fun a ha => (hstack a ha).tail ⟨hlt, hdn, hd⟩) hleft hleft'
      | visiting => rfl
      | done => rfl
    obtain ⟨hs', hg, -⟩ := examine_spec (visits deps n depth') hs hnode hstack hleft' hd
    rw [List.foldlM_cons, hstep, List.foldl_cons]
    exact ih (fun a ha => hds a (List.mem_cons_of_mem _ ha)) hs' ((hg.visiting node).mpr hnode)
      (hstack.of_grown hg) (Nat.le_trans hg.left hleft) (Nat.le_trans hg.left hleft')

theorem completes (deps : Nat → List Nat) (n depth : Nat) : Completes deps n depth := by
  induction depth with
  | zero =>
    intro depth' node s _ hm _ hleft _
    have := Search.left_set_lt hm (m := .done) (by decide)
    omega
  | succ depth ih =>
    intro depth' node s hs hm hstack hleft hleft'
    have hdrop := Search.left_set_lt hm (m := .visiting) (by decide)
    obtain ⟨depth', rfl⟩ : ∃ k, depth' = k + 1 := ⟨depth' - 1, by omega⟩
    obtain ⟨hopened, hopen, hstack'⟩ := hs.opened hm hstack
    have hfold : (deps node).foldlM (examineIn (visitIn deps depth)) (s.set node .visiting) =
        some ((deps node).foldl (examine (visit deps depth')) (s.set node .visiting)) :=
      foldlM_examineIn ih (fun _ h => h) hopened hopen hstack' (by omega) (by omega)
    rw [visitIn, visit, if_pos (Search.lt_of_mark hm (by decide)), hfold, Option.map_some]

theorem visitNewIn_eq {depth k : Nat} {s : Search} (h : Rested deps n k s) (hdepth : n ≤ depth) :
    visitNewIn deps depth s k = some (visitNew deps n s k) := by
  have hleft : s.left ≤ n := h.sound.length ▸ List.count_le_length
  rw [visitNewIn, visitNew]
  split
  next hm =>
    exact completes deps n depth n k s h.sound hm (fun a ha => absurd ha (h.idle a))
      (Nat.le_trans hleft hdepth) hleft
  next => rfl

theorem searchIn_eq (deps : Nat → List Nat) {n depth : Nat} (hdepth : n ≤ depth) :
    searchIn deps n depth = some (search deps n) := by
  have hloop : ∀ k ≤ n, (List.range k).foldlM (visitNewIn deps depth)
      { marks := List.replicate n .unvisited, cycles := 0 } =
        some ((List.range k).foldl (visitNew deps n)
          { marks := List.replicate n .unvisited, cycles := 0 }) := by
    intro k
    induction k with
    | zero => exact fun _ => rfl
    | succ k ih =>
      intro hk
      have hrested := foldl_rested deps n k (Nat.le_of_succ_le hk)
      rw [List.range_succ, List.foldlM_append, ih (Nat.le_of_succ_le hk), List.foldl_append,
        Option.bind_eq_bind, Option.bind_some, List.foldlM_cons, visitNewIn_eq hrested hdepth]
      rfl
  exact hloop n (Nat.le_refl n)

/-! ## The count -/

/-- The edges out of the nodes that no visit has reached. -/
def ahead (deps : Nat → List Nat) (s : Search) : Nat :=
  ∑ a ∈ Finset.range s.marks.length, if s.mark a = .unvisited then (deps a).length else 0

theorem ahead_set_le {node : Nat} {m : Mark} (s : Search) (hm : m ≠ .unvisited) :
    ahead deps (s.set node m) ≤ ahead deps s := by
  rw [ahead, ahead, Search.length_set]
  refine Finset.sum_le_sum fun a ha => ?_
  by_cases he : a = node
  · subst he
    rw [Search.mark_set_self (Finset.mem_range.mp ha), if_neg hm]
    exact Nat.zero_le _
  · rw [Search.mark_set_of_ne he]

theorem ahead_set {node : Nat} {s : Search} {m : Mark} (h : s.mark node = .unvisited)
    (hm : m ≠ .unvisited) :
    ahead deps (s.set node m) + (deps node).length = ahead deps s := by
  have hmem : node ∈ Finset.range s.marks.length :=
    Finset.mem_range.mpr (Search.lt_of_mark h (by decide))
  have hrest : ∀ a ∈ (Finset.range s.marks.length).erase node,
      (s.set node m).mark a = s.mark a :=
    fun a ha => Search.mark_set_of_ne (Finset.ne_of_mem_erase ha)
  rw [ahead, ahead, Search.length_set, ← Finset.add_sum_erase _ _ hmem,
    ← Finset.add_sum_erase _ _ hmem, Search.mark_set_self (Finset.mem_range.mp hmem), if_neg hm,
    if_pos h, Finset.sum_congr rfl fun a ha => by rw [hrest a ha]]
  omega

/-- Every edge is counted once at most, and then its node is not ahead any more. -/
def weight (deps : Nat → List Nat) (s : Search) : Nat := s.cycles + ahead deps s

theorem weight_visit (depth : Nat) {node : Nat} {s : Search} (h : s.mark node = .unvisited) :
    weight deps (visit deps depth node s) ≤ weight deps s := by
  induction depth generalizing node s with
  | zero => exact Nat.le_refl _
  | succ depth ih =>
    have hexamine : ∀ (r : Search) (d : Nat),
        weight deps (examine (visit deps depth) r d) ≤ weight deps r + 1 := by
      intro r d
      rw [examine]
      cases hm : r.mark d with
      | unvisited => exact Nat.le_succ_of_le (ih hm)
      | visiting =>
        show r.cycles + 1 + ahead deps r ≤ r.cycles + ahead deps r + 1
        omega
      | done => exact Nat.le_succ _
    have hfold : ∀ (ds : List Nat) (r : Search),
        weight deps (ds.foldl (examine (visit deps depth)) r) ≤ weight deps r + ds.length := by
      intro ds
      induction ds with
      | nil => exact fun r => Nat.le_refl _
      | cons d rest ihds =>
        intro r
        have h1 := hexamine r d
        have h2 := ihds (examine (visit deps depth) r d)
        rw [List.foldl_cons, List.length_cons]
        omega
    have hopen : ahead deps (s.set node .visiting) + (deps node).length = ahead deps s :=
      ahead_set h (by decide)
    have hds := hfold (deps node) (s.set node .visiting)
    rw [visit]
    have hclose : ahead deps
        (((deps node).foldl (examine (visit deps depth)) (s.set node .visiting)).set node .done) ≤
          ahead deps ((deps node).foldl (examine (visit deps depth)) (s.set node .visiting)) :=
      ahead_set_le _ (by decide)
    simp only [weight, Search.set_cycles] at hds ⊢
    omega

theorem search_cycles_le (deps : Nat → List Nat) (n : Nat) :
    (search deps n).cycles ≤ ∑ a ∈ Finset.range n, (deps a).length := by
  have hstep : ∀ (nodes : List Nat) (s : Search),
      weight deps (nodes.foldl (visitNew deps n) s) ≤ weight deps s := by
    intro nodes
    induction nodes with
    | nil => exact fun s => Nat.le_refl _
    | cons node rest ih =>
      intro s
      refine Nat.le_trans (ih _) ?_
      rw [visitNew]
      split
      next h => exact weight_visit n h
      next => exact Nat.le_refl _
  have hstart : ahead deps { marks := List.replicate n .unvisited, cycles := 0 } =
      ∑ a ∈ Finset.range n, (deps a).length := by
    rw [ahead, List.length_replicate]
    refine Finset.sum_congr rfl fun a ha => if_pos ?_
    simp [Search.mark, Finset.mem_range.mp ha]
  have hall := hstep (List.range n) { marks := List.replicate n .unvisited, cycles := 0 }
  rw [weight, weight, hstart] at hall
  exact Nat.le_trans (Nat.le_add_right _ _) (Nat.le_trans hall (by simp))

end BackEdges
end Rust
