/-
Loops over the items of a list, and loops whose items are taken up in any order.

The rounds of a parallel loop write different places, or the same value to a
place that several of them write, so a round may be taken as one step and the
order of the rounds is arbitrary.
-/
import Ramforge.Rust.Buffer

namespace Rust

/-- The order in which a pool takes up the items of a parallel iterator. -/
structure Schedule where
  order : Nat → List Nat
  perm : ∀ n, (order n).Perm (List.range n)

namespace Schedule

def inOrder : Schedule := ⟨List.range, fun _ => List.Perm.refl _⟩

def reversed : Schedule := ⟨fun n => (List.range n).reverse, fun _ => List.reverse_perm _⟩

/-- A list in the order of the schedule. -/
def arrange {α : Type} (s : Schedule) (items : List α) : List α :=
  (s.order items.length).filterMap fun i => items[i]?

theorem filterMap_range {α : Type} (items : List α) :
    ((List.range items.length).filterMap fun i => items[i]?) = items := by
  induction items with
  | nil => rfl
  | cons a as ih =>
    rw [List.length_cons, List.range_succ_eq_map, List.filterMap_cons, List.filterMap_map]
    simpa [Function.comp_def] using ih

theorem arrange_perm {α : Type} (s : Schedule) (items : List α) : (s.arrange items).Perm items := by
  have hperm := (s.perm items.length).filterMap fun i => items[i]?
  rw [filterMap_range] at hperm
  exact hperm

theorem arrange_reversed {α : Type} (items : List α) : reversed.arrange items = items.reverse := by
  show (List.range items.length).reverse.filterMap _ = _
  rw [List.filterMap_reverse, filterMap_range]

theorem mem_arrange {α : Type} {s : Schedule} {items : List α} {a : α} :
    a ∈ s.arrange items ↔ a ∈ items :=
  (s.arrange_perm items).mem_iff

end Schedule

namespace Exec

variable {σ ε α R : Type}

/-- `for a in items { .. }`. -/
def forEach (items : List α) (f : α → Exec σ ε Unit) : Exec σ ε Unit :=
  items.foldlM (fun _ a => f a) ()

theorem forEach_cons (a : α) (as : List α) (f : α → Exec σ ε Unit) :
    forEach (a :: as) f = f a >>= fun _ => forEach as f := rfl

/-- A loop whose every round fails where it starts, if there is a round. -/
theorem forEach_err {items : List α} {f : α → Exec σ ε Unit} {s : σ} (hitems : items ≠ [])
    (h : ∀ a ∈ items, ∃ e, f a s = (.err e, s)) : ∃ e, forEach items f s = (.err e, s) := by
  cases items with
  | nil => exact absurd rfl hitems
  | cons a as =>
    obtain ⟨e, herr⟩ := h a List.mem_cons_self
    exact ⟨e, bind_of_err herr⟩

/-- A loop whose rounds write into a buffer.  Round `a` writes the places
`touches a`, and what it writes to place `k` is `v k`. -/
theorem forEach_write {items : List α} {f : α → Exec (List R) ε Unit} {touches : α → Nat → Prop}
    {v : Nat → R} {n : Nat} (h : ∀ a ∈ items, ∀ ys : List R, ys.length = n → ∃ ys',
      f a ys = (.ok (), ys') ∧ ys'.length = n ∧
        ∀ k < n, (touches a k → ys'[k]? = some (v k)) ∧ (¬touches a k → ys'[k]? = ys[k]?))
    {xs : List R} (hlen : xs.length = n) : ∃ ys,
      forEach items f xs = (.ok (), ys) ∧ ys.length = n ∧
        ∀ k < n, ((∃ a ∈ items, touches a k) → ys[k]? = some (v k)) ∧
          ((¬∃ a ∈ items, touches a k) → ys[k]? = xs[k]?) := by
  induction items generalizing xs with
  | nil =>
    refine ⟨xs, rfl, hlen, fun k _ => ⟨?_, fun _ => rfl⟩⟩
    rintro ⟨a, ha, -⟩
    cases ha
  | cons a as ih =>
    obtain ⟨ys, hrun, hys, hfirst⟩ := h a List.mem_cons_self xs hlen
    obtain ⟨zs, hrest, hzs, hlast⟩ := ih (fun b hb => h b (List.mem_cons_of_mem a hb)) hys
    refine ⟨zs, ?_, hzs, fun k hk => ⟨?_, ?_⟩⟩
    · rw [forEach_cons, bind_of_ok hrun]
      exact hrest
    · rintro ⟨b, hb, htouch⟩
      by_cases hlater : ∃ c ∈ as, touches c k
      · exact (hlast k hk).1 hlater
      · rcases List.mem_cons.mp hb with rfl | hmem
        · rw [(hlast k hk).2 hlater]
          exact (hfirst k hk).1 htouch
        · exact absurd ⟨b, hmem, htouch⟩ hlater
    · intro hnone
      rw [(hlast k hk).2 fun ⟨c, hc, htouch⟩ => hnone ⟨c, List.mem_cons_of_mem a hc, htouch⟩]
      exact (hfirst k hk).2 fun htouch => hnone ⟨a, List.mem_cons_self, htouch⟩

/-- Such a loop with a round for every place. -/
theorem forEach_fill {items : List α} {f : α → Exec (List R) ε Unit} {touches : α → Nat → Prop}
    {v : Nat → R} {n : Nat} (h : ∀ a ∈ items, ∀ ys : List R, ys.length = n → ∃ ys',
      f a ys = (.ok (), ys') ∧ ys'.length = n ∧
        ∀ k < n, (touches a k → ys'[k]? = some (v k)) ∧ (¬touches a k → ys'[k]? = ys[k]?))
    (hcover : ∀ k < n, ∃ a ∈ items, touches a k) {xs : List R} (hlen : xs.length = n) :
    forEach items f xs = (.ok (), (List.range n).map v) := by
  obtain ⟨ys, hrun, hys, hplaces⟩ := forEach_write h hlen
  have hvalues : ys = (List.range n).map v := by
    apply List.ext_getElem?
    intro k
    rcases Nat.lt_or_ge k n with hk | hk
    · rw [(hplaces k hk).1 (hcover k hk)]
      simp [hk]
    · rw [List.getElem?_eq_none (by omega), List.getElem?_eq_none (by simpa using hk)]
  rw [hrun, hvalues]

end Exec
end Rust
