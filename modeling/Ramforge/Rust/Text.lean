/-
Prefix operations on `String`.

Rust tests and cuts prefixes on UTF-8 bytes.  A valid UTF-8 prefix of a valid
UTF-8 string ends on a character boundary, so the same operations on characters
give the same answers.
-/
import Mathlib.Tactic

namespace Rust
namespace Text

/-- `s.starts_with(p)`. -/
def startsWith (s p : String) : Bool := p.toList.isPrefixOf s.toList

/-- `s.ends_with(p)`. -/
def endsWith (s p : String) : Bool := p.toList.isSuffixOf s.toList

/-- `&s[p.len()..]`, for a `p` that `s` starts with. -/
def dropLen (s p : String) : String := String.ofList (s.toList.drop p.toList.length)

theorem startsWith_iff {s p : String} : startsWith s p = true ↔ p.toList <+: s.toList :=
  List.isPrefixOf_iff_prefix

theorem startsWith_append (p t : String) : startsWith (p ++ t) p = true := by
  rw [startsWith_iff, String.toList_append]
  exact List.prefix_append _ _

theorem dropLen_append (p t : String) : dropLen (p ++ t) p = t := by
  rw [dropLen, String.toList_append, List.drop_left, String.ofList_toList]

theorem append_dropLen {s p : String} (h : startsWith s p = true) : p ++ dropLen s p = s := by
  obtain ⟨t, ht⟩ := startsWith_iff.mp h
  have hs : s = p ++ String.ofList t := by
    rw [← String.toList_inj, String.toList_append, String.toList_ofList, ht]
  rw [hs, dropLen_append]

theorem append_left_inj {p s t : String} : p ++ s = p ++ t ↔ s = t := by
  rw [← String.toList_inj, String.toList_append, String.toList_append, List.append_cancel_left_eq,
    String.toList_inj]

/-- Two prefixes of one string are prefixes of each other. -/
theorem startsWith_or {s p q : String} (hp : startsWith s p = true)
    (hq : startsWith s q = true) : startsWith p q = true ∨ startsWith q p = true := by
  rw [startsWith_iff] at hp hq
  rw [startsWith_iff, startsWith_iff]
  rcases Nat.le_total p.toList.length q.toList.length with hle | hle
  · exact .inr (List.prefix_of_prefix_length_le hp hq hle)
  · exact .inl (List.prefix_of_prefix_length_le hq hp hle)

theorem startsWith_trans {s p q : String} (hp : startsWith s p = true)
    (hq : startsWith p q = true) : startsWith s q = true := by
  rw [startsWith_iff] at *
  exact hq.trans hp

/-! ## Numbered names: `pre ++ n ++ c` with a closing character that is no digit -/

variable {c : Char} {m n : Nat}

theorem notMem_repr (hc : c.isDigit = false) : c ∉ (Nat.repr n).toList := by
  intro hmem
  rw [Nat.toList_repr] at hmem
  have := Nat.isDigit_of_mem_toDigits (by omega) (by omega) hmem
  rw [hc] at this
  cases this

/-- A closed word that starts another word closed by the same character is that word. -/
theorem eq_of_closed_prefix {l m : List Char} (h : l ++ [c] <+: m ++ [c]) (hc : c ∉ m) : l = m := by
  obtain ⟨t, ht⟩ := h
  rcases List.eq_nil_or_concat t with rfl | ⟨t, x, rfl⟩
  · rw [List.append_nil] at ht
    exact List.append_cancel_right ht
  · rw [List.concat_eq_append, ← List.append_assoc] at ht
    have hm := (List.append_inj' ht rfl).1
    rw [← hm] at hc
    simp at hc

theorem repr_injective (h : Nat.repr m = Nat.repr n) : m = n := by
  have hdigits := congrArg (fun s => Nat.ofDigitChars 10 s.toList 0) h
  simpa [Nat.toList_repr] using hdigits

theorem numbered_startsWith {pre close : String} (hclose : close.toList = [c])
    (hc : c.isDigit = false)
    (h : startsWith (pre ++ toString m ++ close) (pre ++ toString n ++ close) = true) : n = m := by
  rw [startsWith_iff] at h
  simp only [String.toList_append, hclose, List.append_assoc, List.prefix_append_right_inj] at h
  have hrepr := eq_of_closed_prefix h (notMem_repr hc)
  exact repr_injective (String.toList_inj.mp hrepr)

/-- One string does not start with two differently numbered names. -/
theorem numbered_unique {s pre close : String} (hclose : close.toList = [c])
    (hc : c.isDigit = false) (hm : startsWith s (pre ++ toString m ++ close) = true)
    (hn : startsWith s (pre ++ toString n ++ close) = true) : m = n := by
  rcases startsWith_or hm hn with h | h
  · exact (numbered_startsWith hclose hc h).symm
  · exact numbered_startsWith hclose hc h

end Text
end Rust

/-!
Paths of a step relation, with the states they go through.
-/

namespace Rust

/-- `Path R s l t`: from `s` by steps of `R` through the states `l`, the last of
which is `t`. -/
inductive Path {σ : Type} (R : σ → σ → Prop) : σ → List σ → σ → Prop where
  | nil (s : σ) : Path R s [] s
  | cons {s s' t : σ} {l : List σ} (step : R s s') (rest : Path R s' l t) : Path R s (s' :: l) t

namespace Path

variable {σ τ : Type} {R : σ → σ → Prop} {I : σ → Prop} {s t u : σ} {l l' : List σ}

theorem single (h : R s t) : Path R s [t] t := .cons h (.nil t)

theorem append (h : Path R s l t) (h' : Path R t l' u) : Path R s (l ++ l') u := by
  induction h with
  | nil => exact h'
  | cons step _ ih => exact .cons step (ih h')

/-- What every step preserves holds in every state of a path. -/
theorem invariant (h : Path R s l t) (hstep : ∀ a b, R a b → I a → I b) (hs : I s) :
    ∀ x ∈ s :: l, I x := by
  induction h with
  | nil => intro x hx; rw [List.mem_singleton.mp hx]; exact hs
  | cons step _ ih =>
    intro x hx
    rcases List.mem_cons.mp hx with rfl | hx
    · exact hs
    · exact ih (hstep _ _ step hs) x hx

theorem getLast?_eq (h : Path R s l t) : (s :: l).getLast? = some t := by
  induction h with
  | nil => rfl
  | cons _ _ ih => rw [List.getLast?_cons_cons]; exact ih

theorem last_mem (h : Path R s l t) : t ∈ s :: l := List.mem_of_getLast? h.getLast?_eq

theorem map {R' : τ → τ → Prop} (f : σ → τ) (h : Path R s l t)
    (hR : ∀ a b, R a b → R' (f a) (f b)) : Path R' (f s) (l.map f) (f t) := by
  induction h with
  | nil => exact .nil _
  | cons step _ ih => exact .cons (hR _ _ step) ih

/-- A counter that each step raises to the larger of itself and the new level is,
at every state, the greatest level so far. -/
theorem isGreatest_level (level peak : σ → Nat) (h : Path R s l t)
    (hstep : ∀ a b, R a b → I a → I b ∧ peak b = max (peak a) (level b))
    (hs : I s) {m : Nat} (hm : peak s = max m (level s)) {pre post : List σ} {x : σ}
    (hx : s :: l = pre ++ x :: post) :
    IsGreatest (insert m {v | ∃ y ∈ pre ++ [x], level y = v}) (peak x) := by
  induction h generalizing pre m with
  | nil s =>
    obtain ⟨rfl, rfl, rfl⟩ : pre = [] ∧ x = s ∧ post = [] := by
      cases pre with
      | nil => simp at hx; exact ⟨rfl, hx.1.symm, hx.2⟩
      | cons a pre => simp at hx
    constructor
    · rcases Nat.le_total m (level x) with hle | hle
      · exact .inr ⟨x, by simp, by omega⟩
      · exact .inl (by omega)
    · rintro v (rfl | ⟨y, hy, rfl⟩)
      · omega
      · obtain rfl : y = x := by simpa using hy
        omega
  | @cons s s' t l step _ ih =>
    cases pre with
    | nil =>
      obtain ⟨rfl, -⟩ : s = x ∧ _ := by simpa using hx
      constructor
      · rcases Nat.le_total m (level s) with hle | hle
        · exact .inr ⟨s, by simp, by omega⟩
        · exact .inl (by omega)
      · rintro v (rfl | ⟨y, hy, rfl⟩)
        · omega
        · obtain rfl : y = s := by simpa using hy
          omega
    | cons a pre =>
      obtain ⟨rfl, hx'⟩ : s = a ∧ s' :: l = pre ++ x :: post := by simpa using hx
      obtain ⟨hI, hp⟩ := hstep _ _ step hs
      -- The levels before `s'` are summed up in the peak reached at `s`.
      have hg := ih hI hp hx'
      have hin : peak s = m ∨ peak s = level s := by
        rcases Nat.le_total m (level s) with hle | hle
        · right; omega
        · left; omega
      constructor
      · rcases hg.1 with he | ⟨y, hy, he⟩
        · rcases hin with hi | hi
          · exact .inl (he.trans hi)
          · exact .inr ⟨s, by simp, (he.trans hi).symm⟩
        · exact .inr ⟨y, by simp at hy ⊢; tauto, he⟩
      · have hpeak : peak s ≤ peak x := hg.2 (.inl rfl)
        rintro v (rfl | ⟨y, hy, rfl⟩)
        · omega
        · rcases List.mem_cons.mp hy with rfl | hy
          · omega
          · exact hg.2 (.inr ⟨y, hy, rfl⟩)

end Path
end Rust
