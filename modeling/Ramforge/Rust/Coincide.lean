/-
Two runs that both return.

`Coincides V m m'` says that calls of `m` and `m'` from states related by `V` return the same
value, if both return, and leave states related by `V`.  The rules follow the two calls in step,
so the states may differ in all that `V` does not fix.
-/
import Ramforge.Rust.Ends

namespace Rust
namespace Exec

variable {σ τ κ κ' ε ε' α β : Type}

def Coincides (V : σ → σ → Prop) (m m' : Exec σ ε α) : Prop :=
  ∀ s s', V s s' → ∀ a t a' t', m s = (.ok a, t) → m' s' = (.ok a', t') → a = a' ∧ V t t'

/-- Both states satisfy `I`. -/
def Both (I : σ → Prop) (s s' : σ) : Prop := I s ∧ I s'

namespace Coincides

variable {V : σ → σ → Prop} {m m' : Exec σ ε α}

theorem pure (a : α) : Coincides V (pure a : Exec σ ε α) (pure a) := by
  intro s s' hs b t b' t' h h'
  cases h
  cases h'
  exact ⟨rfl, hs⟩

theorem throw (e e' : ε) : Coincides V (throw e : Exec σ ε α) (throw e') := by
  intro s s' _ b t b' t' h
  cases h

theorem panic (p : String) : Coincides V (panic p : Exec σ ε α) (panic p) := by
  intro s s' _ b t b' t' h
  cases h

theorem bind {k k' : α → Exec σ ε β} (hm : Coincides V m m') (hk : ∀ a, Coincides V (k a) (k' a)) :
    Coincides V (m >>= k) (m' >>= k') := by
  intro s s' hs b t b' t' h h'
  obtain ⟨a, u, hrun, h⟩ := of_bind_ok h
  obtain ⟨a', u', hrun', h'⟩ := of_bind_ok h'
  obtain ⟨rfl, hu⟩ := hm s s' hs a u a' u' hrun hrun'
  exact hk a u u' hu b t b' t' h h'

/-- A check that one state passes and the other one may not. -/
theorem failIf (c c' : Prop) [Decidable c] [Decidable c'] (e e' : ε) :
    Coincides V (failIf c e) (failIf c' e') := by
  intro s s' hs a t a' t' h h'
  obtain ⟨-, ht⟩ := of_failIf_ok h
  obtain ⟨-, ht'⟩ := of_failIf_ok h'
  rw [ht, ht']
  exact ⟨rfl, hs⟩

theorem okOr (o : Option α) (e e' : ε) : Coincides V (okOr o e) (okOr o e') := by
  cases o with
  | none => exact throw e e'
  | some a => exact pure a

/-- Two results, the same one if there are two. -/
theorem ofResults {r r' : Except ε α} (h : ∀ a a', r = .ok a → r' = .ok a' → a = a') :
    Coincides V (ofResult r) (ofResult r') := by
  intro s s' hs a t a' t' hrun hrun'
  obtain ⟨hr, ht⟩ := of_ofResult_ok hrun
  obtain ⟨hr', ht'⟩ := of_ofResult_ok hrun'
  rw [ht, ht']
  exact ⟨h a a' hr hr', hs⟩

theorem ofResult (r : Except ε α) : Coincides V (ofResult r) (ofResult r) :=
  ofResults fun _ _ h h' => Except.ok.inj (h.symm.trans h')

theorem expect (o : Option α) (p : String) : Coincides V (expect o p : Exec σ ε α) (expect o p) := by
  cases o with
  | none => exact panic p
  | some a => exact pure a

/-- A call that returns nothing of what it has seen. -/
theorem ofUnit {I : σ → Prop} {m m' : Exec σ ε Unit} (h : Keeps I m) (h' : Keeps I m') :
    Coincides (Both I) m m' := by
  intro s s' ⟨hs, hs'⟩ a t a' t' hrun hrun'
  have ht := h s hs
  have ht' := h' s' hs'
  rw [hrun] at ht
  rw [hrun'] at ht'
  exact ⟨rfl, ht, ht'⟩

/-- The states are read, and what follows may depend on them. -/
theorem self {k k' : σ → Exec σ ε β} (hk : ∀ s s', V s s' → Coincides V (k s) (k' s')) :
    Coincides V (Exec.self >>= k) (Exec.self >>= k') := fun s s' hs => hk s s' hs s s' hs

theorem modify {f f' : σ → σ} (h : ∀ s s', V s s' → V (f s) (f' s')) :
    Coincides V (modify f : Exec σ ε PUnit) (modify f') := by
  intro s s' hs a t a' t' hrun hrun'
  cases hrun
  cases hrun'
  exact ⟨rfl, h s s' hs⟩

theorem mapErr {n n' : Exec σ ε' α} (f f' : ε' → ε) (h : Coincides V n n') :
    Coincides V (mapErr f n) (mapErr f' n') := fun s s' hs a t a' t' hrun hrun' =>
  h s s' hs a t a' t' (of_mapErr_ok hrun) (of_mapErr_ok hrun')

theorem onLocal {b : κ} (n : Exec κ ε α) :
    Coincides V (onLocal b n : Exec σ ε (α × κ)) (onLocal b n) := by
  unfold Exec.onLocal
  intro s s' hs a t a' t' hrun hrun'
  rcases hn : n b with ⟨r | e | p, b'⟩ <;> simp only [hn] at hrun hrun'
  · cases hrun
    cases hrun'
    exact ⟨rfl, hs⟩
  · cases hrun
  · cases hrun

/-- A call on a part of the state. -/
theorem onPart {W : κ → κ → Prop} {get : σ → κ} {put : κ → σ → σ} {n n' : Exec κ ε α}
    (h : Coincides W n n') (hget : ∀ s s', V s s' → W (get s) (get s'))
    (hput : ∀ s s' c c', V s s' → W c c' → V (put c s) (put c' s')) :
    Coincides V (onPart get put n) (onPart get put n') := by
  intro s s' hs a t a' t' hrun hrun'
  rw [onPart_run] at hrun hrun'
  obtain ⟨hok, rfl⟩ := Prod.mk.inj hrun
  obtain ⟨hok', rfl⟩ := Prod.mk.inj hrun'
  obtain ⟨hvalue, hleft⟩ := h _ _ (hget s s' hs) a _ a' _ (Prod.ext hok rfl) (Prod.ext hok' rfl)
  exact ⟨hvalue, hput s s' _ _ hs hleft⟩

theorem onFst {J : κ → Prop} {n n' : Exec κ ε α} (h : Coincides (Both J) n n') :
    Coincides (Both fun s : κ × κ' => J s.1) (onFst n) (onFst n') := by
  intro s s' hs a t a' t' hrun hrun'
  obtain ⟨hn, -⟩ := of_onFst_ok hrun
  obtain ⟨hn', -⟩ := of_onFst_ok hrun'
  exact h s.1 s'.1 hs a t.1 a' t'.1 hn hn'

theorem foldlM {f f' : β → α → Exec σ ε β} (hf : ∀ b a, Coincides V (f b a) (f' b a)) (xs : List α)
    (b : β) : Coincides V (xs.foldlM f b) (xs.foldlM f' b) := by
  induction xs generalizing b with
  | nil => exact pure b
  | cons a rest ih =>
    rw [List.foldlM_cons, List.foldlM_cons]
    exact (hf b a).bind ih

theorem forBreak {round round' : Nat → β → Exec σ ε (RoundEnd β β)}
    (h : ∀ i b, Coincides V (round i b) (round' i b)) (n i : Nat) (b : β) :
    Coincides V (Exec.forBreak round n i b) (Exec.forBreak round' n i b) := by
  induction n generalizing i b with
  | zero => exact pure b
  | succ n ih =>
    refine (h i b).bind fun r => ?_
    cases r with
    | leave b' => exact pure b'
    | again b' => exact ih (i + 1) b'

theorem resume (o : Outcome ε α) : Coincides V (resume o) (resume o) := by
  cases o with
  | ok a => exact pure a
  | err e => exact throw e e
  | panic p => exact panic p

end Coincides

end Exec
end Rust
