/-
Calls that keep an invariant, without a panic or unless they panic.
-/
import Ramforge.Rust.Call
import Ramforge.Rust.Ends

namespace Rust
namespace Outcome

variable {ε ε' α β : Type}

theorem Total.mapErr {m : Outcome ε α} (h : Total m) (f : ε → ε') : Total (m.mapErr f) := by
  cases m with
  | ok a => exact total_ok a
  | err e => exact total_err _
  | panic p => exact absurd rfl (h p)

theorem total_mapM {f : α → Outcome ε β} {xs : List α} (h : ∀ x ∈ xs, Total (f x)) :
    Total (xs.mapM f) := by
  induction xs with
  | nil => exact total_ok []
  | cons x rest ih =>
    rw [List.mapM_cons]
    exact (h x List.mem_cons_self).bind fun _ =>
      (ih fun y hy => h y (List.mem_cons_of_mem _ hy)).bind fun _ => total_ok _

theorem total_foldlM {f : β → α → Outcome ε β} {xs : List α} (h : ∀ x ∈ xs, ∀ b, Total (f b x))
    (b : β) : Total (xs.foldlM f b) := by
  induction xs generalizing b with
  | nil => exact total_ok b
  | cons x rest ih =>
    rw [List.foldlM_cons]
    exact (h x List.mem_cons_self b).bind fun b' =>
      ih (fun y hy => h y (List.mem_cons_of_mem _ hy)) b'

end Outcome

namespace Exec

variable {σ τ κ ε ε' α β : Type}

namespace Settles

variable {I : σ → Prop}

theorem keeps {m : Exec σ ε α} (hm : Settles I m) : Keeps I m :=
  keeps_of_ends fun s hs => (hm s hs).mono (fun _ _ ht => ht) (fun _ _ ht => ht) fun _ _ hf => hf.elim

theorem throw (e : ε) : Settles I (throw e : Exec σ ε α) := fun _ hs => hs

theorem failIf (c : Prop) [Decidable c] (e : ε) : Settles I (Exec.failIf c e) :=
  fun _ hs => (ends_failIf c e).mpr ⟨fun _ => hs, fun _ => hs⟩

theorem okOr (o : Option α) (e : ε) : Settles I (Exec.okOr o e) :=
  fun _ hs => (ends_okOr o e).mpr ⟨fun _ => hs, fun _ _ => hs⟩

theorem resume {o : Outcome ε α} (h : Outcome.Total o) : Settles I (Exec.resume o) :=
  fun _ hs => (ends_resume o).mpr ⟨fun _ _ => hs, fun _ _ => hs, fun p hp => h p hp⟩

theorem mapErr {m : Exec σ ε α} (hm : Settles I m) (f : ε → ε') : Settles I (Exec.mapErr f m) :=
  fun s hs => (ends_mapErr f m).mpr (hm s hs)

theorem onSnd {I : τ → Prop} {m : Exec τ ε α} (hm : Settles I m) :
    Settles (fun s : κ × τ => I s.2) (Exec.onSnd m) := fun s hs => ends_onSnd.mpr (hm s.2 hs)

theorem onFst {I : κ → Prop} {m : Exec κ ε α} (hm : Settles I m) :
    Settles (fun s : κ × τ => I s.1) (Exec.onFst m) := fun s hs => ends_onFst.mpr (hm s.1 hs)

theorem withLocal {m : Exec (τ × σ) ε α} {b : τ} (hm : Settles (fun s => I s.2) m) :
    Settles I (Exec.withLocal b m) := fun _ hs => ends_withLocal.mpr (hm _ hs)

end Settles

/-! ## Calls that keep an invariant unless they panic -/

def Retains (I : σ → Prop) (m : Exec σ ε α) : Prop :=
  ∀ s, I s → Ends m s (fun _ => I) (fun _ => I) fun _ _ => True

theorem Settles.retains {I : σ → Prop} {m : Exec σ ε α} (hm : Settles I m) : Retains I m :=
  fun s hs => (hm s hs).mono (fun _ _ ht => ht) (fun _ _ ht => ht) fun _ _ _ => trivial

theorem Keeps.retains {I : σ → Prop} {m : Exec σ ε α} (hm : Keeps I m) : Retains I m := by
  intro s hs
  have ht := hm s hs
  unfold Ends
  rcases hrun : m s with ⟨_ | _ | _, t⟩ <;> rw [hrun] at ht
  · exact ht
  · exact ht
  · trivial

namespace Retains

variable {I : σ → Prop}

theorem pure (a : α) : Retains I (pure a : Exec σ ε α) := fun _ hs => hs

theorem throw (e : ε) : Retains I (throw e : Exec σ ε α) := fun _ hs => hs

theorem panic (p : String) : Retains I (panic p : Exec σ ε α) := fun _ _ => trivial

theorem self : Retains I (Exec.self : Exec σ ε σ) := fun _ hs => hs

theorem modify {f : σ → σ} (h : ∀ s, I s → I (f s)) : Retains I (modify f : Exec σ ε PUnit) := h

theorem okOr (o : Option α) (e : ε) : Retains I (Exec.okOr o e) :=
  fun _ hs => (ends_okOr o e).mpr ⟨fun _ => hs, fun _ _ => hs⟩

theorem resume (o : Outcome ε α) : Retains I (Exec.resume o) :=
  fun _ hs => (ends_resume o).mpr ⟨fun _ _ => hs, fun _ _ => hs, fun _ _ => trivial⟩

theorem bind {m : Exec σ ε α} {k : α → Exec σ ε β} (hm : Retains I m) (hk : ∀ a, Retains I (k a)) :
    Retains I (m >>= k) := fun s hs => (hm s hs).bind fun a t ht => hk a t ht

theorem mapErr {m : Exec σ ε α} (hm : Retains I m) (f : ε → ε') : Retains I (Exec.mapErr f m) :=
  fun s hs => (ends_mapErr f m).mpr (hm s hs)

theorem onPart {J : κ → Prop} {m : Exec κ ε α} {get : σ → κ} {put : κ → σ → σ} (hm : Retains J m)
    (hget : ∀ s, I s → J (get s)) (hput : ∀ s c, I s → J c → I (put c s)) :
    Retains I (onPart get put m) := by
  intro s hs
  rw [ends_onPart]
  exact (hm _ (hget s hs)).mono (fun _ c hc => hput s c hs hc) (fun _ c hc => hput s c hs hc)
    fun _ _ _ => trivial

theorem foldlM {f : β → α → Exec σ ε β} (hf : ∀ b a, Retains I (f b a)) (xs : List α) (b : β) :
    Retains I (xs.foldlM f b) := by
  induction xs generalizing b with
  | nil => exact pure b
  | cons a rest ih =>
    rw [List.foldlM_cons]
    exact (hf b a).bind ih

theorem forBreak {round : Nat → β → Exec σ ε (RoundEnd β β)} (hround : ∀ i b, Retains I (round i b))
    (n i : Nat) (b : β) : Retains I (Exec.forBreak round n i b) := by
  induction n generalizing i b with
  | zero => exact pure b
  | succ n ih =>
    refine (hround i b).bind fun r => ?_
    cases r with
    | leave b' => exact pure b'
    | again b' => exact ih (i + 1) b'

end Retains
end Exec
end Rust
