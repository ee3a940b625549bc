/-
Calls inside other calls: on a part of the caller's state, and on a local variable
beside it.
-/
import Ramforge.Rust.Exec

namespace Rust
namespace Exec

variable {σ τ ε α : Type}

/-- A call through `&mut` on the part of the state that `get` reads and `put` writes. -/
def onPart (get : σ → τ) (put : τ → σ → σ) (m : Exec τ ε α) : Exec σ ε α := fun s =>
  ((m (get s)).1, put (m (get s)).2 s)

@[simp] theorem onPart_run (get : σ → τ) (put : τ → σ → σ) (m : Exec τ ε α) (s : σ) :
    onPart get put m s = ((m (get s)).1, put (m (get s)).2 s) := rfl

/-- A call on a local variable and the state.  The caller gets the variable back. -/
def withLocal (b : τ) (m : Exec (τ × σ) ε α) : Exec σ ε (α × τ) := fun s =>
  match m (b, s) with
  | (.ok a, (b', s')) => (.ok (a, b'), s')
  | (.err e, (_, s')) => (.err e, s')
  | (.panic p, (_, s')) => (.panic p, s')

theorem withLocal_of_ok {b b' : τ} {m : Exec (τ × σ) ε α} {s s' : σ} {a : α}
    (h : m (b, s) = (.ok a, (b', s'))) : withLocal b m s = (.ok (a, b'), s') := by
  rw [withLocal, h]

/-! ## Inversion -/

theorem of_withLocal_ok {b b' : τ} {m : Exec (τ × σ) ε α} {s s' : σ} {a : α}
    (h : withLocal b m s = (.ok (a, b'), s')) : m (b, s) = (.ok a, (b', s')) := by
  unfold withLocal at h
  rcases hrun : m (b, s) with ⟨o, c, t⟩
  rw [hrun] at h
  cases o with
  | ok a' =>
    cases h
    rfl
  | err e => cases h
  | panic p => cases h

theorem exists_of_fst_ok {m : Exec σ ε α} {s : σ} {a : α} (h : (m s).1 = .ok a) :
    ∃ s', m s = (.ok a, s') := ⟨(m s).2, Prod.ext h rfl⟩

theorem of_attempt_ok {ε' : Type} {m : Exec σ ε α} {s s' : σ} {r : Except ε α}
    (h : (attempt m : Exec σ ε' _) s = (.ok r, s')) :
    (∃ a, r = .ok a ∧ m s = (.ok a, s')) ∨ ∃ e, r = .error e ∧ m s = (.err e, s') := by
  unfold attempt at h
  rcases hrun : m s with ⟨o, t⟩
  rw [hrun] at h
  cases o with
  | ok a =>
    cases h
    exact .inl ⟨a, rfl, rfl⟩
  | err e =>
    cases h
    exact .inr ⟨e, rfl, rfl⟩
  | panic p => cases h

theorem of_attempt_value {ε' : Type} {m : Exec σ ε α} {s s' : σ} {a : α}
    (h : (attempt m : Exec σ ε' _) s = (.ok (.ok a), s')) : m s = (.ok a, s') := by
  rcases of_attempt_ok h with ⟨_, heq, hrun⟩ | ⟨_, heq, -⟩
  · cases heq
    exact hrun
  · cases heq

theorem of_mapErr_ok {ε' : Type} {f : ε → ε'} {m : Exec σ ε α} {s s' : σ} {a : α}
    (h : mapErr f m s = (.ok a, s')) : m s = (.ok a, s') := by
  rw [mapErr_run] at h
  rcases hrun : m s with ⟨o, t⟩
  rw [hrun] at h
  cases o with
  | ok a' =>
    cases h
    rfl
  | err e => cases h
  | panic p => cases h

theorem of_onSnd_ok {κ : Type} {m : Exec τ ε α} {s s' : κ × τ} {a : α}
    (h : onSnd m s = (.ok a, s')) : m s.2 = (.ok a, s'.2) ∧ s'.1 = s.1 := by
  rw [onSnd_run] at h
  obtain ⟨hok, rfl⟩ := Prod.mk.inj h
  exact ⟨Prod.ext hok rfl, rfl⟩

theorem of_onFst_ok {κ : Type} {m : Exec κ ε α} {s s' : κ × τ} {a : α}
    (h : onFst m s = (.ok a, s')) : m s.1 = (.ok a, s'.1) ∧ s'.2 = s.2 := by
  rw [onFst_run] at h
  obtain ⟨hok, rfl⟩ := Prod.mk.inj h
  exact ⟨Prod.ext hok rfl, rfl⟩

theorem of_ofResult_ok {r : Except ε α} {s s' : σ} {a : α}
    (h : (ofResult r : Exec σ ε α) s = (.ok a, s')) : r = .ok a ∧ s' = s := by
  cases r with
  | error e => cases h
  | ok a' =>
    cases h
    exact ⟨rfl, rfl⟩

theorem of_ofResult_mapError_ok {ε' : Type} {f : ε → ε'} {r : Except ε α} {s s' : σ} {a : α}
    (h : (ofResult (r.mapError f) : Exec σ ε' α) s = (.ok a, s')) : r = .ok a ∧ s' = s := by
  cases r with
  | error e => cases h
  | ok a' =>
    cases h
    exact ⟨rfl, rfl⟩

end Exec

theorem of_except_bind_ok {ε α β : Type} {m : Except ε α} {k : α → Except ε β} {b : β}
    (h : m >>= k = .ok b) : ∃ a, m = .ok a ∧ k a = .ok b := by
  cases m with
  | error e => cases h
  | ok a => exact ⟨a, rfl, h⟩

end Rust
