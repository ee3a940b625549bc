/-
`while` loops, bounded by a measure of what they start from: of the state
(`loop`) or of the local variables (`loopOn`).

A round takes the loop's local variables and either goes round again with new
ones or leaves the loop with a value.  The bound is only a device to have a total
function: `loop_rule` asks that each round lowers the measure, and then no run
meets the bound.
-/
import Ramforge.Rust.Exec

namespace Rust

/-- The end of a round. -/
inductive RoundEnd (β α : Type) where
  | again (locals : β)
  | leave (value : α)

namespace Exec

variable {σ ε α β : Type}

def loopN (round : β → Exec σ ε (RoundEnd β α)) : Nat → β → Exec σ ε α
  | 0, _ => panic "loop bound exceeded"
  | n + 1, b => do
    match ← round b with
    | .leave a => pure a
    | .again b' => loopN round n b'

def loop (measure : σ → Nat) (round : β → Exec σ ε (RoundEnd β α)) (b : β) : Exec σ ε α := fun s =>
  loopN round (measure s + 1) b s

/-- A loop whose measure is on its local variables. -/
def loopOn (measure : β → Nat) (round : β → Exec σ ε (RoundEnd β α)) (b : β) : Exec σ ε α :=
  loopN round (measure b + 1) b

/-- What a round has to do: keep the invariant and lower the measure, or leave
with an exit that satisfies the post-condition. -/
def RoundOk (measure : β → σ → Nat) (I : β → σ → Prop) (Q : Outcome ε α → σ → Prop)
    (bound : Nat) : Outcome ε (RoundEnd β α) × σ → Prop
  | (.ok (.again b), s') => I b s' ∧ measure b s' < bound
  | (.ok (.leave a), s') => Q (.ok a) s'
  | (.err e, s') => Q (.err e) s'
  | (.panic p, s') => Q (.panic p) s'

variable {round : β → Exec σ ε (RoundEnd β α)} {I : β → σ → Prop} {Q : Outcome ε α → σ → Prop}

theorem loopN_rule {measure : β → σ → Nat}
    (h : ∀ b s, I b s → RoundOk measure I Q (measure b s) (round b s)) {n : Nat} {b : β} {s : σ}
    (hn : measure b s < n) (hs : I b s) :
    Q (loopN round n b s).1 (loopN round n b s).2 := by
  induction n generalizing b s with
  | zero => omega
  | succ n ih =>
    have hr := h b s hs
    rw [loopN, bind_run]
    cases hrun : round b s with
    | mk o s' =>
      rw [hrun] at hr
      cases o with
      | ok f =>
        cases f with
        | again b' =>
          have hlt : measure b' s' < n := by
            have := hr.2
            omega
          exact ih hlt hr.1
        | leave a => exact hr
      | err e => exact hr
      | panic p => exact hr

/-- The loop rule.  `Q` need not hold of the bound's own panic, so a loop that
satisfies the rule leaves by one of its rounds. -/
theorem loop_rule {measure : σ → Nat}
    (h : ∀ b s, I b s → RoundOk (fun _ => measure) I Q (measure s) (round b s)) {b : β} {s : σ}
    (hs : I b s) : Q (loop measure round b s).1 (loop measure round b s).2 :=
  loopN_rule h (Nat.lt_succ_self _) hs

theorem loopOn_rule {measure : β → Nat}
    (h : ∀ b s, I b s → RoundOk (fun b _ => measure b) I Q (measure b) (round b s)) {b : β} {s : σ}
    (hs : I b s) : Q (loopOn measure round b s).1 (loopOn measure round b s).2 :=
  loopN_rule h (Nat.lt_succ_self _) hs

/-- Partial correctness: what the rounds keep holds of the value a loop returns. -/
theorem loopN_of_ok {P : α → Prop} {J : β → Prop} {n : Nat} {b : β} {s s' : σ} {a : α}
    (hagain : ∀ b s b' s', J b → round b s = (.ok (.again b'), s') → J b')
    (hleave : ∀ b s a s', J b → round b s = (.ok (.leave a), s') → P a) (hb : J b)
    (h : loopN round n b s = (.ok a, s')) : P a := by
  induction n generalizing b s with
  | zero => cases h
  | succ n ih =>
    obtain ⟨r, s₁, hround, h⟩ := of_bind_ok h
    cases r with
    | again b' => exact ih (hagain b s b' s₁ hb hround) h
    | leave a' =>
      cases h
      exact hleave b s _ _ hb hround

end Exec
end Rust
