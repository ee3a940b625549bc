/-
The fuel of the template parser.

Between two tokens at most three calls pass, so a parser with enough fuel for its tokens
gives what any parser with more of it gives.
-/
import Ramforge.Core.TemplateFlatten

namespace Ramforge
namespace ChatTemplate

open Rust

variable {E : Type} {parseExpression : List Char → Except ChatTemplateError E}

theorem bind_congr_ok {α β : Type} {x : Except ChatTemplateError α}
    {f g : α → Except ChatTemplateError β} (h : ∀ a, x = .ok a → f a = g a) :
    x >>= f = x >>= g := by
  cases x with
  | error e => rfl
  | ok a => exact h a rfl

theorem Took.length_le {rest rest' : List TemplateToken} {pieces flat : List (Piece E)}
    (h : Took parseExpression rest pieces flat rest') : rest'.length ≤ rest.length := by
  obtain ⟨taken, rfl, -⟩ := h.split
  rw [List.length_append]
  exact Nat.le_add_left _ _

theorem Finishes.length_le {rest rest' : List TemplateToken} {past pieces : List (Piece E)}
    {node : Node E} (h : Finishes parseExpression past rest node rest' pieces) :
    rest'.length ≤ rest.length := by
  obtain ⟨taken, rfl, -⟩ := h.split
  rw [List.length_append]
  exact Nat.le_add_left _ _

theorem parseFor_length_le {fuel : Nat} {statement : List Char} {rest rest' : List TemplateToken}
    {node : Node E} (h : parseFor parseExpression fuel statement rest = .ok (node, rest')) :
    rest'.length ≤ rest.length := by
  obtain _ | fuel := fuel
  · cases h
  rw [parseFor] at h
  obtain ⟨parts, -, h⟩ := of_bind_ok h
  obtain ⟨⟨body, terminator, mid⟩, hbody, h⟩ := of_bind_ok h
  obtain ⟨⟨pieces, htook⟩, hstop⟩ := (specs parseExpression fuel).1 _ _ _ _ _ hbody
  have hmid := htook.length_le
  cases hstop with
  | done => cases h
  | terminator current after =>
    simp only at h
    split at h
    next => cases h
    next =>
      obtain ⟨value, -, h⟩ := of_bind_ok h
      cases h
      rw [List.length_cons] at hmid
      exact Nat.le_of_succ_le hmid

def StableNodes (parseExpression : List Char → Except ChatTemplateError E) (fuel : Nat) : Prop :=
  ∀ fuel' terminators (rest : List TemplateToken), 3 * rest.length + 1 ≤ fuel →
    3 * rest.length + 1 ≤ fuel' →
    parseNodes parseExpression fuel terminators rest = parseNodes parseExpression fuel' terminators rest

def StableIf (parseExpression : List Char → Except ChatTemplateError E) (fuel : Nat) : Prop :=
  ∀ fuel' condition (rest : List TemplateToken), 3 * rest.length + 3 ≤ fuel →
    3 * rest.length + 3 ≤ fuel' →
    parseIf parseExpression fuel condition rest = parseIf parseExpression fuel' condition rest

def StableFor (parseExpression : List Char → Except ChatTemplateError E) (fuel : Nat) : Prop :=
  ∀ fuel' statement (rest : List TemplateToken), 3 * rest.length + 3 ≤ fuel →
    3 * rest.length + 3 ≤ fuel' →
    parseFor parseExpression fuel statement rest = parseFor parseExpression fuel' statement rest

def StableBranches (parseExpression : List Char → Except ChatTemplateError E) (fuel : Nat) : Prop :=
  ∀ fuel' branches otherwise terminator (rest : List TemplateToken), Stops terminator rest →
    3 * rest.length + 2 ≤ fuel → 3 * rest.length + 2 ≤ fuel' →
    parseBranches parseExpression fuel branches otherwise terminator rest =
      parseBranches parseExpression fuel' branches otherwise terminator rest

variable {fuel : Nat}

theorem stableIf_succ (hnodes : StableNodes parseExpression fuel)
    (hbranches : StableBranches parseExpression fuel) : StableIf parseExpression (fuel + 1) := by
  intro fuel' condition rest hfuel hfuel'
  obtain _ | fuel' := fuel'
  · omega
  rw [parseIf, parseIf, hnodes fuel' _ rest (by omega) (by omega)]
  refine bind_congr_ok fun c _ => bind_congr_ok fun result hresult => ?_
  obtain ⟨body, terminator, mid⟩ := result
  obtain ⟨⟨pieces, htook⟩, hstop⟩ := (specs parseExpression fuel').1 _ _ _ _ _ hresult
  have := htook.length_le
  exact hbranches fuel' _ _ _ _ hstop (by omega) (by omega)

theorem stableFor_succ (hnodes : StableNodes parseExpression fuel) :
    StableFor parseExpression (fuel + 1) := by
  intro fuel' statement rest hfuel hfuel'
  obtain _ | fuel' := fuel'
  · omega
  rw [parseFor, parseFor, hnodes fuel' _ rest (by omega) (by omega)]

theorem stableBranches_succ (hnodes : StableNodes parseExpression fuel)
    (hbranches : StableBranches parseExpression fuel) :
    StableBranches parseExpression (fuel + 1) := by
  intro fuel' branches otherwise terminator rest hstops hfuel hfuel'
  obtain _ | fuel' := fuel'
  · omega
  cases hstops with
  | done => rw [parseBranches, parseBranches]
  | terminator current after =>
    rw [List.length_cons] at hfuel hfuel'
    rw [parseBranches, parseBranches]
    simp only [List.tail_cons]
    split
    next =>
      rw [hnodes fuel' _ after (by omega) (by omega)]
      refine bind_congr_ok fun condition _ => bind_congr_ok fun result hresult => ?_
      obtain ⟨body, next, mid⟩ := result
      obtain ⟨⟨pieces, htook⟩, hstop⟩ := (specs parseExpression fuel').1 _ _ _ _ _ hresult
      have := htook.length_le
      refine bind_congr_ok fun c _ => ?_
      dsimp only
      exact hbranches fuel' _ _ _ mid hstop (by omega) (by omega)
    next =>
      split
      next =>
        rw [hnodes fuel' _ after (by omega) (by omega)]
        refine bind_congr_ok fun result hresult => ?_
        obtain ⟨body, next, mid⟩ := result
        obtain ⟨⟨pieces, htook⟩, hstop⟩ := (specs parseExpression fuel').1 _ _ _ _ _ hresult
        have := htook.length_le
        dsimp only
        exact hbranches fuel' _ _ _ mid hstop (by omega) (by omega)
      next => rfl

theorem stableNodes_succ (hnodes : StableNodes parseExpression fuel)
    (hif : StableIf parseExpression fuel) (hfor : StableFor parseExpression fuel) :
    StableNodes parseExpression (fuel + 1) := by
  intro fuel' terminators rest hfuel hfuel'
  obtain _ | fuel' := fuel'
  · omega
  rcases rest with _ | ⟨text | source | statement, rest⟩
  · rw [parseNodes, parseNodes]
  · rw [List.length_cons] at hfuel hfuel'
    rw [parseNodes, parseNodes, hnodes fuel' _ rest (by omega) (by omega)]
  · rw [List.length_cons] at hfuel hfuel'
    rw [parseNodes, parseNodes, hnodes fuel' _ rest (by omega) (by omega)]
  · rw [List.length_cons] at hfuel hfuel'
    rw [parseNodes, parseNodes]
    simp only
    split
    next => rfl
    next =>
      split
      next =>
        refine bind_congr_ok fun condition _ => ?_
        rw [hif fuel' condition rest (by omega) (by omega)]
        refine bind_congr_ok fun result hresult => ?_
        obtain ⟨node, mid⟩ := result
        obtain ⟨c, pieces, -, hfinish⟩ := (specs parseExpression fuel').2.2.1 _ _ _ _ hresult
        have := hfinish.length_le
        simp only [hnodes fuel' terminators mid (by omega) (by omega)]
      next =>
        split
        next =>
          rw [hfor fuel' statement rest (by omega) (by omega)]
          refine bind_congr_ok fun result hresult => ?_
          obtain ⟨node, mid⟩ := result
          have := parseFor_length_le hresult
          simp only [hnodes fuel' terminators mid (by omega) (by omega)]
        next =>
          rw [hnodes fuel' _ rest (by omega) (by omega)]

theorem stable (parseExpression : List Char → Except ChatTemplateError E) (fuel : Nat) :
    StableNodes parseExpression fuel ∧ StableIf parseExpression fuel ∧
      StableFor parseExpression fuel ∧ StableBranches parseExpression fuel := by
  induction fuel with
  | zero =>
    refine ⟨fun _ _ _ h => ?_, fun _ _ _ h => ?_, fun _ _ _ h => ?_, fun _ _ _ _ _ _ h => ?_⟩ <;>
      omega
  | succ fuel ih =>
    obtain ⟨hnodes, hif, hfor, hbranches⟩ := ih
    exact ⟨stableNodes_succ hnodes hif hfor, stableIf_succ hnodes hbranches, stableFor_succ hnodes,
      stableBranches_succ hnodes hbranches⟩

/-- More fuel than the parser takes changes nothing. -/
theorem parseNodes_fuel (tokens : List TemplateToken) (terminators : List String)
    (h : enoughFuel tokens ≤ fuel) :
    parseNodes parseExpression fuel terminators tokens =
      parseNodes parseExpression (enoughFuel tokens) terminators tokens :=
  (stable parseExpression fuel).1 _ terminators tokens h (Nat.le_refl _)

end ChatTemplate
end Ramforge
