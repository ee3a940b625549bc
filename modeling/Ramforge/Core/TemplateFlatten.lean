/-
What the template parser keeps of the tokens.

A tree is flattened into pieces, and each token stands for one piece.  The tree gives
the tokens back exactly where no block has anything but its end after an `else`.
-/
import Ramforge.Core.ChatTemplate

namespace Ramforge
namespace ChatTemplate

open Rust

/-! ## Pieces -/

inductive Piece (E : Type) where
  | text (text : List Char)
  | output (value : E)
  | opened (condition : E)
  | elif (condition : E)
  | otherwise
  | closed
  | loop (name : List Char) (iterable : E)
  | endLoop
  | set (name : List Char) (value : E)
deriving DecidableEq, Repr

variable {E : Type}

mutual

/-- A node in the order of its parts. -/
def Node.flatten : Node E → List (Piece E)
  | .text text => [.text text]
  | .output value => [.output value]
  | .cond branches otherwise =>
    flattenBranches .opened branches ++ flattenOtherwise otherwise ++ [.closed]
  | .loop name iterable body => .loop name iterable :: flattenNodes body ++ [.endLoop]
  | .set name value => [.set name value]

def flattenNodes : List (Node E) → List (Piece E)
  | [] => []
  | node :: rest => node.flatten ++ flattenNodes rest

/-- The first branch has its own mark. -/
def flattenBranches (mark : E → Piece E) : List (E × List (Node E)) → List (Piece E)
  | [] => []
  | (condition, body) :: rest =>
    mark condition :: flattenNodes body ++ flattenBranches .elif rest

def flattenOtherwise : Option (List (Node E)) → List (Piece E)
  | none => []
  | some body => .otherwise :: flattenNodes body

end

/-- The piece that one token stands for, by itself. -/
def pieceOf (parseExpression : List Char → Except ChatTemplateError E) :
    TemplateToken → Except ChatTemplateError (Piece E)
  | .text text => .ok (.text text)
  | .expression source => do return .output (← parseExpression source)
  | .statement statement => do
    let keyword := keywordOf statement
    if keyword = "if" then return .opened (← parseExpression (← conditionOf "if" statement))
    else if keyword = "elif" then
      return .elif (← parseExpression (← conditionOf "elif" statement))
    else if keyword = "else" then return .otherwise
    else if keyword = "endif" then return .closed
    else if keyword = "for" then do
      let (name, iterable) ← forParts statement
      return .loop name (← parseExpression iterable)
    else if keyword = "endfor" then return .endLoop
    else if keyword = "set" then do
      let (name, value) ← setParts statement
      return .set name (← parseExpression value)
    else throw (.unsupported s!"statement '{keyword}'")

theorem flattenBranches_concat {mark : E → Piece E} {branches : List (E × List (Node E))}
    (hne : branches ≠ []) (condition : E) (body : List (Node E)) :
    flattenBranches mark (branches ++ [(condition, body)]) =
      flattenBranches mark branches ++ .elif condition :: flattenNodes body := by
  induction branches generalizing mark with
  | nil => exact absurd rfl hne
  | cons first rest ih =>
    obtain ⟨c, b⟩ := first
    rw [List.cons_append, flattenBranches, flattenBranches]
    cases rest with
    | nil => simp [flattenBranches]
    | cons second rest => rw [ih (List.cons_ne_nil _ _), List.append_assoc]

/-! ## Blocks

A reading of the pieces that keeps the open blocks, the innermost first. -/

inductive Block where
  | cond (seenElse : Bool)
  | loop
deriving DecidableEq, Repr

/-- `none` where an `elif` or an `else` comes after the `else` of its block. -/
def readPiece : List Block → Piece E → Option (List Block)
  | blocks, .opened _ => some (.cond false :: blocks)
  | .cond seenElse :: blocks, .elif _ => if seenElse then none else some (.cond false :: blocks)
  | .cond seenElse :: blocks, .otherwise => if seenElse then none else some (.cond true :: blocks)
  | .cond _ :: blocks, .closed => some blocks
  | blocks, .loop _ _ => some (.loop :: blocks)
  | .loop :: blocks, .endLoop => some blocks
  | blocks, _ => some blocks

def readPieces (blocks : List Block) (pieces : List (Piece E)) : Option (List Block) :=
  pieces.foldlM readPiece blocks

@[simp] theorem readPieces_cons (blocks : List Block) (p : Piece E) (ps : List (Piece E)) :
    readPieces blocks (p :: ps) = (readPiece blocks p).bind fun blocks => readPieces blocks ps := rfl

theorem readPieces_append (blocks : List Block) (ps qs : List (Piece E)) :
    readPieces blocks (ps ++ qs) =
      (readPieces blocks ps).bind fun blocks => readPieces blocks qs :=
  List.foldlM_append

theorem isSome_of_append {blocks : List Block} {ps qs : List (Piece E)}
    (h : (readPieces blocks (ps ++ qs)).isSome = true) : (readPieces blocks ps).isSome = true := by
  rw [readPieces_append] at h
  cases hps : readPieces blocks ps with
  | none => rw [hps] at h; cases h
  | some _ => rfl

/-- The pieces leave the open blocks as they were. -/
def Closed (ps : List (Piece E)) : Prop := ∀ blocks, readPieces blocks ps = some blocks

theorem Closed.nil : Closed ([] : List (Piece E)) := fun _ => rfl

theorem Closed.append {ps qs : List (Piece E)} (hp : Closed ps) (hq : Closed qs) :
    Closed (ps ++ qs) := by
  intro blocks
  rw [readPieces_append, hp, Option.bind_some, hq]

theorem Closed.cons {p : Piece E} {ps : List (Piece E)} (hp : ∀ blocks, readPiece blocks p = some blocks)
    (hps : Closed ps) : Closed (p :: ps) := by
  intro blocks
  rw [readPieces_cons, hp, Option.bind_some, hps]

/-! ## What a call takes -/

theorem of_bind_ok {α β : Type} {x : Except ChatTemplateError α}
    {f : α → Except ChatTemplateError β} {b : β} (h : x >>= f = .ok b) :
    ∃ a, x = .ok a ∧ f a = .ok b := by
  cases x with
  | error e => cases h
  | ok a => exact ⟨a, rfl, h⟩

variable {parseExpression : List Char → Except ChatTemplateError E}
  {rest rest' : List TemplateToken} {nodes : List (Node E)} {node : Node E}

/-- Each token stands for the piece beside it. -/
def Stand (parseExpression : List Char → Except ChatTemplateError E) (tokens : List TemplateToken)
    (pieces : List (Piece E)) : Prop :=
  List.Forall₂ (fun token piece => pieceOf parseExpression token = .ok piece) tokens pieces

theorem Stand.append {tokens tokens' : List TemplateToken} {pieces pieces' : List (Piece E)}
    (h : Stand parseExpression tokens pieces) (h' : Stand parseExpression tokens' pieces') :
    Stand parseExpression (tokens ++ tokens') (pieces ++ pieces') := List.rel_append h h'

theorem Stand.cons {token : TemplateToken} {tokens : List TemplateToken} {piece : Piece E}
    {pieces : List (Piece E)} (h : pieceOf parseExpression token = .ok piece)
    (h' : Stand parseExpression tokens pieces) :
    Stand parseExpression (token :: tokens) (piece :: pieces) := List.Forall₂.cons h h'

/-- `pieces` are those of the tokens taken from `rest`; where no block goes on after its
`else` they are `flat`, what the tree keeps of them. -/
structure Took (parseExpression : List Char → Except ChatTemplateError E)
    (rest : List TemplateToken) (pieces flat : List (Piece E)) (rest' : List TemplateToken) :
    Prop where
  split : ∃ taken, rest = taken ++ rest' ∧ Stand parseExpression taken pieces
  closed : Closed flat
  kept : ∀ blocks, (readPieces blocks pieces).isSome = true → pieces = flat

/-- A call stops at the end or at a terminator. -/
inductive Stops : Option (List Char) → List TemplateToken → Prop where
  | done : Stops none []
  | terminator (statement : List Char) (after : List TemplateToken) :
    Stops (some statement) (.statement statement :: after)

def NodesSpec (parseExpression : List Char → Except ChatTemplateError E) (fuel : Nat) : Prop :=
  ∀ terminators rest nodes terminator rest',
    parseNodes parseExpression fuel terminators rest = .ok (nodes, terminator, rest') →
      (∃ pieces, Took parseExpression rest pieces (flattenNodes nodes) rest') ∧
        Stops terminator rest'

theorem Took.nil : Took parseExpression rest [] [] rest where
  split := ⟨[], rfl, .nil⟩
  closed := Closed.nil
  kept _ _ := rfl

/-- One token first, whose piece opens and closes no block. -/
theorem Took.cons {token : TemplateToken} {piece : Piece E} {pieces flat : List (Piece E)}
    (htoken : pieceOf parseExpression token = .ok piece)
    (hpiece : ∀ blocks, readPiece blocks piece = some blocks)
    (h : Took parseExpression rest pieces flat rest') :
    Took parseExpression (token :: rest) (piece :: pieces) (piece :: flat) rest' := by
  obtain ⟨taken, hsplit, hstand⟩ := h.split
  refine ⟨⟨token :: taken, by rw [hsplit, List.cons_append], hstand.cons htoken⟩,
    h.closed.cons hpiece, fun blocks hread => ?_⟩
  rw [readPieces_cons, hpiece, Option.bind_some] at hread
  rw [h.kept blocks hread]

theorem Took.append {rest'' : List TemplateToken} {pieces flat pieces' flat' : List (Piece E)}
    (h : Took parseExpression rest pieces flat rest')
    (h' : Took parseExpression rest' pieces' flat' rest'') :
    Took parseExpression rest (pieces ++ pieces') (flat ++ flat') rest'' := by
  obtain ⟨taken, hsplit, hstand⟩ := h.split
  obtain ⟨taken', hsplit', hstand'⟩ := h'.split
  refine ⟨⟨taken ++ taken', by rw [hsplit, hsplit', List.append_assoc],
    hstand.append hstand'⟩, h.closed.append h'.closed, fun blocks hread => ?_⟩
  have hpieces := h.kept blocks (isSome_of_append hread)
  rw [readPieces_append, hpieces, h.closed, Option.bind_some] at hread
  rw [hpieces, h'.kept blocks hread]

/-- The rest of a list of nodes after one that has been taken. -/
theorem NodesSpec.after {fuel : Nat} (hnodes : NodesSpec parseExpression fuel) (node : Node E)
    {terminators : List String} {pieces : List (Piece E)} {mid : List TemplateToken}
    {terminator : Option (List Char)} (hnode : Took parseExpression rest pieces node.flatten mid)
    (hrun : parseNodes parseExpression fuel terminators mid = .ok (nodes, terminator, rest')) :
    (∃ pieces, Took parseExpression rest pieces (flattenNodes (node :: nodes)) rest') ∧
      Stops terminator rest' := by
  obtain ⟨⟨pieces', htook⟩, hstop⟩ := hnodes _ _ _ _ _ hrun
  exact ⟨⟨_, hnode.append htook⟩, hstop⟩

/-! ## The loop of an if

`past` are the pieces of the block so far, its opening included. -/

structure BranchesSoFar (past : List (Piece E)) (branches : List (E × List (Node E)))
    (otherwise : Option (List (Node E))) : Prop where
  nonempty : branches ≠ []
  branches_read : ∀ blocks, readPieces blocks (flattenBranches .opened branches) =
    some (.cond false :: blocks)
  otherwise_closed : ∀ body, otherwise = some body → Closed (flattenNodes body)
  kept : ∀ blocks, (readPieces blocks past).isSome = true →
    past = flattenBranches .opened branches ++ flattenOtherwise otherwise

variable {past : List (Piece E)} {branches : List (E × List (Node E))}
  {otherwise : Option (List (Node E))}

/-- The open block remembers whether the else was there. -/
theorem BranchesSoFar.read (h : BranchesSoFar past branches otherwise) (blocks : List Block)
    (hread : (readPieces blocks past).isSome = true) :
    readPieces blocks past = some (.cond otherwise.isSome :: blocks) := by
  rw [h.kept blocks hread, readPieces_append, h.branches_read, Option.bind_some]
  cases otherwise with
  | none => rfl
  | some body =>
    have hclosed := h.otherwise_closed body rfl
    rw [flattenOtherwise, readPieces_cons]
    exact hclosed _

theorem BranchesSoFar.first {condition : E} {body : List (Node E)} {pieces : List (Piece E)}
    (hclosed : Closed (flattenNodes body))
    (hkept : ∀ blocks, (readPieces blocks pieces).isSome = true → pieces = flattenNodes body) :
    BranchesSoFar (.opened condition :: pieces) [(condition, body)] none where
  nonempty := List.cons_ne_nil _ _
  branches_read blocks := by
    rw [flattenBranches, flattenBranches, List.append_nil, readPieces_cons]
    exact hclosed _
  otherwise_closed _ h := by cases h
  kept blocks hread := by
    have hbody := hkept (.cond false :: blocks) hread
    rw [flattenBranches, flattenBranches, flattenOtherwise, List.append_nil, List.append_nil, hbody]

/-- An elif is kept in its place only where there was no else. -/
theorem BranchesSoFar.elif {body : List (Node E)} {pieces : List (Piece E)}
    (h : BranchesSoFar past branches otherwise) (condition : E) (hclosed : Closed (flattenNodes body))
    (hkept : ∀ blocks, (readPieces blocks pieces).isSome = true → pieces = flattenNodes body) :
    BranchesSoFar (past ++ .elif condition :: pieces) (branches ++ [(condition, body)]) otherwise where
  nonempty := by simp
  branches_read blocks := by
    rw [flattenBranches_concat h.nonempty, readPieces_append, h.branches_read, Option.bind_some,
      readPieces_cons]
    exact hclosed _
  otherwise_closed := h.otherwise_closed
  kept blocks hread := by
    have hpast := isSome_of_append hread
    rw [readPieces_append, h.read blocks hpast, Option.bind_some, readPieces_cons] at hread
    cases otherwise with
    | some _ => cases hread
    | none =>
      have hbody := hkept (.cond false :: blocks) hread
      rw [flattenBranches_concat h.nonempty, h.kept blocks hpast, hbody, flattenOtherwise,
        List.append_nil, List.append_nil]

theorem BranchesSoFar.orElse {body : List (Node E)} {pieces : List (Piece E)}
    (h : BranchesSoFar past branches otherwise) (hclosed : Closed (flattenNodes body))
    (hkept : ∀ blocks, (readPieces blocks pieces).isSome = true → pieces = flattenNodes body) :
    BranchesSoFar (past ++ .otherwise :: pieces) branches (some body) where
  nonempty := h.nonempty
  branches_read := h.branches_read
  otherwise_closed _ he := by
    cases he
    exact hclosed
  kept blocks hread := by
    have hpast := isSome_of_append hread
    rw [readPieces_append, h.read blocks hpast, Option.bind_some, readPieces_cons] at hread
    cases otherwise with
    | some _ => cases hread
    | none =>
      have hbody := hkept (.cond true :: blocks) hread
      rw [h.kept blocks hpast, hbody, flattenOtherwise, flattenOtherwise, List.append_nil]

theorem BranchesSoFar.closed (h : BranchesSoFar past branches otherwise) :
    Closed (Node.cond branches otherwise).flatten := by
  intro blocks
  rw [Node.flatten, readPieces_append, readPieces_append, h.branches_read, Option.bind_some]
  cases otherwise with
  | none => rfl
  | some body =>
    have hclosed := h.otherwise_closed body rfl
    rw [flattenOtherwise, readPieces_cons]
    show ((readPieces (.cond true :: blocks) (flattenNodes body)).bind fun blocks =>
      readPieces blocks [Piece.closed]) = some blocks
    rw [hclosed]
    rfl

/-! ## The calls -/

/-- Tokens that finish the block of `past`. -/
structure Finishes (parseExpression : List Char → Except ChatTemplateError E)
    (past : List (Piece E)) (rest : List TemplateToken) (node : Node E)
    (rest' : List TemplateToken) (pieces : List (Piece E)) : Prop where
  split : ∃ taken, rest = taken ++ rest' ∧ Stand parseExpression taken pieces
  closed : Closed node.flatten
  kept : ∀ blocks, (readPieces blocks (past ++ pieces)).isSome = true →
    past ++ pieces = node.flatten

def BranchesSpec (parseExpression : List Char → Except ChatTemplateError E) (fuel : Nat) : Prop :=
  ∀ past branches otherwise terminator rest node rest', BranchesSoFar past branches otherwise →
    Stops terminator rest →
    parseBranches parseExpression fuel branches otherwise terminator rest = .ok (node, rest') →
      ∃ pieces, Finishes parseExpression past rest node rest' pieces

def IfSpec (parseExpression : List Char → Except ChatTemplateError E) (fuel : Nat) : Prop :=
  ∀ condition rest node rest', parseIf parseExpression fuel condition rest = .ok (node, rest') →
    ∃ c pieces, parseExpression condition = .ok c ∧
      Finishes parseExpression [.opened c] rest node rest' pieces

def ForSpec (parseExpression : List Char → Except ChatTemplateError E) (fuel : Nat) : Prop :=
  ∀ statement rest node rest', keywordOf statement = "for" →
    parseFor parseExpression fuel statement rest = .ok (node, rest') →
      ∃ pieces, Took parseExpression (.statement statement :: rest) pieces node.flatten rest'

variable {fuel : Nat} {statement : List Char}

theorem Finishes.cons {piece : Piece E} {pieces pieces' : List (Piece E)} {token : TemplateToken}
    {mid : List TemplateToken} {taken : List TemplateToken}
    (htoken : pieceOf parseExpression token = .ok piece) (hsplit : rest = taken ++ mid)
    (hstand : Stand parseExpression taken pieces)
    (h : Finishes parseExpression (past ++ piece :: pieces) mid node rest' pieces') :
    Finishes parseExpression past (token :: rest) node rest' (piece :: pieces ++ pieces') := by
  obtain ⟨taken', hsplit', hstand'⟩ := h.split
  refine ⟨⟨token :: taken ++ taken', ?_, (hstand.cons htoken).append hstand'⟩, h.closed,
    fun blocks hread => ?_⟩
  · rw [hsplit, hsplit', List.cons_append, List.cons_append, List.append_assoc]
  · rw [← List.append_assoc] at hread ⊢
    exact h.kept blocks hread

theorem pieceOf_elif {condition : List Char} {c : E} (hkeyword : keywordOf statement = "elif")
    (hcondition : conditionOf "elif" statement = .ok condition)
    (hc : parseExpression condition = .ok c) :
    pieceOf parseExpression (.statement statement) = .ok (.elif c) := by
  simp only [pieceOf, hkeyword, hcondition]
  show (parseExpression condition >>= fun c => pure (Piece.elif c)) = .ok (.elif c)
  rw [hc]
  rfl

theorem branchesSpec_succ (hnodes : NodesSpec parseExpression fuel)
    (hbranches : BranchesSpec parseExpression fuel) : BranchesSpec parseExpression (fuel + 1) := by
  intro past branches otherwise terminator rest node rest' hpast hstops h
  cases hstops with
  | done => cases h
  | terminator current after =>
    rw [parseBranches] at h
    simp only [List.tail_cons] at h
    split at h
    next hkeyword =>
      obtain ⟨condition, hcondition, h⟩ := of_bind_ok h
      obtain ⟨⟨body, next, mid⟩, hbody, h⟩ := of_bind_ok h
      obtain ⟨c, hc, h⟩ := of_bind_ok h
      obtain ⟨⟨pieces, htook⟩, hstop⟩ := hnodes _ _ _ _ _ hbody
      obtain ⟨taken, hsplit, hstand⟩ := htook.split
      obtain ⟨pieces', hrest⟩ :=
        hbranches _ _ _ _ _ _ _ (hpast.elif c htook.closed htook.kept) hstop h
      exact ⟨_, hrest.cons (pieceOf_elif hkeyword hcondition hc) hsplit hstand⟩
    next hkeyword =>
      split at h
      next hkeyword =>
        obtain ⟨⟨body, next, mid⟩, hbody, h⟩ := of_bind_ok h
        obtain ⟨⟨pieces, htook⟩, hstop⟩ := hnodes _ _ _ _ _ hbody
        obtain ⟨taken, hsplit, hstand⟩ := htook.split
        obtain ⟨pieces', hrest⟩ :=
          hbranches _ _ _ _ _ _ _ (hpast.orElse htook.closed htook.kept) hstop h
        have htoken : pieceOf parseExpression (.statement current) = .ok .otherwise := by
          simp only [pieceOf, hkeyword]
          rfl
        exact ⟨_, hrest.cons htoken hsplit hstand⟩
      next hkeyword =>
        split at h
        next hkeyword =>
          cases h
          have htoken : pieceOf parseExpression (.statement current) = .ok .closed := by
            simp only [pieceOf, hkeyword]
            rfl
          refine ⟨[.closed], ⟨[_], rfl, .cons htoken .nil⟩, hpast.closed, fun blocks hread => ?_⟩
          rw [hpast.kept blocks (isSome_of_append hread), Node.flatten]
        next => cases h

theorem ifSpec_succ (hnodes : NodesSpec parseExpression fuel)
    (hbranches : BranchesSpec parseExpression fuel) : IfSpec parseExpression (fuel + 1) := by
  intro condition rest node rest' h
  rw [parseIf] at h
  obtain ⟨c, hc, h⟩ := of_bind_ok h
  obtain ⟨⟨body, terminator, mid⟩, hbody, h⟩ := of_bind_ok h
  obtain ⟨⟨pieces, htook⟩, hstop⟩ := hnodes _ _ _ _ _ hbody
  obtain ⟨taken, hsplit, hstand⟩ := htook.split
  obtain ⟨pieces', hrest⟩ := hbranches _ _ _ _ _ _ _ (.first htook.closed htook.kept) hstop h
  obtain ⟨taken', hsplit', hstand'⟩ := hrest.split
  refine ⟨c, pieces ++ pieces', hc, ⟨taken ++ taken', ?_, hstand.append hstand'⟩,
    hrest.closed, fun blocks hread => hrest.kept blocks hread⟩
  rw [hsplit, hsplit', List.append_assoc]

theorem forSpec_succ (hnodes : NodesSpec parseExpression fuel) :
    ForSpec parseExpression (fuel + 1) := by
  intro statement rest node rest' hkeyword h
  rw [parseFor] at h
  obtain ⟨⟨name, iterable⟩, hparts, h⟩ := of_bind_ok h
  obtain ⟨⟨body, terminator, mid⟩, hbody, h⟩ := of_bind_ok h
  obtain ⟨⟨pieces, htook⟩, hstop⟩ := hnodes _ _ _ _ _ hbody
  obtain ⟨taken, hsplit, hstand⟩ := htook.split
  cases hstop with
  | done => cases h
  | terminator current after =>
    simp only at h
    split at h
    next => cases h
    next hend =>
      obtain ⟨value, hvalue, h⟩ := of_bind_ok h
      cases h
      rw [ne_eq, not_not] at hend
      have hopen : pieceOf parseExpression (.statement statement) = .ok (.loop name value) := by
        simp only [pieceOf, hkeyword, hparts]
        show (parseExpression iterable >>= fun v => pure (Piece.loop name v)) = .ok (.loop name value)
        rw [hvalue]
        rfl
      have hclose : pieceOf parseExpression (.statement current) = .ok .endLoop := by
        simp only [pieceOf, hend]
        rfl
      refine ⟨.loop name value :: pieces ++ [.endLoop],
        ⟨.statement statement :: taken ++ [.statement current], ?_, ?_⟩, fun blocks => ?_,
        fun blocks hread => ?_⟩
      · rw [hsplit]
        simp
      · exact (hstand.cons hopen).append (Stand.cons hclose .nil)
      · show readPieces (.loop :: blocks) (flattenNodes body ++ [Piece.endLoop]) = some blocks
        rw [readPieces_append, htook.closed]
        rfl
      · rw [List.cons_append, readPieces_cons] at hread
        rw [htook.kept (.loop :: blocks) (isSome_of_append hread), Node.flatten]

theorem nodesSpec_succ (hnodes : NodesSpec parseExpression fuel)
    (hif : IfSpec parseExpression fuel) (hfor : ForSpec parseExpression fuel) :
    NodesSpec parseExpression (fuel + 1) := by
  intro terminators rest nodes terminator rest' h
  rcases rest with _ | ⟨text | source | statement, rest⟩
  · rw [parseNodes] at h
    cases h
    exact ⟨⟨[], .nil⟩, .done⟩
  · rw [parseNodes] at h
    obtain ⟨⟨nodes, terminator, mid⟩, hrest, h⟩ := of_bind_ok h
    cases h
    have htext : Took parseExpression (.text text :: rest) [.text text] [.text text] rest :=
      Took.nil.cons rfl fun _ => rfl
    exact hnodes.after (.text text) htext hrest
  · rw [parseNodes] at h
    obtain ⟨value, hvalue, h⟩ := of_bind_ok h
    obtain ⟨⟨nodes, terminator, mid⟩, hrest, h⟩ := of_bind_ok h
    cases h
    have htoken : pieceOf parseExpression (.expression source) = .ok (.output value) := by
      simp only [pieceOf, hvalue]
      rfl
    have houtput : Took parseExpression (.expression source :: rest) [.output value]
        [.output value] rest := Took.nil.cons htoken fun _ => rfl
    exact hnodes.after (.output value) houtput hrest
  · rw [parseNodes] at h
    simp only at h
    split at h
    next =>
      cases h
      exact ⟨⟨[], .nil⟩, .terminator statement rest⟩
    next =>
      split at h
      next hkeyword =>
        obtain ⟨condition, hcondition, h⟩ := of_bind_ok h
        obtain ⟨⟨node, mid⟩, hnode, h⟩ := of_bind_ok h
        obtain ⟨⟨nodes, terminator, mid'⟩, hrest, h⟩ := of_bind_ok h
        cases h
        obtain ⟨c, pieces, hc, hfinish⟩ := hif _ _ _ _ hnode
        obtain ⟨taken, hsplit, hstand⟩ := hfinish.split
        have htoken : pieceOf parseExpression (.statement statement) = .ok (.opened c) := by
          simp only [pieceOf, hkeyword, hcondition]
          show (parseExpression condition >>= fun c => pure (Piece.opened c)) = .ok (.opened c)
          rw [hc]
          rfl
        have htook : Took parseExpression (.statement statement :: rest) (.opened c :: pieces)
            node.flatten mid :=
          ⟨⟨.statement statement :: taken, by rw [hsplit, List.cons_append], hstand.cons htoken⟩,
            hfinish.closed, hfinish.kept⟩
        exact hnodes.after node htook hrest
      next =>
        split at h
        next hkeyword =>
          obtain ⟨⟨node, mid⟩, hnode, h⟩ := of_bind_ok h
          obtain ⟨⟨nodes, terminator, mid'⟩, hrest, h⟩ := of_bind_ok h
          cases h
          obtain ⟨pieces, htook⟩ := hfor _ _ _ _ hkeyword hnode
          exact hnodes.after node htook hrest
        next =>
          split at h
          next hkeyword =>
            obtain ⟨node, hnode, h⟩ := of_bind_ok h
            obtain ⟨⟨nodes, terminator, mid⟩, hrest, h⟩ := of_bind_ok h
            cases h
            obtain ⟨⟨name, source⟩, hparts, hset⟩ := of_bind_ok hnode
            obtain ⟨value, hvalue, hset⟩ := of_bind_ok hset
            cases hset
            have htoken : pieceOf parseExpression (.statement statement) =
                .ok (.set name value) := by
              simp only [pieceOf, hkeyword, hparts]
              show (parseExpression source >>= fun v => pure (Piece.set name v)) =
                .ok (.set name value)
              rw [hvalue]
              rfl
            have htook : Took parseExpression (.statement statement :: rest) [.set name value]
                [.set name value] rest := Took.nil.cons htoken fun _ => rfl
            exact hnodes.after (.set name value) htook hrest
          next =>
            split at h
            next =>
              cases h
              exact ⟨⟨[], .nil⟩, .terminator statement rest⟩
            next => split at h <;> cases h

/-- The calls take turns, so the induction on the fuel is over all four. -/
theorem specs (parseExpression : List Char → Except ChatTemplateError E) (fuel : Nat) :
    NodesSpec parseExpression fuel ∧ BranchesSpec parseExpression fuel ∧
      IfSpec parseExpression fuel ∧ ForSpec parseExpression fuel := by
  induction fuel with
  | zero =>
    refine ⟨fun _ _ _ _ _ h => ?_, fun _ _ _ _ _ _ _ _ _ h => ?_, fun _ _ _ _ h => ?_,
      fun _ _ _ _ _ h => ?_⟩
    · rw [parseNodes] at h
      cases h
    · rw [parseBranches] at h
      cases h
    · rw [parseIf] at h
      cases h
    · rw [parseFor] at h
      cases h
  | succ fuel ih =>
    obtain ⟨hnodes, hbranches, hif, hfor⟩ := ih
    exact ⟨nodesSpec_succ hnodes hif hfor, branchesSpec_succ hnodes hbranches,
      ifSpec_succ hnodes hbranches, forSpec_succ hnodes⟩

/-! ## The token stream -/

/-- The same reading of blocks, on the tokens. -/
def readToken (blocks : List Block) : TemplateToken → Option (List Block)
  | .text _ => some blocks
  | .expression _ => some blocks
  | .statement statement =>
    let keyword := keywordOf statement
    if keyword = "if" then some (.cond false :: blocks)
    else if keyword = "for" then some (.loop :: blocks)
    else
      match blocks with
      | .cond seenElse :: outer =>
        if keyword = "elif" then if seenElse then none else some (.cond false :: outer)
        else if keyword = "else" then if seenElse then none else some (.cond true :: outer)
        else if keyword = "endif" then some outer
        else some blocks
      | .loop :: outer => if keyword = "endfor" then some outer else some blocks
      | [] => some []

/-- In no if block does an else or an elif come after the else. -/
def ElseLast (tokens : List TemplateToken) : Prop := (tokens.foldlM readToken []).isSome = true

theorem readToken_eq {token : TemplateToken} {piece : Piece E}
    (h : pieceOf parseExpression token = .ok piece) (blocks : List Block) :
    readToken blocks token = readPiece blocks piece := by
  rcases token with text | source | statement
  · cases h
    rfl
  · obtain ⟨value, -, h⟩ := of_bind_ok h
    cases h
    rfl
  · simp only [pieceOf] at h
    simp only [readToken]
    by_cases hif : keywordOf statement = "if"
    · rw [if_pos hif] at h ⊢
      obtain ⟨condition, -, h⟩ := of_bind_ok h
      obtain ⟨value, -, h⟩ := of_bind_ok h
      cases h
      rfl
    rw [if_neg hif] at h ⊢
    by_cases helif : keywordOf statement = "elif"
    · rw [if_pos helif] at h
      obtain ⟨condition, -, h⟩ := of_bind_ok h
      obtain ⟨value, -, h⟩ := of_bind_ok h
      cases h
      simp only [helif]
      rcases blocks with _ | ⟨seenElse | _, outer⟩ <;> rfl
    rw [if_neg helif] at h
    by_cases helse : keywordOf statement = "else"
    · rw [if_pos helse] at h
      cases h
      simp only [helse]
      rcases blocks with _ | ⟨seenElse | _, outer⟩ <;> rfl
    rw [if_neg helse] at h
    by_cases hendif : keywordOf statement = "endif"
    · rw [if_pos hendif] at h
      cases h
      simp only [hendif]
      rcases blocks with _ | ⟨seenElse | _, outer⟩ <;> rfl
    rw [if_neg hendif] at h
    by_cases hfor : keywordOf statement = "for"
    · rw [if_pos hfor] at h ⊢
      obtain ⟨parts, -, h⟩ := of_bind_ok h
      obtain ⟨value, -, h⟩ := of_bind_ok h
      cases h
      rfl
    rw [if_neg hfor] at h ⊢
    by_cases hendfor : keywordOf statement = "endfor"
    · rw [if_pos hendfor] at h
      cases h
      simp only [hendfor]
      rcases blocks with _ | ⟨seenElse | _, outer⟩ <;> rfl
    rw [if_neg hendfor] at h
    split at h
    next hset =>
      obtain ⟨parts, -, h⟩ := of_bind_ok h
      obtain ⟨value, -, h⟩ := of_bind_ok h
      cases h
      simp only [hset]
      rcases blocks with _ | ⟨seenElse | _, outer⟩ <;> rfl
    next => cases h

theorem Stand.read {tokens : List TemplateToken} {pieces : List (Piece E)}
    (h : Stand parseExpression tokens pieces) (blocks : List Block) :
    tokens.foldlM readToken blocks = readPieces blocks pieces := by
  induction h generalizing blocks with
  | nil => rfl
  | cons htoken _ ih =>
    rw [List.foldlM_cons, readToken_eq htoken, readPieces_cons]
    exact bind_congr fun blocks => ih blocks

theorem Stand.mapM {tokens : List TemplateToken} {pieces : List (Piece E)}
    (h : Stand parseExpression tokens pieces) :
    tokens.mapM (pieceOf parseExpression) = .ok pieces := by
  induction h with
  | nil => rfl
  | cons htoken _ ih =>
    rw [List.mapM_cons, htoken, ih]
    rfl

/-- A tree that was parsed flattens to the tokens, piece by piece, exactly where every else
is the last part of its block. -/
theorem parseTokens_keeps_iff {tokens : List TemplateToken}
    (h : parseTokens parseExpression tokens = .ok nodes) :
    tokens.mapM (pieceOf parseExpression) = .ok (flattenNodes nodes) ↔ ElseLast tokens := by
  obtain ⟨⟨nodes, terminator, rest⟩, hrun, h⟩ := of_bind_ok h
  obtain ⟨⟨pieces, htook⟩, hstop⟩ := (specs parseExpression _).1 _ _ _ _ _ hrun
  cases hstop with
  | terminator => cases h
  | done =>
    cases h
    obtain ⟨taken, hsplit, hstand⟩ := htook.split
    rw [List.append_nil] at hsplit
    rw [hsplit, hstand.mapM, ElseLast, hstand.read, Except.ok.injEq]
    refine ⟨fun heq => ?_, htook.kept []⟩
    rw [heq, htook.closed]
    rfl

/-- An if with one else. -/
def plainTemplate : String := "\x7b% if a %\x7dX\x7b% else %\x7dY\x7b% endif %\x7d"

/-- The same with a second else. -/
def secondElseTemplate : String :=
  "\x7b% if a %\x7dX\x7b% else %\x7dY\x7b% else %\x7dZ\x7b% endif %\x7d"

theorem exists_of_flattened (parseExpression : List Char → Except ChatTemplateError E)
    (source : String) (flat : List (Piece E))
    (h : ((parse parseExpression source).toOption.map flattenNodes) = some flat) :
    ∃ nodes, parse parseExpression source = .ok nodes ∧ flattenNodes nodes = flat := by
  cases hparse : parse parseExpression source with
  | error e =>
    rw [hparse] at h
    cases h
  | ok nodes =>
    rw [hparse] at h
    exact ⟨nodes, rfl, Option.some.inj h⟩

end ChatTemplate
end Ramforge
