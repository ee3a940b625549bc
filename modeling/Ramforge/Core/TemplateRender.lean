/-
The rendering of chat templates and its scopes.

A scope is a stack of frames.  Only the top frame is ever written, and a loop renders each
round of its body in a frame of its own.
-/
import Ramforge.Core.ChatTemplate
import Ramforge.Core.TemplateValue
import Ramforge.Rust.Ends

namespace Ramforge

open Rust Rust.Exec

namespace ChatTemplate

/-! ## Scopes -/

/-- The frames, the top one last. -/
structure Scope (F : Type) where
  frames : List (List (List Char × Value F))

namespace Scope

variable {F : Type} (scope : Scope F)

def get (name : List Char) : Value F :=
  (scope.frames.reverse.findSome? fun frame => frame.lookup name).getD .undefined

def set (name : List Char) (value : Value F) : Scope F :=
  match scope.frames.getLast? with
  | some frame => ⟨scope.frames.dropLast ++ [BTreeMap.insert name value frame]⟩
  | none => scope

def push : Scope F := ⟨scope.frames ++ [[]]⟩

def pop : Scope F := ⟨scope.frames.dropLast⟩

end Scope

/-! ## Expressions -/

inductive BinaryOperator where
  | add
  | subtract
  | equal
  | notEqual
  | less
  | lessOrEqual
  | greater
  | greaterOrEqual
  | and
  | or
deriving DecidableEq

inductive Expression (F : Type) where
  | literal (value : Value F)
  | variable (name : List Char)
  | member (value : Expression F) (member : List Char)
  | index (value index : Expression F)
  | unaryNot (value : Expression F)
  | binary (operator : BinaryOperator) (left right : Expression F)
  | isDefined (value : Expression F)
  | filter (value : Expression F) (name : List Char)

variable {F : Type} [F64 F]

namespace Value

def member (value : Value F) (name : List Char) : Value F :=
  match value with
  | .object entries => (entries.lookup name).getD .undefined
  | _ => .undefined

/-- `values.get(index as isize as usize)`: a negative index is past the end. -/
def item (value index : Value F) : Value F :=
  match value, index with
  | .list values, .number index =>
    let index := F64.toI64 index
    if index < 0 then .undefined else (values[index.toNat]?).getD .undefined
  | .object entries, .string key => (entries.lookup key).getD .undefined
  | _, _ => .undefined

def isDefined (value : Value F) : Bool :=
  match value with
  | .undefined => false
  | _ => true

end Value

/-- The operators that evaluate both operands. -/
def BinaryOperator.apply (operator : BinaryOperator) (left right : Value F) :
    Except ChatTemplateError (Value F) :=
  match operator, left, right with
  | .add, .string left, .string right => .ok (.string (left ++ right))
  | .add, .number left, .number right => .ok (.number (F64.add left right))
  | .add, left, right => .error (.render
      s!"cannot add {String.ofList left.render} and {String.ofList right.render}")
  | .subtract, .number left, .number right => .ok (.number (F64.sub left right))
  | .subtract, left, right => .error (.render
      s!"cannot subtract {String.ofList right.render} from {String.ofList left.render}")
  | .equal, left, right => .ok (.bool (left.eq right))
  | .notEqual, left, right => .ok (.bool !left.eq right)
  | .less, .number left, .number right => .ok (.bool (F64.lt left right))
  | .lessOrEqual, .number left, .number right => .ok (.bool (F64.le left right))
  | .greater, .number left, .number right => .ok (.bool (F64.lt right left))
  | .greaterOrEqual, .number left, .number right => .ok (.bool (F64.le right left))
  | _, _, _ => .ok (.bool false)

def applyFilter (name : List Char) (value : Value F) : Except ChatTemplateError (Value F) :=
  if name = "tojson".toList then .ok (.string value.toJson)
  else .error (.unsupported s!"filter '{String.ofList name}'")

def evaluate (scope : Scope F) : Expression F → Except ChatTemplateError (Value F)
  | .literal value => .ok value
  | .variable name => .ok (scope.get name)
  | .member value member => do
    let value ← evaluate scope value
    return value.member member
  | .index value index => do
    let value ← evaluate scope value
    let index ← evaluate scope index
    return value.item index
  | .unaryNot value => do
    let value ← evaluate scope value
    return .bool !value.truthy
  | .binary .and left right => do
    let left ← evaluate scope left
    if left.truthy then evaluate scope right else return left
  | .binary .or left right => do
    let left ← evaluate scope left
    if left.truthy then return left else evaluate scope right
  | .binary operator left right => do
    let left ← evaluate scope left
    let right ← evaluate scope right
    operator.apply left right
  | .isDefined value => do
    let value ← evaluate scope value
    return .bool value.isDefined
  | .filter value name => do
    let value ← evaluate scope value
    applyFilter name value

/-! ## Rendering -/

structure Rendering (F : Type) where
  scope : Scope F
  output : List Char

namespace Rendering

variable (r : Rendering F)

/-- `output.push_str(text)`. -/
def pushStr (text : List Char) : Rendering F := ⟨r.scope, r.output ++ text⟩

def set (name : List Char) (value : Value F) : Rendering F := ⟨r.scope.set name value, r.output⟩

def push : Rendering F := ⟨r.scope.push, r.output⟩

def pop : Rendering F := ⟨r.scope.pop, r.output⟩

end Rendering

/-- `evaluate(expression, scope)?`. -/
def evaluateIn (expression : Expression F) : Exec (Rendering F) ChatTemplateError (Value F) := do
  let r ← self
  ofResult (evaluate r.scope expression)

/-- What a loop goes over. -/
def Value.items (value : Value F) : Except ChatTemplateError (List (Value F)) :=
  match value with
  | .list values => .ok values
  | .undefined => .ok []
  | .null => .ok []
  | other => .error (.render s!"cannot iterate over {String.ofList other.render}")

def loopObject (index length : Nat) : List (List Char × Value F) :=
  let object := BTreeMap.insert "first".toList (.bool (index == 0)) []
  let object := BTreeMap.insert "last".toList (.bool (index + 1 == length)) object
  let object := BTreeMap.insert "index0".toList (.number (F64.ofNat index)) object
  let object := BTreeMap.insert "index".toList (.number (F64.ofNat (index + 1))) object
  BTreeMap.insert "length".toList (.number (F64.ofNat length)) object

/-- The rounds of a loop; the frame is popped before the result of the body is looked at. -/
def renderRounds (name : List Char) (length : Nat) (body : Exec (Rendering F) ChatTemplateError Unit) :
    Nat → List (Value F) → Exec (Rendering F) ChatTemplateError Unit
  | _, [] => pure ()
  | index, value :: rest => do
    modify Rendering.push
    modify (·.set name value)
    modify (·.set "loop".toList (.object (loopObject index length)))
    let result ← attempt body
    modify Rendering.pop
    ofResult result
    renderRounds name length body (index + 1) rest

mutual

def Node.render : Node (Expression F) → Exec (Rendering F) ChatTemplateError Unit
  | .text text => modify (·.pushStr text)
  | .output expression => do
    let value ← evaluateIn expression
    modify (·.pushStr value.render)
  | .cond branches otherwise => do
    let matched ← renderBranches branches
    if matched then pure () else renderOtherwise otherwise
  | .loop name iterable body => do
    let value ← evaluateIn iterable
    let values ← ofResult value.items
    renderRounds name values.length (renderNodes body) 0 values
  | .set name value => do
    let value ← evaluateIn value
    modify (·.set name value)

def renderNodes : List (Node (Expression F)) → Exec (Rendering F) ChatTemplateError Unit
  | [] => pure ()
  | node :: rest => do
    node.render
    renderNodes rest

/-- The first branch whose condition holds, if there is one. -/
def renderBranches : List (Expression F × List (Node (Expression F))) →
    Exec (Rendering F) ChatTemplateError Bool
  | [] => pure false
  | (condition, body) :: rest => do
    let value ← evaluateIn condition
    if value.truthy then renderNodes body >>= fun _ => pure true else renderBranches rest

def renderOtherwise : Option (List (Node (Expression F))) →
    Exec (Rendering F) ChatTemplateError Unit
  | none => pure ()
  | some body => renderNodes body

end

/-! ## What rendering leaves of the scope -/

section frames

variable {below : List (List (List Char × Value F))} {depth : Nat}

/-- The depth of the stack and the frames below its top. -/
def Below (below : List (List (List Char × Value F))) (depth : Nat) (r : Rendering F) : Prop :=
  r.scope.frames.dropLast = below ∧ r.scope.frames.length = depth

omit [F64 F] in
theorem Below.set {r : Rendering F} (h : Below below depth r) (name : List Char) (value : Value F) :
    Below below depth (r.set name value) := by
  obtain ⟨hbelow, hdepth⟩ := h
  unfold Below Rendering.set Scope.set
  cases hlast : r.scope.frames.getLast? with
  | none => exact ⟨hbelow, hdepth⟩
  | some frame =>
    obtain ⟨front, hframes⟩ := List.getLast?_eq_some_iff.mp hlast
    rw [hframes, List.dropLast_concat] at hbelow ⊢
    rw [hframes, List.length_append] at hdepth
    dsimp only
    rw [List.dropLast_concat, List.length_append]
    exact ⟨hbelow, hdepth⟩

omit [F64 F] in
theorem Below.pop {r : Rendering F} (h : Below below depth r) : r.pop.scope = ⟨below⟩ := by
  rw [Rendering.pop, Scope.pop, h.1]

theorem settles_evaluateIn {I : Rendering F → Prop} (expression : Expression F) :
    Settles I (evaluateIn expression) :=
  .bind .self fun _ => .ofResult _

/-- A round leaves the whole scope as it was, whatever the body does in its frame. -/
theorem settles_renderRounds {body : Exec (Rendering F) ChatTemplateError Unit}
    (hbody : ∀ below depth, Settles (Below below depth) body) (scope : Scope F) (name : List Char)
    (length index : Nat) (values : List (Value F)) :
    Settles (fun r => r.scope = scope) (renderRounds name length body index values) := by
  induction values generalizing index with
  | nil => exact .pure ()
  | cons value rest ih =>
    rintro r rfl
    have hpushed : Below r.scope.frames (r.scope.frames.length + 1) r.push :=
      ⟨List.dropLast_concat, by rw [Rendering.push, Scope.push, List.length_append]; rfl⟩
    have hbound := (hpushed.set name value).set "loop".toList (.object (loopObject index length))
    rw [renderRounds, ends_bind, ends_modify, ends_bind, ends_modify, ends_bind, ends_modify,
      ends_bind, ends_attempt]
    refine (hbody _ _ _ hbound).mono ?_ ?_ fun _ _ h => h
    · intro _ t ht
      rw [ends_bind, ends_modify]
      exact ih (index + 1) t.pop ht.pop
    · intro error t ht
      rw [ends_bind, ends_modify]
      exact ht.pop

omit [F64 F] in
/-- What leaves the whole scope leaves its lower frames. -/
theorem settles_of_scope {α : Type} {m : Exec (Rendering F) ChatTemplateError α}
    (h : ∀ scope, Settles (fun r => r.scope = scope) m) : Settles (Below below depth) m := by
  intro r hr
  have hscope : ∀ t : Rendering F, t.scope = r.scope → Below below depth t := by
    intro t ht
    rw [Below, ht]
    exact hr
  exact (h r.scope r rfl).mono (fun _ => hscope) (fun _ => hscope) fun _ _ h => h

theorem Node.settles (node : Node (Expression F)) :
    ∀ below depth, Settles (Below below depth) node.render := by
  refine @Node.rec _ (fun node => ∀ below depth, Settles (Below below depth) node.render)
    (fun branches => ∀ below depth, Settles (Below below depth) (renderBranches branches))
    (fun otherwise => ∀ below depth, Settles (Below below depth) (renderOtherwise otherwise))
    (fun nodes => ∀ below depth, Settles (Below below depth) (renderNodes nodes))
    (fun branch => ∀ below depth, Settles (Below below depth) (renderNodes branch.2))
    ?text ?output ?cond ?loop ?set ?noBranch ?branch ?noOtherwise ?otherwise ?nil ?cons ?body node
  case text =>
    intro text below depth
    rw [Node.render]
    exact .modify fun _ h => h
  case output =>
    intro expression below depth
    rw [Node.render]
    exact .bind (settles_evaluateIn expression) fun _ => .modify fun _ h => h
  case cond =>
    intro branches otherwise hbranches hotherwise below depth
    rw [Node.render]
    refine .bind (hbranches below depth) fun matched => ?_
    cases matched
    · exact hotherwise below depth
    · exact .pure ()
  case loop =>
    intro name iterable body hbody below depth
    rw [Node.render]
    refine .bind (settles_evaluateIn iterable) fun value => .bind (.ofResult _) fun values => ?_
    exact settles_of_scope fun scope => settles_renderRounds hbody scope name _ 0 values
  case set =>
    intro name value below depth
    rw [Node.render]
    exact .bind (settles_evaluateIn value) fun value => .modify fun _ h => h.set name value
  case noBranch =>
    intro below depth
    rw [renderBranches]
    exact .pure false
  case branch =>
    rintro ⟨condition, body⟩ rest hbody hrest below depth
    rw [renderBranches]
    refine .bind (settles_evaluateIn condition) fun value => ?_
    split
    · exact .bind (hbody below depth) fun _ => .pure true
    · exact hrest below depth
  case noOtherwise =>
    intro below depth
    rw [renderOtherwise]
    exact .pure ()
  case otherwise =>
    intro body hbody below depth
    rw [renderOtherwise]
    exact hbody below depth
  case nil =>
    intro below depth
    rw [renderNodes]
    exact .pure ()
  case cons =>
    intro node rest hnode hrest below depth
    rw [renderNodes]
    exact .bind (hnode below depth) fun _ => hrest below depth
  case body =>
    intro condition body hbody
    exact hbody

theorem settles_renderNodes (nodes : List (Node (Expression F)))
    (below : List (List (List Char × Value F))) (depth : Nat) :
    Settles (Below below depth) (renderNodes nodes) := by
  induction nodes with
  | nil =>
    rw [renderNodes]
    exact .pure ()
  | cons node rest ih =>
    rw [renderNodes]
    exact .bind (node.settles below depth) fun _ => ih

theorem settles_loop (name : List Char) (iterable : Expression F) (body : List (Node (Expression F)))
    (scope : Scope F) : Settles (fun r => r.scope = scope) (Node.loop name iterable body).render := by
  rw [Node.render]
  exact .bind (settles_evaluateIn iterable) fun value => .bind (.ofResult _) fun values =>
    settles_renderRounds (settles_renderNodes body) scope name _ 0 values

/-- Rendering ends in `Ok` or `Err` with the stack at its depth and the frames below the top
as before; and a loop, which binds names in frames of its own, leaves the whole scope. -/
theorem renderNodes_scope (nodes : List (Node (Expression F))) (r : Rendering F) :
    (∀ message, (renderNodes nodes r).1 ≠ .panic message) ∧
      (renderNodes nodes r).2.scope.frames.length = r.scope.frames.length ∧
      (renderNodes nodes r).2.scope.frames.dropLast = r.scope.frames.dropLast ∧
      ∀ name iterable body, ((Node.loop name iterable body).render r).2.scope = r.scope := by
  have hnodes := settles_renderNodes nodes r.scope.frames.dropLast r.scope.frames.length
  have hbelow := hnodes.state (s := r) ⟨rfl, rfl⟩
  refine ⟨hnodes.total ⟨rfl, rfl⟩, hbelow.2, hbelow.1, fun name iterable body => ?_⟩
  exact (settles_loop name iterable body r.scope).state rfl

end frames

end ChatTemplate
end Ramforge
