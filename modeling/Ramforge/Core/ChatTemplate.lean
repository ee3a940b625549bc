/-
The parser of chat templates.

A source is cut into text, output and statement tokens, and the tokens are parsed by
recursive descent.  The parser only hands the text of an expression on, so it is
written over any expression parser.
-/
import Ramforge.Rust.Unicode

namespace Ramforge

open Rust

inductive ChatTemplateError where
  | missing
  | parse (message : String)
  | unsupported (construct : String)
  | render (message : String)
deriving DecidableEq, Repr

def ChatTemplateError.display : ChatTemplateError → String
  | .missing => "model does not declare tokenizer.chat_template"
  | .parse message => s!"invalid tokenizer.chat_template: {message}"
  | .unsupported construct => s!"unsupported tokenizer.chat_template construct: {construct}"
  | .render message => s!"failed to render tokenizer.chat_template: {message}"

namespace ChatTemplate

inductive TemplateToken where
  | text (text : List Char)
  | expression (source : List Char)
  | statement (statement : List Char)
deriving DecidableEq, Repr

/-! ## Tokens -/

/-- The text before the closing marker and the text after it.  Markers inside quotes do
not count. -/
def findTagEnd (marker : List Char) : Option Char → Bool → List Char → Option (List Char × List Char)
  | _, _, [] => none
  | quote, true, c :: rest =>
    (findTagEnd marker quote false rest).map fun parts => (c :: parts.1, parts.2)
  | some active, false, c :: rest =>
    let found :=
      if c = '\\' then findTagEnd marker (some active) true rest
      else if c = active then findTagEnd marker none false rest
      else findTagEnd marker (some active) false rest
    found.map fun parts => (c :: parts.1, parts.2)
  | none, false, c :: rest =>
    if c = '\'' ∨ c = '"' then
      (findTagEnd marker (some c) false rest).map fun parts => (c :: parts.1, parts.2)
    else if marker.isPrefixOf (c :: rest) then some ([], (c :: rest).drop marker.length)
    else (findTagEnd marker none false rest).map fun parts => (c :: parts.1, parts.2)

/-- The closing marker of the tag that starts here. -/
def closeMarker : List Char → Option (List Char)
  | '{' :: '{' :: _ => some ['}', '}']
  | '{' :: '%' :: _ => some ['%', '}']
  | '{' :: '#' :: _ => some ['#', '}']
  | _ => none

/-- The text token before a tag or the end; none where nothing is left of it. -/
def textToken (trimStart trimEnd : Bool) (text : List Char) : List TemplateToken :=
  let text := if trimStart then Unicode.trimStart text else text
  let text := if trimEnd then Unicode.trimEnd text else text
  if text = [] then [] else [.text text]

def utf8Length (s : List Char) : Nat := (s.map Char.utf8Size).sum

/-- The loop of `tokenize_template`: `text` is what has come since the last tag, `cursor`
the byte position.  Each round takes a character, so `fuel` counts characters. -/
def tokenizeFrom : Nat → Nat → Bool → List Char → List Char →
    Except ChatTemplateError (List TemplateToken)
  | 0, _, trimNextText, text, _ => .ok (textToken trimNextText false text)
  | fuel + 1, cursor, trimNextText, text, source =>
    match closeMarker source with
    | none =>
      match source with
      | [] => .ok (textToken trimNextText false text)
      | c :: rest => tokenizeFrom fuel (cursor + c.utf8Size) trimNextText (text ++ [c]) rest
    | some marker => do
      let content := source.drop 2
      let trimBefore := content.head? = some '-'
      let content := if trimBefore then content.drop 1 else content
      match findTagEnd marker none false content with
      | none => throw (.parse s!"unterminated template tag at byte {cursor}")
      | some (inner, rest) =>
        let trimAfter := inner.getLast? = some '-'
        let body := Unicode.trim (if trimAfter then inner.dropLast else inner)
        let tag ←
          if marker = ['#', '}'] then pure []
          else if body = [] then throw (.parse s!"empty template tag at byte {cursor}")
          else if marker = ['}', '}'] then pure [TemplateToken.expression body]
          else pure [.statement body]
        let consumed := 2 + (if trimBefore then 1 else 0) + utf8Length inner + 2
        let tokens ← tokenizeFrom fuel (cursor + consumed) trimAfter [] rest
        return textToken trimNextText trimBefore text ++ tag ++ tokens

def tokenizeTemplate (source : String) : Except ChatTemplateError (List TemplateToken) :=
  tokenizeFrom (source.toList.length + 1) 0 false [] source.toList

/-! ## Nodes -/

inductive Node (E : Type) where
  | text (text : List Char)
  | output (value : E)
  | cond (branches : List (E × List (Node E))) (otherwise : Option (List (Node E)))
  | loop (name : List Char) (iterable : E) (body : List (Node E))
  | set (name : List Char) (value : E)

variable {E : Type} (parseExpression : List Char → Except ChatTemplateError E)

/-- The variable and the source of the value. -/
def setParts (statement : List Char) : Except ChatTemplateError (List Char × List Char) := do
  let rest ←
    match Unicode.stripPrefix "set".toList statement with
    | some rest => pure (Unicode.trim rest)
    | none => throw (.parse "missing set statement")
  match Unicode.splitOnce ['='] rest with
  | none => throw (.parse "set statement must use 'set name = expression'")
  | some (name, value) =>
    let name := Unicode.trim name
    if name = [] ∨ name.any Unicode.isWhitespace then
      throw (.parse "set variable must be a single identifier")
    return (name, Unicode.trim value)

def parseSet (statement : List Char) : Except ChatTemplateError (Node E) := do
  let (name, value) ← setParts statement
  return .set name (← parseExpression value)

/-- The variable and the source of the iterable. -/
def forParts (statement : List Char) : Except ChatTemplateError (List Char × List Char) := do
  let rest ←
    match Unicode.stripPrefix "for".toList statement with
    | some rest => pure (Unicode.trim rest)
    | none => throw (.parse "missing for loop")
  match Unicode.splitOnce " in ".toList rest with
  | none => throw (.parse "for loop must use 'for name in expression'")
  | some (name, iterable) =>
    let name := Unicode.trim name
    if name = [] ∨ name.any Unicode.isWhitespace then
      throw (.parse "for loop variable must be a single identifier")
    return (name, Unicode.trim iterable)

/-- The source of the condition after `if` or `elif`. -/
def conditionOf (keyword : String) (statement : List Char) :
    Except ChatTemplateError (List Char) := do
  match Unicode.stripPrefix keyword.toList statement with
  | none => throw (.parse s!"missing {keyword} condition")
  | some rest =>
    let condition := Unicode.trim rest
    if condition = [] then throw (.parse s!"empty {keyword} condition")
    return condition

def keywordOf (statement : List Char) : String := String.ofList (Unicode.firstWord statement)

/-! ## The parser

The rest of the tokens is the state.  A terminator stays in it.  Each call takes its
fuel from the one that makes it. -/

def outOfFuel : ChatTemplateError := .parse "out of fuel"

/-- Nodes, the terminator that ended them, and the tokens from the terminator on. -/
abbrev Parsed (E : Type) : Type := List (Node E) × Option (List Char) × List TemplateToken

mutual

def parseNodes : Nat → List String → List TemplateToken → Except ChatTemplateError (Parsed E)
  | 0, _, _ => .error outOfFuel
  | _ + 1, _, [] => .ok ([], none, [])
  | fuel + 1, terminators, .text text :: rest => do
    let (nodes, terminator, rest) ← parseNodes fuel terminators rest
    return (.text text :: nodes, terminator, rest)
  | fuel + 1, terminators, .expression source :: rest => do
    let value ← parseExpression source
    let (nodes, terminator, rest) ← parseNodes fuel terminators rest
    return (.output value :: nodes, terminator, rest)
  | fuel + 1, terminators, .statement statement :: rest =>
    let keyword := keywordOf statement
    if keyword ∈ terminators then .ok ([], some statement, .statement statement :: rest)
    else if keyword = "if" then do
      let condition ← conditionOf "if" statement
      let (node, rest) ← parseIf fuel condition rest
      let (nodes, terminator, rest) ← parseNodes fuel terminators rest
      return (node :: nodes, terminator, rest)
    else if keyword = "for" then do
      let (node, rest) ← parseFor fuel statement rest
      let (nodes, terminator, rest) ← parseNodes fuel terminators rest
      return (node :: nodes, terminator, rest)
    else if keyword = "set" then do
      let node ← parseSet parseExpression statement
      let (nodes, terminator, rest) ← parseNodes fuel terminators rest
      return (node :: nodes, terminator, rest)
    else if keyword = "elif" ∨ keyword = "else" ∨ keyword = "endif" ∨ keyword = "endfor" then
      .ok ([], some statement, .statement statement :: rest)
    else if keyword = "" then .error (.parse "empty template statement")
    else .error (.unsupported s!"statement '{keyword}'")

def parseIf : Nat → List Char → List TemplateToken →
    Except ChatTemplateError (Node E × List TemplateToken)
  | 0, _, _ => .error outOfFuel
  | fuel + 1, condition, rest => do
    let condition ← parseExpression condition
    let (body, terminator, rest) ← parseNodes fuel ["elif", "else", "endif"] rest
    parseBranches fuel [(condition, body)] none terminator rest

/-- The loop of `parse_if`. -/
def parseBranches : Nat → List (E × List (Node E)) → Option (List (Node E)) → Option (List Char) →
    List TemplateToken → Except ChatTemplateError (Node E × List TemplateToken)
  | 0, _, _, _, _ => .error outOfFuel
  | _ + 1, _, _, none, _ => .error (.parse "unterminated if statement")
  | fuel + 1, branches, otherwise, some current, rest =>
    let keyword := keywordOf current
    if keyword = "elif" then do
      let condition ← conditionOf "elif" current
      let (body, next, rest) ← parseNodes fuel ["elif", "else", "endif"] rest.tail
      let condition ← parseExpression condition
      parseBranches fuel (branches ++ [(condition, body)]) otherwise next rest
    else if keyword = "else" then do
      let (body, next, rest) ← parseNodes fuel ["endif"] rest.tail
      parseBranches fuel branches (some body) next rest
    else if keyword = "endif" then .ok (.cond branches otherwise, rest.tail)
    else .error (.parse s!"unexpected terminator '{String.ofList current}'")

def parseFor : Nat → List Char → List TemplateToken →
    Except ChatTemplateError (Node E × List TemplateToken)
  | 0, _, _ => .error outOfFuel
  | fuel + 1, statement, rest => do
    let (name, iterable) ← forParts statement
    let (body, terminator, rest) ← parseNodes fuel ["endfor"] rest
    match terminator with
    | none => throw (.parse "unterminated for statement")
    | some terminator =>
      if keywordOf terminator ≠ "endfor" then
        throw (.parse s!"unexpected for terminator '{String.ofList terminator}'")
      return (.loop name (← parseExpression iterable) body, rest.tail)

end

/-- Three calls stand between two tokens at most. -/
def enoughFuel (tokens : List TemplateToken) : Nat := 3 * tokens.length + 1

def parseTokens (tokens : List TemplateToken) : Except ChatTemplateError (List (Node E)) := do
  let (nodes, terminator, _) ← parseNodes parseExpression (enoughFuel tokens) [] tokens
  match terminator with
  | some terminator =>
    throw (.parse s!"unexpected template terminator '{String.ofList terminator}'")
  | none => return nodes

def parse (source : String) : Except ChatTemplateError (List (Node E)) := do
  parseTokens parseExpression (← tokenizeTemplate source)

end ChatTemplate
end Ramforge
