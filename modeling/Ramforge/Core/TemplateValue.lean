/-
The values of chat templates and their texts.

A number is an `f64`, of which the templates use a few operations.  A map is the list of
its entries in the order of their keys.
-/
import Ramforge.Rust.Grouping

namespace Ramforge

open Rust

/-- The operations of `f64` in the template code. -/
class F64 (F : Type) where
  add : F → F → F
  sub : F → F → F
  /-- `==`. -/
  eq : F → F → Bool
  lt : F → F → Bool
  le : F → F → Bool
  /-- `as f64` of a `usize`. -/
  ofNat : Nat → F
  /-- `value.fract() == 0.0 && value.is_finite()`. -/
  isWhole : F → Bool
  /-- `as i64` and `as isize`. -/
  toI64 : F → Int
  /-- `to_string`. -/
  display : F → List Char

namespace ChatTemplate

inductive Value (F : Type) where
  | undefined
  | null
  | bool (value : Bool)
  | number (value : F)
  | string (value : List Char)
  | list (values : List (Value F))
  | object (entries : List (List Char × Value F))

variable {F : Type}

/-- `format!("{}", n)` of an integer. -/
def intText (n : Int) : List Char := (toString n).toList

/-- `format!("\\u{:04x}", c as u32)`. -/
def unicodeEscape (c : Char) : List Char :=
  '\\' :: 'u' :: (Nat.toDigits 16 c.toNat).leftpad 4 '0'

/-- `char::is_control`. -/
def isControl (c : Char) : Bool := c.toNat < 0x20 || 0x7F ≤ c.toNat && c.toNat < 0xA0

def jsonChar (c : Char) : List Char :=
  if c = '"' then ['\\', '"']
  else if c = '\\' then ['\\', '\\']
  else if c = '\n' then ['\\', 'n']
  else if c = '\r' then ['\\', 'r']
  else if c = '\t' then ['\\', 't']
  else if isControl c then unicodeEscape c
  else [c]

def jsonString (value : List Char) : List Char := '"' :: value.flatMap jsonChar ++ ['"']

/-- `bool::to_string`. -/
def boolText (value : Bool) : List Char := (if value then "true" else "false").toList

variable [F64 F]

def numberText (value : F) : List Char :=
  if F64.isWhole value then intText (F64.toI64 value) else F64.display value

namespace Value

def truthy : Value F → Bool
  | .undefined => false
  | .null => false
  | .bool value => value
  | .number value => !F64.eq value (F64.ofNat 0)
  | .string value => !value.isEmpty
  | .list values => !values.isEmpty
  | .object entries => !entries.isEmpty

mutual

def render : Value F → List Char
  | .undefined => []
  | .null => "none".toList
  | .bool value => boolText value
  | .number value => numberText value
  | .string value => value
  | .list values => '[' :: ", ".toList.intercalate (renderValues values) ++ [']']
  | .object entries => '{' :: ", ".toList.intercalate (renderEntries entries) ++ ['}']

def renderValues : List (Value F) → List (List Char)
  | [] => []
  | value :: rest => value.render :: renderValues rest

def renderEntries : List (List Char × Value F) → List (List Char)
  | [] => []
  | (key, value) :: rest => (key ++ ": ".toList ++ value.render) :: renderEntries rest

end

mutual

def toJson : Value F → List Char
  | .undefined => "null".toList
  | .null => "null".toList
  | .bool value => boolText value
  | .number value => numberText value
  | .string value => jsonString value
  | .list values => '[' :: [','].intercalate (toJsonValues values) ++ [']']
  | .object entries => '{' :: [','].intercalate (toJsonEntries entries) ++ ['}']

def toJsonValues : List (Value F) → List (List Char)
  | [] => []
  | value :: rest => value.toJson :: toJsonValues rest

def toJsonEntries : List (List Char × Value F) → List (List Char)
  | [] => []
  | (key, value) :: rest => (jsonString key ++ ':' :: value.toJson) :: toJsonEntries rest

end

mutual

/-- `==`. -/
def eq : Value F → Value F → Bool
  | .undefined, .undefined => true
  | .null, .null => true
  | .bool left, .bool right => left == right
  | .number left, .number right => F64.eq left right
  | .string left, .string right => left == right
  | .list left, .list right => eqValues left right
  | .object left, .object right => eqEntries left right
  | _, _ => false

def eqValues : List (Value F) → List (Value F) → Bool
  | [], [] => true
  | left :: lefts, right :: rights => left.eq right && eqValues lefts rights
  | _, _ => false

def eqEntries : List (List Char × Value F) → List (List Char × Value F) → Bool
  | [], [] => true
  | (key, left) :: lefts, (key', right) :: rights =>
    key == key' && left.eq right && eqEntries lefts rights
  | _, _ => false

end

end Value
end ChatTemplate
end Ramforge
