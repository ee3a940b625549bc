/-
Values that are stored as JSON text in a file of bounded length.

The serializer and the file system are given from outside: what they answer is all that a
load depends on.
-/
import Ramforge.Rust.Call

namespace Rust

variable {α ε : Type}

/-- `serde_json` for one type, with its errors as texts. -/
structure Json (α : Type) where
  toVecPretty : α → Except String (List UInt8)
  fromSlice : List UInt8 → Except String α

/-- What was written is read back. -/
def Json.RoundTrips (json : Json α) : Prop :=
  ∀ a bytes, json.toVecPretty a = .ok bytes → json.fromSlice bytes = .ok a

/-- A serializer as far as one value goes. -/
def Json.only [DecidableEq α] (a : α) (bytes : List UInt8) : Json α where
  toVecPretty b := if b = a then .ok bytes else .error "unsupported value"
  fromSlice b := if b = bytes then .ok a else .error "expected value at line 1 column 1"

theorem Json.only_written [DecidableEq α] (a : α) (bytes : List UInt8) :
    (Json.only a bytes).toVecPretty a = .ok bytes := if_pos rfl

theorem Json.only_roundTrips [DecidableEq α] (a : α) (bytes : List UInt8) :
    (Json.only a bytes).RoundTrips := by
  intro b bs h
  have hwritten : (if b = a then Except.ok bytes else .error "unsupported value") = .ok bs := h
  split at hwritten
  next hb =>
    rw [hb, ← Except.ok.inj hwritten]
    exact if_pos rfl
  next => cases hwritten

/-- What `fs::metadata` and `fs::read` answer for a path. -/
structure FileView where
  metadataLen : Except String Nat
  read : Except String (List UInt8)

/-- A file with these bytes. -/
def FileView.holding (bytes : List UInt8) : FileView where
  metadataLen := .ok bytes.length
  read := .ok bytes

namespace Outcome

/-- `result.map_err(f)`. -/
def ofExcept (f : String → ε) : Except String α → Outcome ε α
  | .ok a => .ok a
  | .error e => .err (f e)

@[simp] theorem ofExcept_ok (f : String → ε) (a : α) : ofExcept f (.ok a) = .ok a := rfl

theorem of_ofExcept_ok {f : String → ε} {r : Except String α} {a : α} (h : ofExcept f r = .ok a) :
    r = .ok a := by
  cases r with
  | ok b => cases h; rfl
  | error e => cases h

end Outcome

/-- What the loaders have in common: the errors of each step, and the limit. -/
structure Loader (ε : Type) where
  limit : Nat
  metadata : String → ε
  tooLarge : Nat → Nat → ε
  read : String → ε
  json : String → ε

/-- The length is checked before the file is read. -/
def Loader.load (loader : Loader ε) (json : Json α) (file : FileView) : Outcome ε α := do
  let length ← Outcome.ofExcept loader.metadata file.metadataLen
  Outcome.failIf (loader.limit < length) (loader.tooLarge length loader.limit)
  let bytes ← Outcome.ofExcept loader.read file.read
  Outcome.ofExcept loader.json (json.fromSlice bytes)

/-- What was written within the limit is loaded again. -/
theorem Loader.load_holding {loader : Loader ε} {json : Json α} {a : α} {bytes : List UInt8}
    (h : json.RoundTrips) (hbytes : json.toVecPretty a = .ok bytes)
    (hlimit : bytes.length ≤ loader.limit) : loader.load json (.holding bytes) = .ok a := by
  rw [load, FileView.holding, Outcome.ofExcept_ok, Outcome.ok_bind,
    Outcome.failIf_of_not (Nat.not_lt.mpr hlimit), Outcome.ok_bind, Outcome.ofExcept_ok,
    Outcome.ok_bind, h a bytes hbytes, Outcome.ofExcept_ok]

end Rust
