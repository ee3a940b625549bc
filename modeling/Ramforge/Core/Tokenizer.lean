/-
The vocabulary of a tokenizer.

Strings are lists of characters here.  The scores keep their own type.
-/
import Ramforge.Rust.Call
import Ramforge.Rust.Grouping
import Ramforge.Rust.Unicode
import Ramforge.Rust.Utf8

namespace Ramforge

open Rust

inductive TokenType where
  | normal
  | unknown
  | control
  | userDefined
  | unused
  | byte
deriving DecidableEq, Repr

def TokenType.fromI32 : Int → TokenType
  | 2 => .unknown
  | 3 => .control
  | 4 => .userDefined
  | 5 => .unused
  | 6 => .byte
  | _ => .normal

/-- The inverse of GPT-2's `bytes_to_unicode` alphabet. -/
def gpt2CharToByte (c : Char) : Option UInt8 :=
  let cp := c.toNat
  if 0x21 ≤ cp ∧ cp ≤ 0x7E ∨ 0xA1 ≤ cp ∧ cp ≤ 0xAC ∨ 0xAE ≤ cp ∧ cp ≤ 0xFF then
    some (UInt8.ofNat cp)
  else if 0x100 ≤ cp ∧ cp ≤ 0x120 then some (UInt8.ofNat (cp - 0x100))
  else if 0x121 ≤ cp ∧ cp ≤ 0x142 then some (UInt8.ofNat (127 + (cp - 0x121)))
  else if cp = 0x143 then some 0xAD
  else none

def gpt2TokenBytes (token : List Char) : Option (List UInt8) := token.mapM gpt2CharToByte

/-- `char::to_digit(16)`. -/
def hexDigit (c : Char) : Option Nat :=
  if '0' ≤ c ∧ c ≤ '9' then some (c.toNat - 48)
  else if 'a' ≤ c ∧ c ≤ 'f' then some (c.toNat - 87)
  else if 'A' ≤ c ∧ c ≤ 'F' then some (c.toNat - 55)
  else none

/-- The digits of `from_str_radix(_, 16)`, while they stay in a byte. -/
def hexValue (digits : List Char) : Option Nat :=
  digits.foldlM (fun value c => do
    let digit ← hexDigit c
    if value * 16 + digit < 256 then some (value * 16 + digit) else none) 0

/-- `u8::from_str_radix(_, 16)`, which takes a plus sign. -/
def u8FromHex : List Char → Option UInt8
  | [] => none
  | ['+'] => none
  | '+' :: digits => (hexValue digits).map UInt8.ofNat
  | digits => (hexValue digits).map UInt8.ofNat

/-- A token of the form `<0xHH>`.  The three bytes before the digits and the one after
them are ASCII, so `token[3..5]` starts and ends between characters. -/
def isByteLiteral (token : List Char) : Bool :=
  "<0x".toList.isPrefixOf token && token.getLast? == some '>' && Utf8.len token == 6

def literalDigits (token : List Char) : List Char := (token.drop 3).dropLast

structure Tokenizer (S : Type) where
  model : String
  pre : Option String
  tokens : List (List Char)
  scores : List S
  tokenTypes : List TokenType
  merges : Option (List (List Char))
  bosId : Option UInt32
  eosId : Option UInt32
  unkId : Option UInt32
  padId : Option UInt32
  addBos : Bool
  addEos : Bool
  tokenToId : List (List Char × UInt32)
  mergesRank : List ((List Char × List Char) × Nat)
  byteTokens : List (UInt8 × UInt32)
  specialTokens : List (List Char × UInt32)

namespace Tokenizer

variable {S : Type}

def usesGpt2ByteEncoding (t : Tokenizer S) : Bool := t.model == "gpt2" || t.model == "qwen2"

end Tokenizer
end Ramforge

/-!
The decoder of tokens, one at a time.

A token gives bytes or text.  Bytes wait until they are whole characters.
-/

namespace Ramforge

open Rust Outcome

structure TokenDecoder where
  pendingBytes : List UInt8
  atStart : Bool
deriving DecidableEq, Repr

namespace TokenDecoder

variable {S : Type} (t : Tokenizer S)

def new : TokenDecoder where
  pendingBytes := []
  atStart := true

def emitText (d : TokenDecoder) (text : List Char) : List Char × TokenDecoder :=
  let emitted := if d.atStart ∧ t.model = "llama" then Unicode.trimStart text else text
  (emitted, if emitted = [] then d else { d with atStart := false })

/-- The loop of `drain_bytes`.  Each round but the last takes bytes from the pending ones. -/
def drainLoop (finish : Bool) : Nat → TokenDecoder → Outcome Empty (List Char × TokenDecoder)
  | 0, d => pure ([], d)
  | fuel + 1, d =>
    if d.pendingBytes = [] then pure ([], d)
    else
      match Utf8.fromUtf8 d.pendingBytes with
      | .ok valid => pure (emitText t { d with pendingBytes := [] } valid)
      | .error error =>
        if 0 < error.validUpTo then do
          let valid ← expect (Utf8.fromUtf8 (d.pendingBytes.take error.validUpTo)).toOption
            "UTF-8 valid prefix reported by from_utf8"
          let emitted :=
            emitText t { d with pendingBytes := d.pendingBytes.drop error.validUpTo } valid
          let rest ← drainLoop finish fuel emitted.2
          return (emitted.1 ++ rest.1, rest.2)
        else
          match error.errorLen with
          | some errorLen => do
            let emitted :=
              emitText t { d with pendingBytes := d.pendingBytes.drop errorLen } ['\uFFFD']
            let rest ← drainLoop finish fuel emitted.2
            return (emitted.1 ++ rest.1, rest.2)
          | none =>
            if finish then
              pure (emitText t { d with pendingBytes := [] } (Utf8.lossy d.pendingBytes))
            else pure ([], d)

def drainBytes (finish : Bool) (d : TokenDecoder) : Outcome Empty (List Char × TokenDecoder) :=
  drainLoop t finish (d.pendingBytes.length + 1) d

def normalizeChar (c : Char) : Char := if c = '▁' ∨ c = 'Ġ' then ' ' else c

/-- `token.replace(['▁', 'Ġ'], " ")`. -/
def normalized (token : List Char) : List Char := token.map normalizeChar

def push (d : TokenDecoder) (id : UInt32) : Outcome Empty (List Char × TokenDecoder) :=
  if (some id = t.bosId ∨ some id = t.eosId) ∧ t.tokenTypes[id.toNat]? = some .control then
    pure ([], d)
  else
    match t.tokens[id.toNat]? with
    | none => pure ([], d)
    | some token =>
      match if isByteLiteral token then u8FromHex (literalDigits token) else none with
      | some byte => drainBytes t false { d with pendingBytes := d.pendingBytes ++ [byte] }
      | none =>
        if t.tokenTypes[id.toNat]? = some .byte ∧ Utf8.len token = 1 then
          drainBytes t false
            { d with pendingBytes := d.pendingBytes ++ (Utf8.encode token).take 1 }
        else
          match if t.usesGpt2ByteEncoding then gpt2TokenBytes token else none with
          | some bytes => drainBytes t false { d with pendingBytes := d.pendingBytes ++ bytes }
          | none => do
            let drained ← drainBytes t true d
            let emitted := emitText t drained.2 (normalized token)
            return (drained.1 ++ emitted.1, emitted.2)

def finish (d : TokenDecoder) : Outcome Empty (List Char × TokenDecoder) := drainBytes t true d

/-- The outputs of the pushes, one after the other. -/
def pushAll (d : TokenDecoder) : List UInt32 → Outcome Empty (List Char × TokenDecoder)
  | [] => pure ([], d)
  | id :: ids => do
    let pushed ← push t d id
    let rest ← pushAll pushed.2 ids
    return (pushed.1 ++ rest.1, rest.2)

end TokenDecoder

/-- `Tokenizer::decode`. -/
def Tokenizer.decode {S : Type} (t : Tokenizer S) (ids : List UInt32) :
    Outcome Empty (List Char) := do
  let pushed ← TokenDecoder.pushAll t TokenDecoder.new ids
  let finished ← TokenDecoder.finish t pushed.2
  return pushed.1 ++ finished.1

end Ramforge
