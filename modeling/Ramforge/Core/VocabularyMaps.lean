/-
What the maps of a vocabulary say about its tokens.
-/
import Ramforge.Core.Detokenize
import Ramforge.Core.TokenEncoder

namespace Ramforge

open Rust

def hexChar (n : Nat) : Char := if n < 10 then Char.ofNat (48 + n) else Char.ofNat (55 + n)

/-- The token `<0xHH>` of a byte. -/
def byteLiteral (b : UInt8) : List Char :=
  "<0x".toList ++ [hexChar (b.toNat / 16), hexChar (b.toNat % 16), '>']

theorem byteLiteral_spec (b : UInt8) :
    isByteLiteral (byteLiteral b) = true ∧ u8FromHex (literalDigits (byteLiteral b)) = some b := by
  have hall : ∀ n < 256, isByteLiteral (byteLiteral (UInt8.ofNat n)) = true ∧
      u8FromHex (literalDigits (byteLiteral (UInt8.ofNat n))) = some (UInt8.ofNat n) := by
    decide +kernel
  have := hall b.toNat b.toNat_lt
  rwa [UInt8.ofNat_toNat] at this

theorem lt_of_isByteLiteral {token : List Char} (h : isByteLiteral token = true) : '<' ∈ token := by
  unfold isByteLiteral at h
  rw [Bool.and_eq_true, Bool.and_eq_true, List.isPrefixOf_iff_prefix] at h
  exact h.1.1.subset (by decide)

namespace Vocabulary

variable {S : Type} {v : Vocabulary S} {w : List Char} {id : UInt32} {b : UInt8}

theorem toNat_ofNat_of_mem {entry : List Char × Nat} (h : entry ∈ v.tokens.zipIdx) :
    v.tokens[(UInt32.ofNat entry.2).toNat]? = some entry.1 := by
  have hget := List.mem_zipIdx_iff_getElem?.mp h
  have hlt := (List.getElem?_eq_some_iff.mp hget).1
  have hsize := v.size
  rwa [UInt32.toNat_ofNat_of_lt' (by rw [UInt32.size]; omega)]

theorem lookup_zipIdx (tokens : List (List Char)) (w : List Char) (first : Nat) :
    ((tokens.zipIdx first).map fun entry => (entry.1, UInt32.ofNat entry.2)).lookup w =
      if w ∈ tokens then some (UInt32.ofNat (first + tokens.idxOf w)) else none := by
  induction tokens generalizing first with
  | nil => rfl
  | cons token tokens ih =>
    rw [List.zipIdx_cons, List.map_cons, List.lookup_cons, ih]
    by_cases hw : w = token
    · rw [hw, BEq.rfl, if_pos List.mem_cons_self, List.idxOf_cons_self, Nat.add_zero]
      rfl
    · rw [beq_eq_false_iff_ne.mpr hw]
      simp only [List.mem_cons, hw, false_or]
      rw [List.idxOf_cons_ne _ (Ne.symm hw), Nat.succ_eq_add_one, Nat.add_assoc,
        Nat.add_comm 1 (tokens.idxOf w)]

/-- A token has the number of its first listing. -/
theorem lookup_tokenToId (w : List Char) :
    v.tokenToId.lookup w =
      if w ∈ v.tokens then some (UInt32.ofNat (v.tokens.idxOf w)) else none := by
  rw [tokenToId, HashMap.lookup_foldl_orInsert, List.lookup_nil, Option.none_or, lookup_zipIdx,
    Nat.zero_add]

theorem isSome_lookup (h : w ∈ v.tokens) : (v.tokenToId.lookup w).isSome = true := by
  rw [lookup_tokenToId, if_pos h]
  rfl

/-- A token is under its own number. -/
theorem tokens_of_lookup (h : v.tokenToId.lookup w = some id) : v.tokens[id.toNat]? = some w := by
  rw [lookup_tokenToId] at h
  split at h
  next hmem =>
    have hlt := List.idxOf_lt_length_of_mem hmem
    have hsize := v.size
    rw [← Option.some.inj h, UInt32.toNat_ofNat_of_lt' (by rw [UInt32.size]; omega),
      List.getElem?_eq_getElem hlt, List.getElem_idxOf hlt]
  next => cases h

variable (v) in
/-- The token of a number is the byte's own. -/
def StandsFor (b : UInt8) (id : UInt32) : Prop :=
  ∃ token, v.tokens[id.toNat]? = some token ∧
    (isByteLiteral token = true ∧ u8FromHex (literalDigits token) = some b ∨
      ¬isByteLiteral token = true ∧ v.tokenTypes[id.toNat]? = some .byte ∧ Utf8.len token = 1 ∧
        (Utf8.encode token).head? = some b)

theorem standsFor_of_lookup (h : v.byteTokens.lookup b = some id) : v.StandsFor b id := by
  refine HashMap.forall_mem_foldl (P := fun x => v.StandsFor x.1 x.2) ?_ _
    (HashMap.mem_of_lookup h)
  intro m entry hentry hm x hx
  unfold byteToken at hx
  split at hx
  next hliteral =>
    split at hx
    next byte hbyte =>
      rcases List.mem_cons.mp hx with rfl | hx
      · exact ⟨_, toNat_ofNat_of_mem hentry, .inl ⟨hliteral, hbyte⟩⟩
      · exact hm x hx
    next => exact hm x hx
  next hliteral =>
    split at hx
    next hlen =>
      split at hx
      next => exact hm x hx
      next id hid =>
        split at hx
        next htype =>
          split at hx
          next first hfirst =>
            unfold HashMap.orInsert at hx
            split at hx
            next => exact hm x hx
            next =>
              rcases List.mem_cons.mp hx with rfl | hx
              · exact ⟨_, tokens_of_lookup hid, .inr ⟨hliteral, htype, hlen, hfirst⟩⟩
              · exact hm x hx
          next => exact hm x hx
        next => exact hm x hx
    next => exact hm x hx

theorem isSome_byteToken {m : List (UInt8 × UInt32)} (entry : List Char × Nat)
    (h : (m.lookup b).isSome = true) : ((v.byteToken m entry).lookup b).isSome = true := by
  unfold byteToken
  split
  next =>
    split
    next => exact HashMap.isSome_insert h
    next => exact h
  next =>
    split
    next =>
      split
      next => exact h
      next =>
        split
        next =>
          split
          next => exact HashMap.isSome_orInsert h
          next => exact h
        next => exact h
    next => exact h

theorem isSome_byteTokens (h : byteLiteral b ∈ v.tokens) :
    (v.byteTokens.lookup b).isSome = true := by
  obtain ⟨i, hi⟩ := List.mem_iff_getElem?.mp h
  obtain ⟨hliteral, hbyte⟩ := byteLiteral_spec b
  refine HashMap.isSome_foldl (e := (byteLiteral b, i)) (List.mem_zipIdx_iff_getElem?.mpr hi)
    (fun m => ?_) (fun _ entry hm => isSome_byteToken entry hm) []
  rw [byteToken, if_pos hliteral, hbyte]
  exact HashMap.isSome_insert_self

end Vocabulary
end Ramforge
