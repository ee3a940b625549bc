/-
The numbers of the binary interchange formats.

A format has `p` bits of fraction and `w` bits of exponent.  A pattern is a number from
its sign, its exponent and its fraction.
-/
import Mathlib.Data.Rat.Lemmas
import Mathlib.Tactic.Ring
import Mathlib.Tactic.FieldSimp

namespace Rust

inductive FloatValue where
  | finite (negative : Bool) (magnitude : ℚ)
  | infinity (negative : Bool)
  | nan
deriving DecidableEq

namespace FloatValue

/-- The exponents of normal numbers are the stored ones less the bias. -/
def bias (w : Nat) : Nat := 2 ^ (w - 1) - 1

def ofFields (p w : Nat) (negative : Bool) (exponent fraction : Nat) : FloatValue :=
  if exponent = 2 ^ w - 1 then
    if fraction = 0 then .infinity negative else .nan
  else if exponent = 0 then .finite negative (2 * fraction / 2 ^ (bias w + p))
  else .finite negative ((2 ^ p + fraction) * 2 ^ exponent / 2 ^ (bias w + p))

def ofBits (p w bits : Nat) : FloatValue :=
  ofFields p w (decide (bits / 2 ^ (w + p) % 2 = 1)) (bits / 2 ^ p % 2 ^ w) (bits % 2 ^ p)

/-- The value of a pattern put together from its fields. -/
theorem ofBits_of_fields {p w sign exponent fraction bits : Nat}
    (hbits : bits = (sign * 2 ^ w + exponent) * 2 ^ p + fraction) (hsign : sign < 2)
    (hexponent : exponent < 2 ^ w) (hfraction : fraction < 2 ^ p) :
    ofBits p w bits = ofFields p w (decide (sign = 1)) exponent fraction := by
  have hp : 0 < 2 ^ p := Nat.two_pow_pos p
  have hw : 0 < 2 ^ w := Nat.two_pow_pos w
  have hhigh : bits / 2 ^ p = sign * 2 ^ w + exponent := by
    rw [hbits, Nat.mul_comm, Nat.mul_add_div hp, Nat.div_eq_of_lt hfraction, Nat.add_zero]
  have hlow : bits % 2 ^ p = fraction := by
    rw [hbits, Nat.mul_comm, Nat.mul_add_mod, Nat.mod_eq_of_lt hfraction]
  have htop : bits / 2 ^ (w + p) = sign := by
    rw [Nat.add_comm w p, Nat.pow_add, ← Nat.div_div_eq_div_mul, hhigh, Nat.mul_comm,
      Nat.mul_add_div hw, Nat.div_eq_of_lt hexponent, Nat.add_zero]
  have hmiddle : bits / 2 ^ p % 2 ^ w = exponent := by
    rw [hhigh, Nat.mul_comm, Nat.mul_add_mod, Nat.mod_eq_of_lt hexponent]
  rw [ofBits, htop, hmiddle, hlow, Nat.mod_eq_of_lt hsign]

theorem ofFields_normal {p w exponent fraction : Nat} (negative : Bool) (hpos : exponent ≠ 0)
    (hlt : exponent ≠ 2 ^ w - 1) :
    ofFields p w negative exponent fraction =
      .finite negative (((2 ^ p + fraction) * 2 ^ exponent : ℕ) / 2 ^ (bias w + p)) := by
  rw [ofFields, if_neg hlt, if_neg hpos]
  push_cast
  rfl

end FloatValue
end Rust
