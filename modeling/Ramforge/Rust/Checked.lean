/-
Checked, saturating and wrapping arithmetic on `u64` and a 64-bit `usize`.

A value is a `Nat`, and each operation carries the bound of the Rust operation
it stands for.
-/
import Mathlib.Tactic

namespace Rust

/-- One more than `u64::MAX`. -/
abbrev u64Bound : Nat := 2 ^ 64

/-- One more than `isize::MAX`.  A slice has fewer bytes. -/
abbrev isizeBound : Nat := 2 ^ 63

theorem two_mul_isizeBound : 2 * isizeBound = u64Bound := rfl

def checkedAdd (a b : Nat) : Option Nat := if a + b < u64Bound then some (a + b) else none

def checkedSub (a b : Nat) : Option Nat := if b ≤ a then some (a - b) else none

def checkedMul (a b : Nat) : Option Nat := if a * b < u64Bound then some (a * b) else none

def saturatingAdd (a b : Nat) : Nat := min (a + b) (u64Bound - 1)

def saturatingSub (a b : Nat) : Nat := a - b

def saturatingMul (a b : Nat) : Nat := min (a * b) (u64Bound - 1)

/-- `a + b` in a build without overflow checks. -/
def wrappingAdd (a b : Nat) : Nat := (a + b) % u64Bound

/-- `a * b` in a build without overflow checks. -/
def wrappingMul (a b : Nat) : Nat := (a * b) % u64Bound

theorem wrappingMul_of_lt {a b : Nat} (h : a * b < u64Bound) : wrappingMul a b = a * b :=
  Nat.mod_eq_of_lt h

theorem checkedAdd_of_lt {a b : Nat} (h : a + b < u64Bound) : checkedAdd a b = some (a + b) :=
  if_pos h

theorem checkedAdd_eq_some {a b c : Nat} :
    checkedAdd a b = some c ↔ a + b < u64Bound ∧ c = a + b := by
  unfold checkedAdd
  split <;> simp_all [eq_comm]

theorem checkedAdd_eq_none {a b : Nat} : checkedAdd a b = none ↔ u64Bound ≤ a + b := by
  simp [checkedAdd]

theorem checkedSub_of_le {a b : Nat} (h : b ≤ a) : checkedSub a b = some (a - b) := if_pos h

theorem checkedSub_eq_some {a b c : Nat} :
    checkedSub a b = some c ↔ b ≤ a ∧ c = a - b := by
  unfold checkedSub
  split <;> simp_all [eq_comm]

theorem checkedSub_eq_none {a b : Nat} : checkedSub a b = none ↔ a < b := by
  simp [checkedSub]

theorem checkedMul_of_lt {a b : Nat} (h : a * b < u64Bound) : checkedMul a b = some (a * b) :=
  if_pos h

theorem checkedMul_eq_some {a b c : Nat} :
    checkedMul a b = some c ↔ a * b < u64Bound ∧ c = a * b := by
  unfold checkedMul
  split <;> simp_all [eq_comm]

theorem saturatingAdd_lt (a b : Nat) : saturatingAdd a b < u64Bound := by
  show min (a + b) (2 ^ 64 - 1) < 2 ^ 64
  omega

theorem saturatingAdd_of_lt {a b : Nat} (h : a + b < u64Bound) : saturatingAdd a b = a + b :=
  Nat.min_eq_left (Nat.le_sub_one_of_lt h)

end Rust

/-!
`+`, `-` and `*` on `u64` in the two kinds of build, and `u128` arithmetic.

Debug and test builds check for overflow and panic; release builds wrap.
-/

namespace Rust

inductive Build where
  | debug
  | release
deriving DecidableEq, Repr

namespace Build

/-- `a + b`; `none` where the build panics. -/
def add (build : Build) (a b : Nat) : Option Nat :=
  if a + b < u64Bound then some (a + b)
  else
    match build with
    | .debug => none
    | .release => some (wrappingAdd a b)

/-- `a - b`; `none` where the build panics. -/
def sub (build : Build) (a b : Nat) : Option Nat :=
  if b ≤ a then some (a - b)
  else
    match build with
    | .debug => none
    | .release => some ((a + u64Bound - b) % u64Bound)

/-- `a * b`; `none` where the build panics. -/
def mul (build : Build) (a b : Nat) : Option Nat :=
  if a * b < u64Bound then some (a * b)
  else
    match build with
    | .debug => none
    | .release => some (wrappingMul a b)

def addOverflow : String := "attempt to add with overflow"

def subOverflow : String := "attempt to subtract with overflow"

def mulOverflow : String := "attempt to multiply with overflow"

theorem add_of_lt {build : Build} {a b : Nat} (h : a + b < u64Bound) : build.add a b = some (a + b) :=
  if_pos h

theorem add_lt {build : Build} {a b c : Nat} (h : build.add a b = some c) : c < u64Bound := by
  unfold add at h
  split at h
  next hlt =>
    cases h
    exact hlt
  next =>
    cases build with
    | debug => cases h
    | release =>
      cases h
      exact Nat.mod_lt _ (by decide)

theorem sub_of_le {build : Build} {a b : Nat} (h : b ≤ a) : build.sub a b = some (a - b) :=
  if_pos h

theorem debug_add (a b : Nat) : debug.add a b = checkedAdd a b := rfl

/-- A release build never panics on an addition. -/
theorem exists_release_add (a b : Nat) : ∃ c, release.add a b = some c := by
  unfold add
  split
  next => exact ⟨_, rfl⟩
  next => exact ⟨_, rfl⟩

theorem exists_release_sub (a b : Nat) : ∃ c, release.sub a b = some c := by
  unfold sub
  split
  next => exact ⟨_, rfl⟩
  next => exact ⟨_, rfl⟩

/-- `total + last - first`: a sum that wraps is put right by the subtraction. -/
theorem add_sub_eq {build : Build} {total first last sum v : Nat} (hle : first ≤ last)
    (hlast : last < u64Bound) (hlt : total + (last - first) < u64Bound)
    (hsum : build.add total last = some sum) (hv : build.sub sum first = some v) :
    v = total + (last - first) := by
  by_cases h : total + last < u64Bound
  · rw [add_of_lt h] at hsum
    cases hsum
    rw [sub_of_le (Nat.le_trans hle (Nat.le_add_left _ _))] at hv
    cases hv
    omega
  · cases build with
    | debug =>
      rw [debug_add, checkedAdd_eq_none.mpr (Nat.not_lt.mp h)] at hsum
      cases hsum
    | release =>
      have hwrap : (total + last) % u64Bound = total + last - u64Bound := by
        rw [Nat.mod_eq_sub_mod (Nat.not_lt.mp h), Nat.mod_eq_of_lt (by omega)]
      have hsum : sum = total + last - u64Bound := by
        rw [add, if_neg h] at hsum
        cases hsum
        exact hwrap
      rw [sub, if_neg (by omega)] at hv
      cases hv
      rw [Nat.mod_eq_of_lt (by omega)]
      omega

theorem mul_of_lt {build : Build} {a b : Nat} (h : a * b < u64Bound) : build.mul a b = some (a * b) :=
  if_pos h

end Build

/-! ## `u128`

Wide sums of `u64` values, as a build with checks computes them.  `none` is a
panic. -/

/-- One more than `u128::MAX`. -/
abbrev u128Bound : Nat := 2 ^ 128

namespace U128

def add (a b : Nat) : Option Nat := if a + b < u128Bound then some (a + b) else none

def mul (a b : Nat) : Option Nat := if a * b < u128Bound then some (a * b) else none

def div (a b : Nat) : Option Nat := if b = 0 then none else some (a / b)

/-- `a.div_ceil(b)`. -/
def divCeil (a b : Nat) : Option Nat := if b = 0 then none else some ((a + b - 1) / b)

def mulOverflow : String := "attempt to multiply with overflow"

def divByZero : String := "attempt to divide by zero"

end U128

/-! ## Sums of the parts of a list -/

variable {α : Type}

/-- The sum from `start` is the mathematical one, or there is none. -/
theorem foldlM_checkedAdd_eq_some (part : α → Nat) (xs : List α) (total : Nat) {start : Nat}
    (hstart : start < u64Bound) :
    xs.foldlM (fun total x => checkedAdd total (part x)) start = some total ↔
      start + (xs.map part).sum < u64Bound ∧ total = start + (xs.map part).sum := by
  induction xs generalizing start with
  | nil =>
    rw [List.foldlM_nil, List.map_nil, List.sum_nil, Nat.add_zero]
    exact ⟨fun h => ⟨hstart, (Option.some.inj h).symm⟩, fun h => by rw [h.2]; rfl⟩
  | cons x rest ih =>
    rw [List.foldlM_cons, List.map_cons, List.sum_cons, ← Nat.add_assoc]
    cases hadd : checkedAdd start (part x) with
    | none =>
      have hge := checkedAdd_eq_none.mp hadd
      exact ⟨fun h => (by cases h), fun h => by omega⟩
    | some next =>
      obtain ⟨hlt, rfl⟩ := checkedAdd_eq_some.mp hadd
      exact ih hlt

/-! ## Sums in the two kinds of build -/

namespace Build

theorem foldlM_add_of_lt {build : Build} {xs : List Nat} {start : Nat}
    (h : start + xs.sum < u64Bound) : xs.foldlM build.add start = some (start + xs.sum) := by
  induction xs generalizing start with
  | nil => rfl
  | cons x rest ih =>
    rw [List.sum_cons, ← Nat.add_assoc] at h ⊢
    rw [List.foldlM_cons, add_of_lt (by omega)]
    exact ih h

theorem foldlM_debug_add_eq_some {xs : List Nat} {start total : Nat} (hstart : start < u64Bound) :
    xs.foldlM debug.add start = some total ↔
      start + xs.sum < u64Bound ∧ total = start + xs.sum := by
  have h := foldlM_checkedAdd_eq_some (fun x => x) xs total hstart
  rwa [List.map_id'] at h

theorem exists_foldlM_release_add (xs : List Nat) (start : Nat) :
    ∃ total, xs.foldlM release.add start = some total := by
  induction xs generalizing start with
  | nil => exact ⟨start, rfl⟩
  | cons x rest ih =>
    obtain ⟨next, hnext⟩ := exists_release_add start x
    rw [List.foldlM_cons, hnext]
    exact ih next

end Build

end Rust
