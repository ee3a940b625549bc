/-
The operations of a layer between its products: the RMS norm, sums and products by
elements, and SiLU.

Each checks the lengths first and then writes every place of the output, so it fills the
output or leaves it as it was.
-/
import Ramforge.Core.Attention
import Ramforge.Core.Rope

namespace Ramforge

open Rust Rust.Exec

namespace F32

variable {R : Type} [F32Math R] [F32Rotation R]

/-- `<`. -/
def lt (a b : R) : Bool := F32Rotation.le a b && !F32Math.eq a b

end F32

namespace Compute

section model

variable {R : Type} [Zero R] [Add R] [Mul R] [Div R] [Neg R] [One R] [F32 R] [F32Math R]
  [F32Rotation R]

/-- What the norm divides by. -/
def rootMeanSquare (input : List R) (epsilon : R) : R :=
  F32Math.sqrt (input.foldl (fun sumSquares value => sumSquares + value * value) 0 /
    F32.ofInt input.length + epsilon)

/-- The state is `output`. -/
def rmsNormReference (input weight : List R) (epsilon : R) : Computing R Unit := do
  let output ← self
  failIf (input.length = 0 ∨ input.length ≠ weight.length ∨ input.length ≠ output.length)
    ⟨s!"RMSNorm shape mismatch: input {input.length}, weight {weight.length}, output {output.length}"⟩
  failIf (¬F32Math.isFinite epsilon ∨ F32.lt epsilon 0)
    ⟨"RMSNorm epsilon must be finite and non-negative"⟩
  let rms := rootMeanSquare input epsilon
  forRange input.length (fun i _ => do
    let value ← index input i
    let scale ← index weight i
    store i (value / rms * scale)) ()

def validateElementwise (a b : List R) : Computing R Unit := do
  let output ← self
  failIf (a.length ≠ b.length ∨ a.length ≠ output.length)
    ⟨s!"elementwise shape mismatch: a {a.length}, b {b.length}, output {output.length}"⟩

/-- `output[i] = op(a[i], b[i])`. -/
def elementwise (op : R → R → R) (a b : List R) : Computing R Unit := do
  validateElementwise a b
  forRange a.length (fun i _ => do
    let left ← index a i
    let right ← index b i
    store i (op left right)) ()

def addReference : List R → List R → Computing R Unit := elementwise (· + ·)

def mulReference : List R → List R → Computing R Unit := elementwise (· * ·)

def silu (value : R) : R := value / (1 + F32Math.exp (-value))

def siluReference (input : List R) : Computing R Unit := do
  let output ← self
  failIf (input.length ≠ output.length)
    ⟨s!"SiLU shape mismatch: input {input.length}, output {output.length}"⟩
  forRange input.length (fun i _ => do
    let value ← index input i
    store i (silu value)) ()

end model

/-! ## What they write -/

section loop

variable {R : Type} [Zero R] {a b output : List R}

theorem map_range_eq_zipWith (op : R → R → R) (hlen : a.length = b.length) :
    (List.range a.length).map (fun i => op (a.getD i 0) (b.getD i 0)) = List.zipWith op a b := by
  apply List.ext_getElem
  · simp [hlen]
  · intro i h1 h2
    have ha : i < a.length := by simpa using h1
    have hb : i < b.length := by omega
    simp [ha, hb]

/-- A loop over the places of the output that reads the same places of two inputs. -/
theorem forRange_zipWith {f : Nat → Unit → Computing R Unit} (op : R → R → R)
    (hlen : a.length = b.length) (hout : output.length = a.length)
    (hf : ∀ i < a.length, ∀ ys : List R, ys.length = a.length →
      f i () ys = (.ok (), ys.set i (op (a.getD i 0) (b.getD i 0)))) :
    forRange a.length f () output = (.ok (), List.zipWith op a b) := by
  rw [forRange_fill hout hf, map_range_eq_zipWith op hlen]

end loop

section runs

variable {R : Type} [Zero R] [Add R] [Mul R] [Div R] [Neg R] [One R] [F32 R] [F32Math R]
  [F32Rotation R] {a b input weight output : List R} {epsilon : R}

omit [Neg R] [One R] in
theorem rmsNormReference_run (hpos : input.length ≠ 0) (hweight : input.length = weight.length)
    (hout : input.length = output.length) (hfinite : F32Math.isFinite epsilon = true)
    (hsign : F32.lt epsilon 0 = false) :
    rmsNormReference input weight epsilon output =
      (.ok (), List.zipWith (fun value scale => value / rootMeanSquare input epsilon * scale)
        input weight) := by
  rw [rmsNormReference, self_bind_run, failIf_bind_run, if_neg (by omega), failIf_bind_run,
    if_neg (by simp [hfinite, hsign])]
  apply forRange_zipWith _ hweight hout.symm
  intro i hi ys hys
  rw [index_of_lt hi 0, pure_bind_run, index_of_lt (by omega) 0, pure_bind_run,
    store_of_lt (by omega)]

omit [Add R] [Mul R] [Div R] [Neg R] [One R] [F32 R] [F32Math R] [F32Rotation R] in
theorem elementwise_run (op : R → R → R) (hlen : a.length = b.length)
    (hout : a.length = output.length) :
    elementwise op a b output = (.ok (), List.zipWith op a b) := by
  have hvalid : validateElementwise a b output = (.ok (), output) := by
    rw [validateElementwise, self_bind_run, failIf, if_neg (by omega)]
    rfl
  rw [elementwise, bind_of_ok hvalid]
  apply forRange_zipWith _ hlen hout.symm
  intro i hi ys hys
  rw [index_of_lt hi 0, pure_bind_run, index_of_lt (by omega) 0, pure_bind_run,
    store_of_lt (by omega)]

omit [Mul R] [F32 R] [F32Rotation R] in
theorem siluReference_run (hout : input.length = output.length) :
    siluReference input output = (.ok (), input.map silu) := by
  rw [siluReference, self_bind_run, failIf_bind_run, if_neg (by omega)]
  have hloop := forRange_fill (ε := ComputeError) (n := input.length)
    (v := fun i => silu (input.getD i 0)) (f := fun i _ => do
      let value ← index input i
      store i (silu value)) hout.symm ?_
  · rw [hloop]
    congr 1
    apply List.ext_getElem
    · simp
    · intro i h1 h2
      have hi : i < input.length := by simpa using h1
      simp [hi]
  · intro i hi ys hys
    rw [index_of_lt hi 0, pure_bind_run, store_of_lt (by omega)]

end runs

end Compute
end Ramforge
