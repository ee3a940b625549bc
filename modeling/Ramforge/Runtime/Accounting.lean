/-
What loading a layer costs, from its descriptors.

Planning and execution use the same rules.
-/
import Ramforge.Core.Tensor
import Ramforge.Runtime.LayerRead

namespace Ramforge

open Rust Rust.Outcome

structure LayerMemoryEstimate where
  residentBytes : Nat
  loadPeakBytes : Nat
deriving DecidableEq, Repr

/-- `match result { Ok(v) => v, Err(e) => return Err(f(e)) }`. -/
def liftResult {ε α : Type} (f : ε → String) : Except ε α → Outcome String α
  | .ok a => .ok a
  | .error e => .err (f e)

/-- Decoding a half float needs its two bytes next to the four decoded ones. -/
def loadFactor : GgmlType → Nat
  | .f16 | .bf16 => 3
  | _ => 1

def tensorLoadChargeBytes (ggmlType : GgmlType) (fileBytes : Nat) : Outcome String Nat :=
  okOr (checkedMul fileBytes (loadFactor ggmlType))
    s!"tensor size overflow computing load charge ({fileBytes} bytes x {loadFactor ggmlType} for {ggmlType.name})"

theorem tensorLoadChargeBytes_eq_ok {ggmlType : GgmlType} {fileBytes charge : Nat}
    (h : tensorLoadChargeBytes ggmlType fileBytes = .ok charge) :
    fileBytes * loadFactor ggmlType = charge := by
  unfold tensorLoadChargeBytes at h
  cases hmul : checkedMul fileBytes (loadFactor ggmlType) with
  | none =>
    rw [hmul] at h
    cases h
  | some bytes =>
    rw [hmul] at h
    cases h
    exact (checkedMul_eq_some.mp hmul).2.symm

/-- The settled bytes of the tensors so far, and the highest charge on the way. -/
structure LoadState where
  settled : Nat
  loadPeak : Nat

/-- `resident_bytes_for(..).map_err(..)?.max(1)`. -/
def settledBytes (descriptor : TensorDescriptor) (fileBytes : Nat) : Outcome String Nat := do
  let resident ← liftResult
    (fun error => "tensor '" ++ descriptor.name ++ "': " ++ DataSourceError.text error)
    (TensorData.residentBytesFor descriptor.ggmlType descriptor.numElements fileBytes)
  pure (max resident 1)

/-- A tensor that is loaded on its own. -/
def loadIndividually (s : LoadState) (descriptor : TensorDescriptor) : Outcome String LoadState := do
  let fileBytes ← descriptor.knownBytes
  let loadCharge ← tensorLoadChargeBytes descriptor.ggmlType fileBytes
  let peak ← okOr (checkedAdd s.settled (max loadCharge 1))
    ("layer load peak overflow at tensor '" ++ descriptor.name ++ "'")
  let resident ← settledBytes descriptor fileBytes
  let settled ← okOr (checkedAdd s.settled resident)
    ("layer resident size overflow at tensor '" ++ descriptor.name ++ "'")
  pure { settled := settled, loadPeak := max s.loadPeak peak }

def LoadState.estimate (s : LoadState) : LayerMemoryEstimate where
  residentBytes := s.settled
  loadPeakBytes := s.loadPeak

def estimateLayerMemory (tensors : List TensorDescriptor) : Outcome String LayerMemoryEstimate := do
  let s ← tensors.foldlM loadIndividually { settled := 0, loadPeak := 0 }
  pure s.estimate

/-- `tensors[index]`. -/
def descriptorAt (tensors : List TensorDescriptor) (tensor : PlannedTensor) :
    Outcome String TensorDescriptor :=
  expect tensors[tensor.descriptorIndex]? "index out of bounds"

/-- The settled bytes of all tensors of a range. -/
def rangeResident (tensors : List TensorDescriptor) (range : PlannedReadRange) :
    Outcome String Nat :=
  range.tensors.foldlM (fun total tensor => do
    let descriptor ← descriptorAt tensors tensor
    let fileBytes ← descriptor.knownBytes
    let resident ← settledBytes descriptor fileBytes
    okOr (checkedAdd total resident) "coalesced range resident size overflow") 0

/-- A range: one tensor on its own, or several next to the buffer they are read into. -/
def loadRange (tensors : List TensorDescriptor) (s : LoadState) (range : PlannedReadRange) :
    Outcome String LoadState :=
  match range.tensors with
  | [tensor] => do
    let descriptor ← descriptorAt tensors tensor
    loadIndividually s descriptor
  | _ => do
    let resident ← rangeResident tensors range
    let peak ← okOr ((checkedAdd s.settled range.byteLength).bind (checkedAdd · resident))
      "coalesced layer load peak overflow"
    let settled ← okOr (checkedAdd s.settled resident) "layer resident size overflow"
    pure { settled := settled, loadPeak := max s.loadPeak peak }

def estimateGroupedLayerMemory (tensors : List TensorDescriptor) (plan : LayerReadPlan) :
    Outcome String LayerMemoryEstimate := do
  let s ← plan.ranges.foldlM (loadRange tensors) { settled := 0, loadPeak := 0 }
  pure s.estimate

end Ramforge
