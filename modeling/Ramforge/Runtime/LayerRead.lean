/-
Read plans of layers: tensors that lie close to each other in the file are read
together.

Only descriptors are looked at here.
-/
import Ramforge.Core.Model
import Ramforge.Rust.Call

namespace Ramforge

open Rust Rust.Outcome

def maxCoalescedGapBytes : Nat := 4 * 1024

def maxCoalescedSpanBytes : Nat := 64 * 1024 * 1024

structure PlannedTensor where
  descriptorIndex : Nat
  offsetInRange : Nat
deriving DecidableEq

structure PlannedReadRange where
  fileOffset : Nat
  byteLength : Nat
  logicalBytes : Nat
  gapBytes : Nat
  tensors : List PlannedTensor
deriving DecidableEq

structure LayerReadPlan where
  logicalTensorCount : Nat
  logicalBytes : Nat
  physicalBytes : Nat
  gapBytes : Nat
  ranges : List PlannedReadRange
deriving DecidableEq

namespace LayerReadPlan

def reusableGroupBufferBytes (plan : LayerReadPlan) : Option Nat :=
  if 1 < plan.ranges.length ∧ plan.ranges.all (fun range => 1 < range.tensors.length) then
    let bytes := (plan.ranges.map (·.byteLength)).foldl max 0
    if 0 < bytes then some bytes else none
  else none

end LayerReadPlan

/-- `byte_length.ok_or_else(..)`. -/
def TensorDescriptor.knownBytes (descriptor : TensorDescriptor) : Outcome String Nat :=
  okOr descriptor.byteLength ("tensor '" ++ descriptor.name ++ "' byte length is unknown")

/-- Where a tensor lies in the file, with its place among the descriptors. -/
structure ReadEntry where
  start : Nat
  stop : Nat
  byteLength : Nat
  index : Nat

/-- The order of `(start, index)`. -/
def ReadEntry.before (a b : ReadEntry) : Prop :=
  a.start < b.start ∨ a.start = b.start ∧ a.index ≤ b.index

instance : DecidableRel ReadEntry.before := fun a b =>
  inferInstanceAs (Decidable (a.start < b.start ∨ a.start = b.start ∧ a.index ≤ b.index))

/-- The first loop: the entries so far, and the bytes they have together. -/
def collectEntries : List TensorDescriptor → Nat → List ReadEntry → Nat →
    Outcome String (List ReadEntry × Nat)
  | [], _, ordered, logicalBytes => pure (ordered, logicalBytes)
  | descriptor :: rest, index, ordered, logicalBytes => do
    let byteLength ← descriptor.knownBytes
    let stop ← okOr (checkedAdd descriptor.fileOffset byteLength)
      ("tensor '" ++ descriptor.name ++ "' file range overflows")
    let logicalBytes ← okOr (checkedAdd logicalBytes byteLength)
      "layer logical tensor byte count overflow"
    let entry : ReadEntry :=
      { start := descriptor.fileOffset
        stop := stop
        byteLength := byteLength
        index := index }
    collectEntries rest (index + 1) (ordered ++ [entry]) logicalBytes

/-- A range of one tensor. -/
def PlannedReadRange.single (entry : ReadEntry) : PlannedReadRange where
  fileOffset := entry.start
  byteLength := entry.byteLength
  logicalBytes := entry.byteLength
  gapBytes := 0
  tensors := [{ descriptorIndex := entry.index, offsetInRange := 0 }]

/-- The range `current` with one more tensor, which ends it. -/
def PlannedReadRange.extend (current : PlannedReadRange) (entry : ReadEntry) (span gap : Nat) :
    Outcome String PlannedReadRange := do
  let logicalBytes ← okOr (checkedAdd current.logicalBytes entry.byteLength)
    "planned range logical byte overflow"
  let gapBytes ← okOr (checkedAdd current.gapBytes gap) "planned range gap byte overflow"
  pure
    { fileOffset := current.fileOffset
      byteLength := span
      logicalBytes := logicalBytes
      gapBytes := gapBytes
      tensors := current.tensors ++
        [{ descriptorIndex := entry.index
           offsetInRange := entry.start - current.fileOffset }] }

/-- A round of the second loop. -/
def planEntry (ranges : List PlannedReadRange) (entry : ReadEntry) :
    Outcome String (List PlannedReadRange) :=
  match ranges.getLast? with
  | none => pure (ranges ++ [.single entry])
  | some current => do
    let currentEnd ← okOr (checkedAdd current.fileOffset current.byteLength)
      "planned range end overflow"
    failIf (entry.start < currentEnd)
      ("tensor ranges overlap at descriptor index " ++ toString entry.index)
    let gap := entry.start - currentEnd
    let candidateSpan ← okOr (checkedSub entry.stop current.fileOffset)
      "planned range span underflow"
    if gap ≤ maxCoalescedGapBytes ∧ candidateSpan ≤ maxCoalescedSpanBytes then do
      let extended ← current.extend entry candidateSpan gap
      pure (ranges.dropLast ++ [extended])
    else pure (ranges ++ [.single entry])

/-- `iter().try_fold(0, checked_add)`. -/
def checkedSum (values : List Nat) : Option Nat := values.foldlM checkedAdd 0

def buildLayerReadPlan (descriptors : List TensorDescriptor) : Outcome String LayerReadPlan := do
  let (ordered, logicalBytes) ← collectEntries descriptors 0 [] 0
  let ranges ← (ordered.insertionSort ReadEntry.before).foldlM planEntry []
  let physicalBytes ← okOr (checkedSum (ranges.map (·.byteLength)))
    "layer physical read byte count overflow"
  let gapBytes ← okOr (checkedSum (ranges.map (·.gapBytes)))
    "layer coalesced gap byte count overflow"
  pure
    { logicalTensorCount := descriptors.length
      logicalBytes := logicalBytes
      physicalBytes := physicalBytes
      gapBytes := gapBytes
      ranges := ranges }

end Ramforge
