/-
What every call that reads the file keeps: an invariant of the reads of bytes, and all
charges of the budget but those of its own.
-/
import Ramforge.Core.MemoryScope
import Ramforge.Core.FileContents
import Ramforge.Runtime.LayerLoad

namespace Ramforge

open Rust Rust.Exec GgufDataSource MemoryBudget

/-- A closure changes what it captures beside the budget; its scope does not. -/
theorem MemoryBudget.keeps_withTemp {κ ε α : Type} {I : κ → Prop} {ofMemory : MemoryError → ε}
    {f : Exec (κ × MemoryBudget) ε α} (hf : Keeps (fun s => I s.1) f) (name : String) (bytes : Nat) :
    Keeps (fun s => I s.1) (withTemp ofMemory name bytes f) := by
  intro s hs
  by_cases hzero : bytes = 0
  · rw [hzero, Call.withTemp_zero]
    exact hf s hs
  rw [Call.withTemp_snd _ _ hzero, Call.entered]
  cases (allocate name bytes s.2).1 with
  | ok u => exact hf (s.1, _) hs
  | err e => exact hs
  | panic p => exact hs

namespace GgufDataSource.ReadsKeep

variable {R : Type} [F32 R] {J : List Answer × GgufDataSource → Prop}

theorem reserveBuffer (label : String) : Keeps (OnHost J) (reserveBuffer label) :=
  nextReserve.bind fun _ => (Keeps.ofResult _).bind fun _ => .pure _

theorem readF32TensorByDescriptor (h : ReadsKeep J) (desc : TensorDescriptor) :
    Keeps (OnHost J) (readF32TensorByDescriptor desc) :=
  h.readF32TensorRangeByDescriptor desc 0 desc.numElements

theorem loadTensorData (h : ReadsKeep J) (desc : TensorDescriptor) :
    Keeps (OnHost J) (loadTensorData (R := R) desc) := by
  unfold Ramforge.loadTensorData
  split
  · exact ((h.readF32TensorByDescriptor desc).mapErr _).bind fun _ => .ofResult _
  · exact ((h.readTensorByDescriptor desc).mapErr _).bind fun _ => .ofResult _

/-! ## The calls on a persistent weight -/

/-- The invariant of the reads, and no charge but those of `b`. -/
def Neutral (J : List Answer × GgufDataSource → Prop) (b : MemoryBudget)
    (s : Host × MemoryBudget) : Prop :=
  OnHost J s.1 ∧ Apart (fun _ => False) b s.2

theorem withTempHost {α : Type} {b : MemoryBudget} {f : Exec Host String α}
    (hf : Keeps (OnHost J) f) (name : String) (bytes : Nat) :
    Keeps (Neutral J b) (withTempHost name bytes f) := fun s hs =>
  ⟨keeps_withTemp (I := OnHost J) (f := Exec.onFst f) (fun s hs => hf s.1 hs) name bytes s hs.1,
    Sparing.withTemp (Sparing.onFst f) (fun h => h) bytes b s hs.2⟩

theorem availableBytes {b : MemoryBudget} :
    Keeps (Neutral J b) (Exec.onSnd MemoryBudget.availableBytes : Managed Nat) :=
  (Keeps.bind (I := Apart (fun _ => False) b) .self fun _ => .expect _ _).onSnd_both

theorem canAllocate {b : MemoryBudget} (bytes : Nat) :
    Keeps (Neutral J b) (Exec.onSnd (MemoryBudget.canAllocate bytes) : Managed Bool) :=
  (Keeps.bind (I := Apart (fun _ => False) b) (Keeps.bind .self fun _ => .expect _ _)
    fun _ => .pure _).onSnd_both

variable [Zero R] [Add R] [Sub R] [Mul R]

omit [Add R] in
theorem loadTensorDataFromBorrowedBytes (desc : TensorDescriptor) (bytes : List UInt8) :
    Keeps (OnHost J) (loadTensorDataFromBorrowedBytes (R := R) desc bytes) := by
  unfold Ramforge.loadTensorDataFromBorrowedBytes
  split
  · refine (Keeps.mapErr ?_ _).bind fun _ => .ofResult _
    unfold decodeTensorToF32
    split
    · exact .ofResult _
    · exact .ofResult _
    · exact .ofResult _
    · split
      · exact (Keeps.onLocal _ _).bind fun _ => .pure _
      · exact .throw _
  · exact (reserveBuffer _).bind fun _ => .ofResult _

omit [Add R] in
theorem toF32Vec (h : ReadsKeep J) (weight : PersistentWeight R) : Keeps (OnHost J) weight.toF32Vec := by
  cases weight with
  | resident tensor => exact tensor.keeps_toF32Vec.mapErr _
  | streamed desc =>
    unfold PersistentWeight.toF32Vec
    simp only
    split
    · exact ((h.readF32TensorByDescriptor desc).mapErr _).bind fun _ => .pure _
    · exact ((h.readTensorByDescriptor desc).mapErr _).bind fun _ => (Keeps.ofResult _).bind fun tensor =>
        tensor.keeps_toF32Vec.mapErr _

omit [Zero R] [Add R] [Sub R] [Mul R] in
theorem keeps_rowBytesFor {σ : Type} {I : σ → Prop} (desc : TensorDescriptor) (inDim : Nat) :
    Keeps I (rowBytesFor desc inDim) := by
  unfold rowBytesFor
  split
  · exact .okOr _ _
  · exact .okOr _ _
  · exact .okOr _ _
  · exact (Keeps.okOr _ _).bind fun _ => (Keeps.failIf _ _).bind fun _ => .okOr _ _

omit [Add R] in
theorem getEmbeddingInto (h : ReadsKeep J) {b : MemoryBudget} (weight : PersistentWeight R)
    (tokenId nEmbd : Nat) (output : List R) :
    Keeps (Neutral J b) (weight.getEmbeddingInto tokenId nEmbd output) := by
  refine (Keeps.failIf _ _).bind fun _ => (Keeps.okOr _ _).bind fun _ => ?_
  cases weight with
  | resident tensor =>
    exact withTempHost (((tensor.keeps_getEmbedding _ _).mapErr _).bind fun _ => .expect _ _) _ _
  | streamed desc =>
    have hcheck : Keeps (Neutral J b) (PersistentWeight.checkStreamedEmbedding desc tokenId nEmbd) := by
      unfold PersistentWeight.checkStreamedEmbedding
      split
      · exact .failIf _ _
      · exact .throw _
    refine hcheck.bind fun _ => (Keeps.okOr _ _).bind fun _ => ?_
    split
    · exact withTempHost
        (((h.readF32TensorRangeByDescriptor _ _ _).mapErr _).bind fun _ => .expect _ _) _ _
    · refine (keeps_rowBytesFor _ _).bind fun _ => (Keeps.okOr _ _).bind fun _ => ?_
      exact withTempHost (((h.readTensorRangeByDescriptor _ _ _).mapErr _).bind fun _ =>
        ((Keeps.onLocal _ _).mapErr _).bind fun _ => .pure _) _ _

/-! ## Streamed products -/

/-- The invariant of the reads, behind the output of a product. -/
def OnStream (J : List Answer × GgufDataSource → Prop) (s : List R × Host) : Prop := OnHost J s.2

omit [Sub R] [F32 R] in
theorem keeps_storeDot (plan : StreamPlan) (row x : List R) (o : Nat) :
    Keeps (OnStream J) (storeDot plan row x o) := by
  have hsum : Keeps (OnStream (R := R) J)
      (Compute.rowSum plan.inDim row x : Streaming R R) :=
    .forRange (fun i sum => (Keeps.expect _ _).bind fun _ => (Keeps.expect _ _).bind fun _ => .pure _) _ _
  exact hsum.bind fun _ => fun _ hs => hs

omit [Sub R] in
theorem f32Chunk (h : ReadsKeep J) (plan : StreamPlan) (x : List R) (rowStart rowsThis : Nat)
    (rowBuf : List R) : Keeps (OnStream J) (f32Chunk plan x rowStart rowsThis rowBuf) := by
  refine (Keeps.okOr _ _).bind fun _ => (Keeps.okOr _ _).bind fun _ =>
    (((h.readF32TensorRangeByDescriptor _ _ _).mapErr _).onSnd).bind fun _ => .forRange ?_ _ _
  exact fun r rowBuf => (Keeps.okOr _ _).bind fun _ => (Keeps.okOr _ _).bind fun _ =>
    (Keeps.okOr _ _).bind fun _ => (keeps_storeDot _ _ _ _).bind fun _ => .pure _

theorem rawChunk (h : ReadsKeep J) (plan : StreamPlan) (x : List R) (rowStart rowsThis : Nat)
    (rowBuf : List R) : Keeps (OnStream J) (rawChunk plan x rowStart rowsThis rowBuf) := by
  refine (Keeps.okOr _ _).bind fun _ => (Keeps.okOr _ _).bind fun _ =>
    (((h.readTensorRangeByDescriptor _ _ _).mapErr _).onSnd).bind fun _ => .forRange ?_ _ _
  exact fun r rowBuf => (Keeps.okOr _ _).bind fun _ => (Keeps.okOr _ _).bind fun _ =>
    (Keeps.okOr _ _).bind fun _ => ((Keeps.onLocal _ _).mapErr _).bind fun _ =>
      (keeps_storeDot _ _ _ _).bind fun _ => .pure _

omit [F32 R] [Zero R] [Add R] [Sub R] [Mul R] in
theorem keeps_streamRows {plan : StreamPlan} {chunk : Nat → Nat → List R → Streaming R (List R)}
    (hchunk : ∀ rowStart rowsThis rowBuf, Keeps (OnStream J) (chunk rowStart rowsThis rowBuf))
    (rowBuf : List R) : Keeps (OnStream J) (streamRows plan chunk rowBuf) := by
  refine .loopOn (fun l => ?_) _ _
  unfold streamRound
  split
  · exact .pure _
  · exact (hchunk _ _ _).bind fun _ => .pure _

theorem streamedMatvecInto (h : ReadsKeep J) {b : MemoryBudget} (desc : TensorDescriptor)
    (x y : List R) : Keeps (Neutral J b) (streamedMatvecInto desc x y) := by
  have hdims : Keeps (Neutral J b) (streamedDims desc x.length y.length) := by
    unfold streamedDims
    split
    · exact (Keeps.failIf _ _).bind fun _ => (Keeps.failIf _ _).bind fun _ => .pure _
    · exact .throw _
  refine hdims.bind fun dims => (keeps_rowBytesFor _ _).bind fun _ => (Keeps.okOr _ _).bind fun _ =>
    availableBytes.bind fun _ => (Keeps.okOr _ _).bind fun _ => Keeps.bind ?_ fun tempBytes =>
      (canAllocate _).bind fun fits => Keeps.bind ?_ fun _ => withTempHost ?_ _ _
  · split
    · exact .pure _
    · exact .okOr _ _
  · unfold failIfM
    split
    · exact (availableBytes.bind fun _ => .pure _).bind fun _ => .throw _
    · exact .pure _
  · split
    · exact (Keeps.withLocal (keeps_streamRows (h.f32Chunk _ x) _)).bind fun _ => .pure _
    · exact (reserveBuffer _).bind fun _ =>
        (Keeps.withLocal (keeps_streamRows (h.rawChunk _ x) _)).bind fun _ => .pure _

theorem matvecInto (h : ReadsKeep J) {b : MemoryBudget} (weight : PersistentWeight R) (x y : List R) :
    Keeps (Neutral J b) (weight.matvecInto x y) := by
  cases weight with
  | resident tensor => exact (Keeps.onLocal _ _).bind fun _ => .pure _
  | streamed desc => exact h.streamedMatvecInto desc x y

/-! ## Layers -/

section layers

open LayerLoad

variable (layerIdx : Nat) (layer : LayerDescriptor)

/-- The invariant of the reads, in front of the budget. -/
def Managing (J : List Answer × GgufDataSource → Prop) (s : Host × MemoryBudget) : Prop := OnHost J s.1

omit [Zero R] [Add R] [Sub R] [Mul R] [F32 R] in
theorem push (l : LoadedTensors R) (name : String) (tensorData : TensorData R) :
    Keeps (Managing J) (push l name tensorData) :=
  (Keeps.okOr _ _).bind fun _ => .pure _

omit [Zero R] [Add R] [Sub R] [Mul R] in
theorem loadTensor (h : ReadsKeep J) (l : LoadedTensors R) (desc : TensorDescriptor) :
    Keeps (Managing J) (loadTensor layerIdx l desc) := by
  refine (Keeps.resume _).bind fun _ => (Keeps.resume _).bind fun _ =>
    Keeps.bind (fun _ hs => hs) fun _ => Keeps.bind (fun s hs => h.loadTensorData desc s.1 hs) fun tensor =>
      (push _ _ _).bind fun _ => Keeps.bind ?_ fun _ => .pure _
  unfold settleCharge
  split
  · exact .pure _
  · exact Keeps.bind (fun _ hs => hs) fun _ => .pure _

theorem chargeRange (kind : String) (range : PlannedReadRange) :
    Keeps (Managing J) (chargeRange kind layerIdx layer range) :=
  .forM (fun _ => (Keeps.resume _).bind fun _ => (Keeps.resume _).bind fun _ =>
    (Keeps.ofResult _).bind fun _ => fun _ hs => hs) _

omit [Add R] in
theorem readAndDecodeGroupedRange (h : ReadsKeep J) (range : PlannedReadRange) (rangeIndex : Nat)
    (buffer : List UInt8) (l : LoadedTensors R) :
    Keeps (Managing J) (readAndDecodeGroupedRange layer range layerIdx rangeIndex buffer l) := by
  refine (Keeps.resume _).bind fun descriptors => Keeps.bind (fun s hs => ?_) fun r =>
    (Keeps.foldlM (fun l tensor => ?_) _ _).bind fun _ => .pure _
  · exact Keeps.withLocal ((h.readCoalescedTensorRangeInto _ _ _).mapErr _) s.1 hs
  · exact (Keeps.resume _).bind fun _ => (Keeps.resume _).bind fun _ => (Keeps.okOr _ _).bind fun _ =>
      (Keeps.okOr _ _).bind fun _ => Keeps.bind (fun s hs => loadTensorDataFromBorrowedBytes _ _ s.1 hs)
        fun _ => Keeps.self.bind fun _ => (Keeps.failIf _ _).bind fun _ => push _ _ _

omit [Add R] in
theorem loadTensors (h : ReadsKeep J) (plan : LayerReadPlan) (path : ReadPath) :
    Keeps (Managing J) (loadTensors (R := R) layerIdx layer plan path) := by
  cases path with
  | individual => exact .foldlM (fun l desc => h.loadTensor _ l desc) _ _
  | reused scratchBytes =>
    refine (Keeps.forM (fun range => chargeRange layerIdx layer _ range) _).bind fun _ =>
      keeps_withTemp (I := OnHost J) ?_ _ _
    exact Keeps.bind (fun s hs => reserveBuffer _ s.1 hs) fun _ =>
      (Keeps.foldlM (fun r range => h.readAndDecodeGroupedRange _ _ _ _ _ _) _ _).bind fun _ => .pure _
  | grouped =>
    refine .foldlM (fun l range => ?_) _ _
    unfold loadGroupedRange
    split
    · exact (chargeRange layerIdx layer _ _).bind fun _ => keeps_withTemp (I := OnHost J)
        ((h.readAndDecodeGroupedRange _ _ _ _ _ _).bind fun _ => .pure _) _ _
    · exact .foldlM (fun l tensor => (Keeps.resume _).bind fun _ => h.loadTensor _ l _) _ _

theorem releaseLayer {ε : Type} : Keeps (fun s : ResidencyStats × Host × MemoryBudget => OnHost J s.2.1)
    (StreamingLlamaModel.releaseLayer (ε := ε) layerIdx) := by
  have hrelease : ∀ names : List String, Keeps (Managing J) (LayerCache.releaseNames (ε := ε)
      (fun name error => "failed to release layer charge '" ++ name ++ "': " ++ error.display) names) := by
    intro names
    induction names with
    | nil => exact .pure _
    | cons name rest ih => exact Keeps.bind (Keeps.orPanic (fun _ hs => hs) _) fun _ => ih
  exact Keeps.self.bind fun s => (Keeps.forM (fun _ => Keeps.self.bind fun _ =>
    (Keeps.expect _ _).bind fun _ => .pure _) _).bind fun _ => (hrelease _).onSnd.bind fun _ =>
      fun _ hs => hs

theorem canAllocate_snd {ε : Type} (bytes : Nat) (b : MemoryBudget) :
    (MemoryBudget.canAllocate bytes b : Outcome ε Bool × MemoryBudget).2 = b := by
  unfold MemoryBudget.canAllocate MemoryBudget.availableBytes
  rw [bind_run, self_bind_run]
  cases checkedSub b.total b.used <;> rfl

omit [Zero R] [Add R] [Sub R] [Mul R] [F32 R] in
theorem readPath {I : Host × MemoryBudget → Prop} (model : StreamingLlamaModel R)
    (plan : LayerReadPlan) : Keeps I (readPath model layerIdx plan) := by
  have hfits : ∀ bytes, Keeps I (Exec.onSnd (MemoryBudget.canAllocate bytes) : Managed Bool) := by
    intro bytes s hs
    rw [onSnd_run, canAllocate_snd]
    exact hs
  refine Keeps.bind ?_ fun grouped => Keeps.bind ?_ fun peak => Keeps.bind ?_ fun _ => .pure _
  · unfold useGroupedReads
    split
    · exact (Keeps.expect _ _).bind fun _ => hfits _
    · exact .pure _
  · unfold reusablePeak
    split
    · exact .pure _
    · exact (Keeps.expect _ _).bind fun _ => .pure _
  · unfold useReusableBuffer
    split
    · split
      · exact .pure _
      · exact hfits _
    · exact .pure _

omit [Add R] in
theorem loadLayer (h : ReadsKeep J) (model : StreamingLlamaModel R) :
    Keeps (fun s : ResidencyStats × Host × MemoryBudget => OnHost J s.2.1) (model.loadLayer layerIdx) := by
  refine (Keeps.okOr _ _).bind fun layer => (Keeps.expect _ _).bind fun plan =>
    (readPath (I := Managing J) layerIdx model plan).onSnd.bind fun path =>
      (Keeps.attempt (h.loadTensors layerIdx layer plan path).onSnd).bind fun r => ?_
  cases r with
  | error error => exact (releaseLayer layerIdx).bind fun _ => .throw _
  | ok l =>
    refine Keeps.bind (fun _ hs => hs) fun _ => (Keeps.attempt (Keeps.resume _)).bind fun r => ?_
    cases r with
    | error error => exact (releaseLayer layerIdx).bind fun _ => .throw _
    | ok weights => exact .pure _

end layers

end GgufDataSource.ReadsKeep
end Ramforge
