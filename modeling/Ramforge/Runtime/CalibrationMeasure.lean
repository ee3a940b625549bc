/-
What a measurement uses: the buffers it allocates are within the charge of its task, and what it
reads at once is within the reads of its task.
-/
import Ramforge.Core.QuantMinima
import Ramforge.Runtime.CalibrationRun
import Ramforge.Runtime.CalibrationTasks
import Ramforge.Rust.Ends

namespace Ramforge
namespace Calibration

open Rust Rust.Exec Planner

def CalibrationEvent.bufferBytes : CalibrationEvent → Nat
  | .allocated bytes => bytes
  | _ => 0

/-- Events of a measurement that allocates `n` bytes at most and reads `bound` bytes at once. -/
structure Uses (n bound : Nat) (events : List CalibrationEvent) : Prop where
  buffers : (events.map CalibrationEvent.bufferBytes).sum ≤ n
  kinds : ∀ event ∈ events, (∃ bytes, event = .allocated bytes) ∨
    ∃ bytes, bytes ≤ bound ∧ event = .read bytes

/-- What has happened since `start` is such a measurement. -/
def Spent (start : CalibrationHost) (n bound : Nat) (host : CalibrationHost) : Prop :=
  ∃ events, host.trace = start.trace ++ events ∧ Uses n bound events

namespace Spent

variable {start host : CalibrationHost} {n n' bound : Nat}

theorem refl (start : CalibrationHost) (bound : Nat) : Spent start 0 bound start :=
  ⟨[], (List.append_nil _).symm, Nat.le_refl 0, fun _ h => absurd h List.not_mem_nil⟩

theorem mono (h : Spent start n bound host) (hle : n ≤ n') : Spent start n' bound host := by
  obtain ⟨events, htrace, hbuffers, hkinds⟩ := h
  exact ⟨events, htrace, Nat.le_trans hbuffers hle, hkinds⟩

theorem of_trace (h : Spent start n bound host) {host' : CalibrationHost}
    (ht : host'.trace = host.trace) : Spent start n bound host' := by
  obtain ⟨events, htrace, huses⟩ := h
  exact ⟨events, ht.trans htrace, huses⟩

theorem allocated (h : Spent start n bound host) (bytes : Nat) :
    Spent start (n + bytes) bound { host with trace := host.trace ++ [.allocated bytes] } := by
  obtain ⟨events, htrace, hbuffers, hkinds⟩ := h
  refine ⟨events ++ [.allocated bytes], ?_, ?_, fun event hmem => ?_⟩
  · simp only [htrace, List.append_assoc]
  · rw [List.map_append, List.sum_append]
    exact Nat.add_le_add_right hbuffers bytes
  · rcases List.mem_append.mp hmem with hmem | hmem
    · exact hkinds event hmem
    · exact .inl ⟨bytes, List.mem_singleton.mp hmem⟩

theorem read (h : Spent start n bound host) {bytes : Nat} (hle : bytes ≤ bound) :
    Spent start n bound { host with trace := host.trace ++ [.read bytes] } := by
  obtain ⟨events, htrace, hbuffers, hkinds⟩ := h
  refine ⟨events ++ [.read bytes], ?_, ?_, fun event hmem => ?_⟩
  · simp only [htrace, List.append_assoc]
  · rw [List.map_append, List.sum_append]
    exact hbuffers
  · rcases List.mem_append.mp hmem with hmem | hmem
    · exact hkinds event hmem
    · exact .inr ⟨bytes, hle, List.mem_singleton.mp hmem⟩

end Spent

section asking

variable {ε : Type} {host : CalibrationHost} {E : ε → CalibrationHost → Prop}
  {P : String → CalibrationHost → Prop}

theorem ends_record {Q : Unit → CalibrationHost → Prop} (event : CalibrationEvent) :
    Ends (record event) host Q E P ↔ Q () { host with trace := host.trace ++ [event] } := Iff.rfl

theorem ends_durationNs {Q : Nat → CalibrationHost → Prop} :
    Ends durationNs host Q E P ↔
      Q (min (host.clock.headD 0) (u64Bound - 1)) { host with clock := host.clock.tail } := Iff.rfl

end asking

/-! ## Repeating an operation -/

section repeated

variable {τ : Type} {J : τ → Prop} {start : CalibrationHost} {bound : Nat}

/-- An operation that keeps its buffers in order and allocates nothing. -/
def Steady (J : τ → Prop) (start : CalibrationHost) (bound : Nat) (operation : Measuring τ Unit) : Prop :=
  ∀ n s, J s.1 → Spent start n bound s.2 →
    Ends operation s (fun _ t => J t.1 ∧ Spent start n bound t.2) (fun _ t => Spent start n bound t.2)
      fun _ _ => False

theorem forRange_steady {operation : Measuring τ Unit} (hop : Steady J start bound operation)
    (rounds n : Nat) (s : τ × CalibrationHost) (hJ : J s.1) (hs : Spent start n bound s.2) :
    Ends (forRange rounds (fun _ _ => operation) ()) s (fun _ t => J t.1 ∧ Spent start n bound t.2)
      (fun _ t => Spent start n bound t.2) fun _ _ => False :=
  Ends.forRange (I := fun _ _ t => J t.1 ∧ Spent start n bound t.2) ⟨hJ, hs⟩
    fun _ _ _ t ht => hop n t ht.1 ht.2

theorem takeSamples_ends {operation : Measuring τ Unit} (hop : Steady J start bound operation)
    (task : CalibrationTask) (unitsPerSample n count : Nat) (samples : List MeasurementSample)
    (s : τ × CalibrationHost) (hJ : J s.1) (hs : Spent start n bound s.2) :
    Ends (takeSamples task unitsPerSample operation count samples) s
      (fun taken t => taken.length ≤ samples.length + count ∧ Spent start n bound t.2)
      (fun _ t => Spent start n bound t.2) fun _ _ => False := by
  induction count generalizing samples s with
  | zero => exact ⟨Nat.le_refl _, hs⟩
  | succ count ih =>
    rw [takeSamples]
    refine (forRange_steady hop _ n s hJ hs).bind fun _ t ht => ?_
    rw [ends_bind, ends_onSnd, ends_durationNs, ends_bind, ends_failIf]
    refine ⟨fun _ => ht.2.of_trace rfl, fun _ => ?_⟩
    rw [ends_bind, ends_onSnd, ends_durationNs]
    split
    next =>
      refine ⟨?_, (ht.2.of_trace rfl).of_trace rfl⟩
      rw [List.length_append, List.length_singleton]
      omega
    next =>
      refine Ends.mono (ih _ _ ?_ ?_) (fun taken u hu => ⟨?_, hu.2⟩) (fun _ _ hu => hu)
        fun _ _ hu => hu
      · exact ht.1
      · exact (ht.2.of_trace rfl).of_trace rfl
      · have hlen := hu.1
        rw [List.length_append, List.length_singleton] at hlen
        omega

theorem measureRepeated_ends {operation : Measuring τ Unit} (hop : Steady J start bound operation)
    (task : CalibrationTask) (units n : Nat) (s : τ × CalibrationHost) (hJ : J s.1)
    (hs : Spent start n bound s.2) :
    Ends (measureRepeated task units operation) s
      (fun samples t => samples.length ≤ task.work.sampleCount ∧
        Spent start (n + task.work.sampleCount * 16) bound t.2)
      (fun _ t => Spent start (n + task.work.sampleCount * 16) bound t.2) fun _ _ => False := by
  have hmore : n ≤ n + task.work.sampleCount * 16 := Nat.le_add_right _ _
  unfold measureRepeated
  refine Ends.bind (R := fun _ t => J t.1 ∧ Spent start n bound t.2) ?_ fun _ t ht => ?_
  · refine Ends.forRange (I := fun _ _ (t : τ × CalibrationHost) => J t.1 ∧ Spent start n bound t.2)
      ⟨hJ, hs⟩ fun _ _ _ t ht => ?_
    rw [ends_bind]
    refine (hop n t ht.1 ht.2).mono (fun _ u hu => ?_) (fun _ _ hu => hu.mono hmore) fun _ _ hu => hu
    rw [ends_bind, ends_onSnd, ends_durationNs, ends_failIf]
    exact ⟨fun _ => (hu.2.of_trace rfl).mono hmore, fun _ => ⟨hu.1, hu.2.of_trace rfl⟩⟩
  · rw [ends_bind, ends_okOr]
    refine ⟨fun _ => ht.2.mono hmore, fun unitsPerSample _ => ?_⟩
    rw [ends_bind, ends_onSnd, ends_record]
    refine Ends.bind (takeSamples_ends hop task unitsPerSample (n + task.work.sampleCount * 16) _ [] _
      ?_ ?_) fun samples u hu => ?_
    · exact ht.1
    · exact ht.2.allocated _
    · rw [List.length_nil, Nat.zero_add] at hu
      rw [ends_bind, ends_failIf]
      exact ⟨fun _ => hu.2, fun _ => hu⟩

end repeated

/-! ## The four measurements -/

/-- A measurement that stays within the resources of its task, however it ends. -/
def Measures (task : CalibrationTask) (measurement : Asking (List MeasurementSample)) : Prop :=
  ∀ host, Ends measurement host
    (fun samples host' => samples.length ≤ task.work.sampleCount ∧
      Spent host task.expectedResources.memoryBytes task.expectedResources.storageReadBytes host')
    (fun _ host' =>
      Spent host task.expectedResources.memoryBytes task.expectedResources.storageReadBytes host')
    fun _ _ => False

theorem measureWith_ends {τ : Type} {J : τ → Prop} {start host : CalibrationHost} {n bound total : Nat}
    {operation : Measuring τ Unit} (hop : Steady J start bound operation) (task : CalibrationTask)
    (units : Nat) {buffers : τ} (hJ : J buffers) (hs : Spent start n bound host)
    (hle : n + task.work.sampleCount * 16 ≤ total) :
    Ends (measureWith buffers (measureRepeated task units operation)) host
      (fun samples host' => samples.length ≤ task.work.sampleCount ∧ Spent start total bound host')
      (fun _ host' => Spent start total bound host') fun _ _ => False := by
  unfold measureWith
  rw [ends_bind, ends_withLocal]
  refine (measureRepeated_ends hop task units n (buffers, host) hJ hs).mono (fun samples t ht => ?_)
    (fun _ t ht => ht.mono hle) fun _ _ ht => ht
  exact ⟨ht.1, ht.2.mono hle⟩

theorem measureCpuFloat_measures {task : CalibrationTask}
    (hmemory : 2 * (task.work.elementsPerIteration * 4) + task.work.sampleCount * 16 ≤
      task.expectedResources.memoryBytes) : Measures task (measureCpuFloat task) := by
  intro host
  have hstart := Spent.refl host task.expectedResources.storageReadBytes
  unfold measureCpuFloat
  simp only
  rw [ends_bind, ends_failIf]
  refine ⟨fun _ => hstart.mono (Nat.zero_le _), fun _ => ?_⟩
  rw [ends_bind, ends_record, ends_bind, ends_record]
  have hsteady : Steady (fun _ : Unit => True) host task.expectedResources.storageReadBytes (pure ()) :=
    fun n s hJ hs => ⟨hJ, hs⟩
  exact measureWith_ends hsteady task _ trivial ((hstart.allocated _).allocated _) (by omega)

theorem copySource_steady (source : List UInt8) (start : CalibrationHost) (bound : Nat) :
    Steady (fun destination => destination.length = source.length) start bound (copySource source) := by
  intro n s hJ hs
  unfold copySource copyFromSlice
  rw [ends_bind, ends_self]
  simp only
  rw [if_pos hJ.symm, expect_some, pure_bind]
  exact ⟨rfl, hs⟩

theorem measureMemoryCopy_measures {task : CalibrationTask}
    (hmemory : 2 * task.work.bytesPerIteration + task.work.sampleCount * 16 ≤
      task.expectedResources.memoryBytes) : Measures task (measureMemoryCopy task) := by
  intro host
  have hstart := Spent.refl host task.expectedResources.storageReadBytes
  unfold measureMemoryCopy
  simp only
  rw [ends_bind, ends_failIf]
  refine ⟨fun _ => hstart.mono (Nat.zero_le _), fun _ => ?_⟩
  rw [ends_bind, ends_record, ends_bind, ends_record]
  refine measureWith_ends (copySource_steady _ host _) task _ ?_ ((hstart.allocated _).allocated _)
    (by omega)
  rw [List.length_replicate, List.length_map, List.length_range]

theorem ends_transfer {host : CalibrationHost} {Q : Unit → CalibrationHost → Prop}
    {E : ObservationStatusReason → CalibrationHost → Prop} {P : String → CalibrationHost → Prop}
    (hQ : ∀ transfers, Q () { host with transfers }) (hE : ∀ e transfers, E e { host with transfers }) :
    Ends transfer host Q E P := by
  unfold Ends transfer
  by_cases h : host.transfers.headD true
  · rw [if_pos h]
    exact hQ _
  · rw [if_neg h]
    exact hE _ _

theorem ends_openFile {host : CalibrationHost} {Q : Unit → CalibrationHost → Prop}
    {E : ObservationStatusReason → CalibrationHost → Prop} {P : String → CalibrationHost → Prop}
    (hQ : ∀ opens, Q () { host with opens }) (hE : ∀ e opens, E e { host with opens }) :
    Ends openFile host Q E P := by
  unfold Ends openFile
  cases host.opens.headD .opened with
  | opened => exact hQ _
  | notFound => exact hE _ _
  | failed => exact hE _ _

theorem ends_fileLength {host : CalibrationHost} {Q : Nat → CalibrationHost → Prop}
    {E : ObservationStatusReason → CalibrationHost → Prop} {P : String → CalibrationHost → Prop}
    (hQ : ∀ length lengths, Q length { host with lengths })
    (hE : ∀ e lengths, E e { host with lengths }) : Ends fileLength host Q E P := by
  unfold Ends fileLength
  cases host.lengths.headD none with
  | some length => exact hQ _ _
  | none => exact hE _ _

theorem readFromStart_steady {length bound : Nat} (hle : length ≤ bound) (start : CalibrationHost) :
    Steady (fun _ : Unit => True) start bound (onSnd (readFromStart length)) := by
  intro n s hJ hs
  unfold readFromStart
  rw [ends_onSnd, ends_bind]
  refine ends_transfer (fun transfers => ?_) fun _ _ => hs.of_trace rfl
  rw [ends_bind, ends_record]
  have hread : Spent start n bound { s.2 with transfers, trace := s.2.trace ++ [.read length] } :=
    (hs.read hle).of_trace rfl
  exact ends_transfer (fun _ => ⟨hJ, hread.of_trace rfl⟩) fun _ _ => hread.of_trace rfl

theorem measureStorage_measures {task : CalibrationTask}
    (hmemory : task.work.bytesPerIteration + task.work.sampleCount * 16 ≤
      task.expectedResources.memoryBytes)
    (hreads : task.work.bytesPerIteration ≤ task.expectedResources.storageReadBytes)
    (storage : StorageProfile) : Measures task (measureStorage task storage) := by
  intro host
  have hnone : ∀ host' : CalibrationHost, host'.trace = host.trace →
      Spent host task.expectedResources.memoryBytes task.expectedResources.storageReadBytes host' :=
    fun host' ht => ((Spent.refl host _).mono (Nat.zero_le _)).of_trace ht
  unfold measureStorage
  rw [ends_bind]
  refine ends_openFile (fun _ => ?_) fun _ _ => hnone _ rfl
  rw [ends_bind]
  refine ends_fileLength (fun fileBytes _ => ?_) fun _ _ => hnone _ rfl
  rw [ends_bind, ends_failIf]
  refine ⟨fun _ => hnone _ rfl, fun _ => ?_⟩
  simp only
  rw [ends_bind, ends_failIf]
  refine ⟨fun _ => hnone _ rfl, fun _ => ?_⟩
  rw [ends_bind, ends_record]
  have hle : min task.work.bytesPerIteration fileBytes ≤ task.work.bytesPerIteration := min_le_left _ _
  refine measureWith_ends (readFromStart_steady (hle.trans hreads) host) task _ trivial
    (Spent.allocated (Spent.of_trace (Spent.refl host _) rfl) _) ?_
  omega

theorem length_makeQuantizedRow {format : CalibrationQuantization} {elements : Nat} {row : List UInt8}
    (h : makeQuantizedRow format elements = some row) :
    row.length = elements / (quantizedBlock format).1 * (quantizedBlock format).2.length := by
  unfold makeQuantizedRow at h
  simp only at h
  split at h
  · cases h
  · cases h
    rw [List.length_flatten, List.map_replicate, List.sum_replicate, smul_eq_mul]

theorem encodedBytes_eq (format : CalibrationQuantization) :
    quantizedTaskElements / (quantizedBlock format).1 * (quantizedBlock format).2.length =
      encodedBytes format := by
  cases format <;>
    simp [quantizedBlock, quantizedTaskElements, encodedBytes, LittleEndian.length_toBytes]

theorem length_quantizedBlock_le (format : CalibrationQuantization) :
    (quantizedBlock format).2.length ≤ 144 := by
  cases format <;> simp [quantizedBlock, LittleEndian.length_toBytes]

/-- The Q8_0 row decoder keeps the length of its output and does not panic. -/
theorem dequantizeRowQ8_0_ends {bytes : List UInt8} {n : Nat} (hbytes : n * 34 ≤ bytes.length)
    (hlt : bytes.length < u64Bound) {out : List ℚ} (hout : out.length = n * 32) :
    Ends (Quant.dequantizeRowQ8_0 bytes (n * 32)) out (fun _ out' => out'.length = n * 32)
      (fun _ _ => True) fun _ _ => False := by
  unfold Quant.dequantizeRowQ8_0
  have hchecks : Quant.rowChecks Quant.Format.q8_0 bytes (n * 32) out = (.ok (), out) :=
    Quant.rowChecks_run (show 0 < Quant.qk8_0 by decide) hbytes hlt out
  have hrounds : min (n * 32 / Quant.qk8_0) (chunkCount Quant.blockSizeQ8_0 bytes) ≤ n := by
    refine (min_le_left _ _).trans ?_
    rw [Nat.mul_div_cancel _ (by decide)]
  rw [ends_bind, ends_of_ok hchecks]
  refine Ends.forRange (I := fun _ _ (out : List ℚ) => out.length = n * 32) hout
    fun i hi _ out hout => ?_
  have hi : (i + 1) * 32 ≤ n * 32 := Nat.mul_le_mul_right _ (by omega)
  have hlo : i * 32 ≤ (i + 1) * 32 := Nat.mul_le_mul_right _ (Nat.le_succ i)
  rw [ends_bind, ends_ofResult]
  refine ⟨fun _ _ => trivial, fun block _ => ?_⟩
  rw [ends_bind, ends_self, ends_bind, slice_eq_some hlo (by omega), ends_expect]
  refine ⟨nofun, fun blockOut hblock => ?_⟩
  obtain rfl := Option.some.inj hblock
  have hkeep : ∀ out : List ℚ, (block.dequantize out).length = out.length := fun out =>
    Rust.forRange_rule (I := fun _ (out' : List ℚ) => out'.length = out.length) rfl
      fun _ _ out' h => by rw [List.length_set, h]
  have hdecoded : (block.dequantize ((out.drop (i * 32)).take ((i + 1) * 32 - i * 32))).length =
      (i + 1) * 32 - i * 32 := by
    rw [hkeep, List.length_take, List.length_drop]
    omega
  rw [ends_of_ok (Quant.copyFromSlice_run hlo (by omega) hdecoded)]
  rw [List.length_append, List.length_append, hdecoded, List.length_take, List.length_drop]
  omega

/-- Decoding a made-up row over its output. -/
theorem decodeQuantizedRow_ends (format : CalibrationQuantization) {encoded : List UInt8}
    (hlen : encoded.length = encodedBytes format) {out : List ℚ}
    (hout : out.length = quantizedTaskElements) :
    Ends (decodeQuantizedRow format encoded quantizedTaskElements) out
      (fun _ out' => out'.length = quantizedTaskElements) (fun _ _ => True) fun _ _ => False := by
  have hlt : encoded.length < u64Bound := by
    rw [hlen]
    exact Nat.lt_of_le_of_lt (encodedBytes_bounds format).2 (by decide)
  cases format with
  | q4_0 =>
    have hdecodes : (Quant.Format.q4_0 : Quant.Format ℚ).Decodes := Quant.BlockQ4_0.inverse.toDecodes
    have hbytes : 64 * (Quant.Format.q4_0 : Quant.Format ℚ).blockSize ≤ encoded.length := Nat.le_of_eq hlen.symm
    rw [ends_of_ok (show decodeQuantizedRow .q4_0 encoded quantizedTaskElements out = _ from
      Quant.dequantizeRow_run hdecodes hbytes hlt hout)]
    exact hdecodes.length_decoded hbytes
  | q8_0 =>
    exact dequantizeRowQ8_0_ends (n := 64) (Nat.le_of_eq hlen.symm) hlt hout
  | q4K =>
    have hdecodes : (Quant.Format.q4K : Quant.Format ℚ).Decodes := Quant.BlockQ4K.inverse.toDecodes
    have hbytes : 8 * (Quant.Format.q4K : Quant.Format ℚ).blockSize ≤ encoded.length := Nat.le_of_eq hlen.symm
    rw [ends_of_ok (show decodeQuantizedRow .q4K encoded quantizedTaskElements out = _ from
      Quant.dequantizeRow_run hdecodes hbytes hlt hout)]
    exact hdecodes.length_decoded hbytes

theorem measureQuantized_measures {task : CalibrationTask} {format : CalibrationQuantization}
    (helements : task.work.elementsPerIteration = quantizedTaskElements)
    (hmemory : 144 + encodedBytes format + quantizedTaskElements * 4 + task.work.sampleCount * 16 ≤
      task.expectedResources.memoryBytes) : Measures task (measureQuantized task format) := by
  intro host
  have hstart := Spent.refl host task.expectedResources.storageReadBytes
  have hblock := length_quantizedBlock_le format
  unfold measureQuantized
  simp only
  rw [helements, ends_bind, ends_record, ends_bind, ends_okOr]
  refine ⟨fun _ => (hstart.allocated _).mono (by omega), fun encoded hencoded => ?_⟩
  have hlen : encoded.length = encodedBytes format :=
    (length_makeQuantizedRow hencoded).trans (encodedBytes_eq format)
  rw [ends_bind, ends_record, ends_bind, ends_record]
  have hsteady : Steady (fun out : List ℚ => out.length = quantizedTaskElements) host
      task.expectedResources.storageReadBytes (mapErr (fun _ => .invalidWorkload)
        (onFst (decodeQuantizedRow format encoded quantizedTaskElements))) := by
    intro n s hJ hs
    rw [ends_mapErr, ends_onFst]
    exact (decodeQuantizedRow_ends format hlen hJ).mono (fun _ _ h => ⟨h, hs⟩) (fun _ _ _ => hs)
      fun _ _ h => h
  refine measureWith_ends hsteady task _ List.length_replicate
    (((hstart.allocated _).allocated _).allocated _) ?_
  omega

/-- Every measurement of a task that a plan makes stays within the resources of the task. -/
theorem Made.measures {level : CalibrationLevel} {modelFingerprint storageFingerprint : UInt64}
    {limits : CalibrationLimits} {task : CalibrationTask}
    (h : Made level modelFingerprint storageFingerprint limits task) (hsound : task.Sound)
    {storage : StorageProfile} {measurement : Asking (List MeasurementSample)}
    (hm : measurementOf task storage = some measurement) : Measures task measurement := by
  have hsamples := hsound.samples.2
  cases h with
  | cpu =>
    obtain rfl := Option.some.inj hm
    refine measureCpuFloat_measures ?_
    simp only [cpuTask, calibrationMetadataBytes] at hsamples ⊢
    omega
  | memory =>
    obtain rfl := Option.some.inj hm
    refine measureMemoryCopy_measures ?_
    simp only [memoryTask, calibrationMetadataBytes] at hsamples ⊢
    omega
  | storage =>
    obtain rfl := Option.some.inj hm
    refine measureStorage_measures ?_ (Nat.le_refl _) storage
    simp only [storageTask, calibrationMetadataBytes] at hsamples ⊢
    omega
  | quantized format =>
    obtain rfl := Option.some.inj hm
    refine measureQuantized_measures rfl ?_
    simp only [quantizedTask, calibrationMetadataBytes] at hsamples ⊢
    omega
  | strategy strategy => cases hm

end Calibration
end Ramforge
