/-
The product that a streamed weight has with a vector, as a function of the file.

The rows are read in chunks whose size depends on the budget, and each is decoded over the one
before it.  Row by row the chunks make one loop over the rows of the tensor, and what that loop
leaves does not depend on how it was cut.
-/
import Ramforge.Runtime.HostInvariant
import Ramforge.Runtime.TensorContents
import Ramforge.Rust.Rounds

namespace Ramforge

open Rust Rust.Exec GgufDataSource MemoryBudget

namespace StreamPlan

variable {R : Type} [F32 R] [Zero R] [Add R] [Sub R] [Mul R] {source : GgufDataSource}
  {files : List (GgufShardLayout × List UInt8)} {plan : StreamPlan} {x : List R}

omit [F32 R] [Sub R] in
/-- The sum of a row does not depend on the state. -/
theorem rowSum_agrees {σ τ : Type} (n : Nat) (row x : List R) :
    Agrees (Compute.rowSum n row x : Exec σ String R) (Compute.rowSum n row x : Exec τ String R) :=
  .foldlM (fun _ _ => (Agrees.expect _ _).bind fun _ => (Agrees.expect _ _).bind fun _ => .pure _) _ _

/-- The product of `row` with `x` is stored at `o`. -/
def Stores (inDim : Nat) (row x : List R) (o : Nat) (y y' : List R) : Prop :=
  ∃ sum, (Compute.rowSum inDim row x : Exec Unit String R) () = (.ok sum, ()) ∧ y' = y.set o sum

/-- What row `o` of the tensor is, given the row before it and the buffer that both share. -/
abbrev RowAt (R : Type) : Type := Nat → List R → List R → List R → Prop

/-- A row of an F32 tensor; no buffer is used. -/
def f32Row (files : List (GgufShardLayout × List UInt8)) (plan : StreamPlan) : RowAt R :=
  fun o before row after => after = before ∧ ∃ values,
    IsF32Range files (plan.desc.fileOffset + o * plan.inDim * sizeOfF32) plan.inDim values ∧
      row = values.map F32.fromBits

/-- A row that is decoded over the one before it. -/
def rawRow (files : List (GgufShardLayout × List UInt8)) (plan : StreamPlan) : RowAt R :=
  fun o before row after => after = row ∧ ∃ bytes,
    IsRange files (plan.desc.fileOffset + o * plan.rowBytes) plan.rowBytes bytes ∧
      decodeRowToF32 plan.desc.ggmlType bytes plan.inDim before = (.ok (), row)

/-- A row of the product, over the buffer and the output. -/
def Multiplied (rowAt : RowAt R) (inDim : Nat) (x : List R) (b : List R × List R) (o : Nat)
    (b' : List R × List R) : Prop :=
  ∃ row, rowAt o b.1 row b'.1 ∧ Stores inDim row x o b.2 b'.2

/-- The rows from `first` on, `count` of them. -/
def MultipliedRows (rowAt : RowAt R) (inDim : Nat) (x : List R) (first count : Nat) :
    List R × List R → List R × List R → Prop :=
  Rounds (Multiplied rowAt inDim x) (List.range' first count)

omit [Zero R] [Add R] [Sub R] [Mul R] in
theorem f32Row_unique {o : Nat} {before row row' after after' : List R}
    (h : f32Row files plan o before row after) (h' : f32Row files plan o before row' after') :
    row = row' ∧ after = after' := by
  obtain ⟨rfl, values, hvalues, rfl⟩ := h
  obtain ⟨rfl, values', hvalues', rfl⟩ := h'
  rw [hvalues.unique hvalues']
  exact ⟨rfl, rfl⟩

omit [Add R] in
theorem rawRow_unique {o : Nat} {before row row' after after' : List R}
    (h : rawRow files plan o before row after) (h' : rawRow files plan o before row' after') :
    row = row' ∧ after = after' := by
  obtain ⟨rfl, bytes, hbytes, hrun⟩ := h
  obtain ⟨rfl, bytes', hbytes', hrun'⟩ := h'
  rw [hbytes.unique hbytes', hrun'] at hrun
  exact ⟨(Prod.mk.inj hrun).2.symm, (Prod.mk.inj hrun).2.symm⟩

omit [F32 R] [Sub R] in
theorem MultipliedRows.unique {rowAt : RowAt R} {inDim first count : Nat} {b c c' : List R × List R}
    (hrow : ∀ o before row row' after after', rowAt o before row after → rowAt o before row' after' →
      row = row' ∧ after = after')
    (h : MultipliedRows rowAt inDim x first count b c) (h' : MultipliedRows rowAt inDim x first count b c') :
    c = c' := by
  refine Rounds.unique (fun b o _ c c' hc hc' => ?_) h h'
  obtain ⟨row, hat, sum, hsum, hset⟩ := hc
  obtain ⟨row', hat', sum', hsum', hset'⟩ := hc'
  obtain ⟨rfl, hafter⟩ := hrow o b.1 row row' c.1 c'.1 hat hat'
  obtain rfl : sum = sum' := Outcome.ok.inj (Prod.mk.inj (hsum.symm.trans hsum')).1
  exact Prod.ext hafter (hset.trans hset'.symm)

omit [F32 R] [Sub R] in
theorem MultipliedRows.snoc {rowAt : RowAt R} {inDim first count : Nat} {b c d : List R × List R}
    (h : MultipliedRows rowAt inDim x first count b c)
    (hrow : Multiplied rowAt inDim x c (first + count) d) :
    MultipliedRows rowAt inDim x first (count + 1) b d := by
  unfold MultipliedRows
  rw [List.range'_concat, Nat.one_mul]
  exact h.append (.cons hrow (.nil d))

omit [F32 R] [Sub R] in
theorem MultipliedRows.append {rowAt : RowAt R} {inDim first count more : Nat} {b c d : List R × List R}
    (h : MultipliedRows rowAt inDim x first count b c)
    (h' : MultipliedRows rowAt inDim x (first + count) more c d) :
    MultipliedRows rowAt inDim x first (count + more) b d := by
  unfold MultipliedRows
  rw [← List.range'_append_1]
  exact Rounds.append h h'

/-! ## One row -/

omit [F32 R] [Sub R] in
theorem of_storeDot_ok {row : List R} {o : Nat} {s t : List R × Host}
    (h : storeDot plan row x o s = (.ok (), t)) : Stores plan.inDim row x o s.1 t.1 ∧ t.2 = s.2 := by
  obtain ⟨sum, s₁, hsum, hrest⟩ := of_bind_ok h
  obtain ⟨hs₁, hagree⟩ := (rowSum_agrees (τ := Unit) plan.inDim row x).of_ok hsum
  obtain ⟨hstore, hhost⟩ := of_onFst_ok hrest
  rw [hs₁] at hstore hhost
  unfold store at hstore
  split at hstore
  · exact ⟨⟨sum, hagree (), (Prod.mk.inj hstore).2.symm⟩, hhost⟩
  · cases hstore

omit [F32 R] [Sub R] in
theorem ends_storeDot (row : List R) (o : Nat) (s : List R × Host) :
    Ends (storeDot plan row x o) s (fun _ t => Stores plan.inDim row x o s.1 t.1 ∧ t.2 = s.2)
      (fun _ _ => True) fun _ _ => True := by
  unfold Ends
  rcases hrun : storeDot plan row x o s with ⟨_ | _ | _, t⟩
  · exact of_storeDot_ok hrun
  · trivial
  · trivial

/-! ## Chunks -/

section chunks

variable (htiled : Tiled source.files) {s : List R × Host} (hhost : OnHost (Serves source) s.2)
  (rowStart rowsThis : Nat) (rowBuf : List R)
include htiled hhost

/-- What a chunk leaves. -/
def ChunkDone (source : GgufDataSource) (rowAt : RowAt R) (inDim : Nat) (x : List R) (first count : Nat)
    (b : List R × List R) (rowBuf : List R) (t : List R × Host) : Prop :=
  OnHost (Serves source) t.2 ∧ MultipliedRows rowAt inDim x first count b (rowBuf, t.1)

omit [Sub R] in
theorem ends_f32Chunk :
    Ends (f32Chunk plan x rowStart rowsThis rowBuf) s
      (ChunkDone source (f32Row source.files plan) plan.inDim x rowStart rowsThis (rowBuf, s.1))
      (fun _ _ => True) fun _ _ => True := by
  unfold f32Chunk
  simp only [ends_bind, ends_okOr]
  refine ⟨fun _ => trivial, fun elementOffset hoffset => ⟨fun _ => trivial, fun elementCount _ => ?_⟩⟩
  obtain ⟨-, rfl⟩ := checkedMul_eq_some.mp hoffset
  rw [ends_onSnd, ends_mapErr]
  refine (((readsKeep_serves htiled).readF32TensorRangeByDescriptor plan.desc _ elementCount).ends_value hhost
    fun values host hrun => (isF32Range_of_readF32TensorRangeByDescriptor htiled hhost hrun).2).mono
    (fun values host hread => ?_) (fun _ _ _ => trivial) fun _ _ _ => trivial
  obtain ⟨hhost', hvalues⟩ := hread
  refine Ends.forRange (I := fun r buf t =>
    ChunkDone source (f32Row source.files plan) plan.inDim x rowStart r (rowBuf, s.1) buf t)
    ⟨hhost', .nil _⟩ fun r _ buf t ht => ?_
  simp only [ends_bind, ends_okOr]
  refine ⟨fun _ => trivial, fun start hstart => ⟨fun _ => trivial, fun stop hstop =>
    ⟨fun _ => trivial, fun row hrow => ?_⟩⟩⟩
  obtain ⟨-, rfl⟩ := checkedMul_eq_some.mp hstart
  obtain ⟨-, rfl⟩ := checkedMul_eq_some.mp hstop
  obtain ⟨part, hpart, rfl⟩ : ∃ part, slice values (r * plan.inDim) ((r + 1) * plan.inDim) = some part ∧
      row = part.map F32.fromBits := by
    unfold slice at hrow ⊢
    rw [List.length_map] at hrow
    split at hrow
    next hle =>
      cases hrow
      exact ⟨_, if_pos hle, by rw [List.map_take, List.map_drop]⟩
    next => cases hrow
  refine (ends_storeDot _ (rowStart + r) t).mono (fun _ u hu => ?_) (fun _ _ _ => trivial)
    fun _ _ _ => trivial
  refine ⟨hu.2 ▸ ht.1, ht.2.snoc ⟨_, ⟨rfl, part, ?_, rfl⟩, hu.1⟩⟩
  have hrange := hvalues.slice hpart
  rw [show (r + 1) * plan.inDim - r * plan.inDim = plan.inDim by rw [Nat.succ_mul]; omega,
    Nat.add_assoc, ← Nat.add_mul, ← Nat.add_mul] at hrange
  exact hrange

theorem ends_rawChunk :
    Ends (rawChunk plan x rowStart rowsThis rowBuf) s
      (ChunkDone source (rawRow source.files plan) plan.inDim x rowStart rowsThis (rowBuf, s.1))
      (fun _ _ => True) fun _ _ => True := by
  unfold rawChunk
  simp only [ends_bind, ends_okOr]
  refine ⟨fun _ => trivial, fun offset hoffset => ⟨fun _ => trivial, fun len _ => ?_⟩⟩
  obtain ⟨-, rfl⟩ := checkedMul_eq_some.mp hoffset
  rw [ends_onSnd, ends_mapErr]
  refine (((readsKeep_serves htiled).readTensorRangeByDescriptor plan.desc _ len).ends_value hhost
    fun bytes host hrun => isRange_of_readTensorRangeByDescriptor htiled hhost hrun).mono
    (fun bytes host hread => ?_) (fun _ _ _ => trivial) fun _ _ _ => trivial
  obtain ⟨hhost', hbytes⟩ := hread
  refine Ends.forRange (I := fun r buf t =>
    ChunkDone source (rawRow source.files plan) plan.inDim x rowStart r (rowBuf, s.1) buf t)
    ⟨hhost', .nil _⟩ fun r _ buf t ht => ?_
  simp only [ends_bind, ends_okOr]
  refine ⟨fun _ => trivial, fun start hstart => ⟨fun _ => trivial, fun stop hstop =>
    ⟨fun _ => trivial, fun part hpart => ?_⟩⟩⟩
  obtain ⟨-, rfl⟩ := checkedMul_eq_some.mp hstart
  obtain ⟨-, rfl⟩ := checkedAdd_eq_some.mp hstop
  rw [ends_mapErr, ends_onLocal]
  rcases hdecode : decodeRowToF32 plan.desc.ggmlType part plan.inDim buf with ⟨_ | _ | _, row⟩
  · rw [ends_of_ok hdecode]
    refine (ends_storeDot row (rowStart + r) t).mono (fun _ u hu => ?_) (fun _ _ _ => trivial)
      fun _ _ _ => trivial
    refine ⟨hu.2 ▸ ht.1, ht.2.snoc ⟨row, ⟨rfl, part, ?_, hdecode⟩, hu.1⟩⟩
    have hrange := hbytes.slice hpart
    rw [Nat.add_sub_cancel_left, Nat.add_assoc, ← Nat.add_mul] at hrange
    exact hrange
  · rw [ends_of_err hdecode]
    trivial
  · unfold Ends
    rw [hdecode]
    trivial

end chunks

/-! ## The whole product -/

omit [F32 R] [Sub R] in
/-- Chunk by chunk the loop makes the rows of the tensor. -/
theorem ends_streamRows {rowAt : RowAt R} {chunk : Nat → Nat → List R → Streaming R (List R)}
    (hchunk : ∀ rowStart rowsThis rowBuf s, OnHost (Serves source) s.2 →
      Ends (chunk rowStart rowsThis rowBuf) s
        (ChunkDone source rowAt plan.inDim x rowStart rowsThis (rowBuf, s.1)) (fun _ _ => True)
        fun _ _ => True)
    {s : List R × Host} (hhost : OnHost (Serves source) s.2) (rowBuf : List R) :
    Ends (streamRows plan chunk rowBuf) s
      (fun _ t => OnHost (Serves source) t.2 ∧
        ∃ buf, MultipliedRows rowAt plan.inDim x 0 plan.outDim (rowBuf, s.1) (buf, t.1))
      (fun _ _ => True) fun _ _ => True := by
  refine Ends.loopN (I := fun l t => l.rowStart ≤ plan.outDim ∧
    ChunkDone source rowAt plan.inDim x 0 l.rowStart (rowBuf, s.1) l.rowBuf t) ?_ (fun _ _ _ => trivial)
    ?_
  swap
  · exact ⟨Nat.zero_le _, hhost, .nil _⟩
  intro l t ⟨hle, hhost', hrows⟩
  unfold streamRound
  split
  next hend =>
    refine ⟨hhost', l.rowBuf, ?_⟩
    rw [show plan.outDim = l.rowStart by omega]
    exact hrows
  next hmore =>
    refine (hchunk l.rowStart _ l.rowBuf t hhost').bind fun buf u hu => ⟨?_, hu.1, ?_⟩
    · show l.rowStart + min _ _ ≤ plan.outDim
      omega
    · exact hrows.append ((Nat.zero_add l.rowStart).symm ▸ hu.2)

end StreamPlan

variable {R : Type} [F32 R] [Zero R] [Add R] [Sub R] [Mul R] {source : GgufDataSource}
  {files : List (GgufShardLayout × List UInt8)} {desc : TensorDescriptor} {x y y' y'' : List R}

theorem rowBytesFor_agrees {σ τ : Type} (desc : TensorDescriptor) (inDim : Nat) :
    Agrees (rowBytesFor desc inDim : Exec σ String Nat) (rowBytesFor desc inDim : Exec τ String Nat) := by
  unfold rowBytesFor
  split
  · exact .okOr _ _
  · exact .okOr _ _
  · exact .okOr _ _
  · exact (Agrees.okOr _ _).bind fun _ => (Agrees.failIf _ _).bind fun _ => .okOr _ _

/-- `y'` is what the rows of the tensor in `files` make of `y` for the vector `x`. -/
def StreamedProduct (files : List (GgufShardLayout × List UInt8)) (desc : TensorDescriptor)
    (x y y' : List R) : Prop :=
  ∃ inDim outDim rowBytes buf, desc.dimensions = [inDim, outDim] ∧
    (rowBytesFor desc inDim : Exec Unit String Nat) () = (.ok rowBytes, ()) ∧
    let plan : StreamPlan := { desc, inDim, outDim, rowBytes, rowsPerChunk := 1 }
    if desc.ggmlType = .f32 then
      StreamPlan.MultipliedRows (StreamPlan.f32Row files plan) inDim x 0 outDim ([], y) (buf, y')
    else
      StreamPlan.MultipliedRows (StreamPlan.rawRow files plan) inDim x 0 outDim
        (List.replicate inDim 0, y) (buf, y')

theorem StreamedProduct.unique (h : StreamedProduct files desc x y y')
    (h' : StreamedProduct files desc x y y'') : y' = y'' := by
  obtain ⟨inDim, outDim, rowBytes, buf, hdims, hbytes, hrows⟩ := h
  obtain ⟨inDim', outDim', rowBytes', buf', hdims', hbytes', hrows'⟩ := h'
  rw [hdims'] at hdims
  cases hdims
  obtain rfl : rowBytes = rowBytes' := Outcome.ok.inj (Prod.mk.inj (hbytes.symm.trans hbytes')).1
  simp only at hrows hrows'
  split at hrows
  next hf32 =>
    rw [if_pos hf32] at hrows'
    refine (Prod.mk.inj (StreamPlan.MultipliedRows.unique ?_ hrows hrows')).2
    exact fun _ _ _ _ _ _ => StreamPlan.f32Row_unique
  next hf32 =>
    rw [if_neg hf32] at hrows'
    refine (Prod.mk.inj (StreamPlan.MultipliedRows.unique ?_ hrows hrows')).2
    exact fun _ _ _ _ _ _ => StreamPlan.rawRow_unique

/-- A streamed product that has returned is the one of the file, however large its chunks were. -/
theorem ends_streamedMatvecInto (htiled : Tiled source.files) {s : Host × MemoryBudget}
    (hhost : OnHost (Serves source) s.1) (desc : TensorDescriptor) (x y : List R) :
    Ends (streamedMatvecInto desc x y) s
      (fun y' t => OnHost (Serves source) t.1 ∧ StreamedProduct source.files desc x y y')
      (fun _ _ => True) fun _ _ => True := by
  let Serving (u : Host × MemoryBudget) : Prop := OnHost (Serves source) u.1
  have hlook : ∀ {α : Type} (m : Exec MemoryBudget String α), Keeps Serving (onSnd m) := fun _ _ hu => hu
  have hthen : ∀ {α : Type} {m : Managed α} {t : Host × MemoryBudget} {Q : α → Host × MemoryBudget → Prop},
      Keeps Serving m → Serving t → (∀ a u, Serving u → Q a u) →
      Ends m t Q (fun _ _ => True) fun _ _ => True := fun hm ht hQ =>
    (hm.ends ht).mono (fun a u hu => hQ a u hu) (fun _ _ _ => trivial) fun _ _ _ => trivial
  unfold streamedMatvecInto
  rw [ends_bind]
  rcases hdims : desc.dimensions with _ | ⟨inDim, _ | ⟨outDim, _ | ⟨_, _⟩⟩⟩ <;>
    simp only [streamedDims, hdims, ends_bind, ends_throw, ends_failIf, ends_pure]
  refine ⟨fun _ => trivial, fun _ => ⟨fun _ => trivial, fun _ => ?_⟩⟩
  obtain ⟨r, hr, hr'⟩ := rowBytesFor_agrees (σ := Host × MemoryBudget) (τ := Unit) desc inDim
  cases r with
  | err e =>
    rw [ends_of_err (hr s)]
    trivial
  | panic p =>
    unfold Ends
    rw [hr s]
    trivial
  | ok rowBytes =>
    rw [ends_of_ok (hr s), ends_okOr]
    refine ⟨fun _ => trivial, fun rowF32Bytes _ => hthen (hlook _) hhost fun available t ht => ?_⟩
    rw [ends_okOr]
    refine ⟨fun _ => trivial, fun chunkBytes _ => hthen ?_ ht fun tempBytes t ht =>
      hthen (hlook _) ht fun fits t ht => hthen ?_ ht fun _ t ht => ?_⟩
    · split
      · exact .pure _
      · exact .okOr _ _
    · unfold failIfM
      split
      · exact ((hlook _).bind fun _ => .pure _).bind fun _ => .throw _
      · exact .pure _
    · refine MemoryBudget.ends_withTemp_fst (Q := fun y' host => OnHost (Serves source) host ∧
        StreamedProduct source.files desc x y y') fun b => ends_onFst.mpr ?_
      by_cases hf32 : desc.ggmlType = .f32
      · simp only [hf32, decide_true, if_true]
        rw [ends_bind, ends_withLocal]
        refine (StreamPlan.ends_streamRows (fun rowStart rowsThis rowBuf u hu =>
          StreamPlan.ends_f32Chunk htiled hu rowStart rowsThis rowBuf) ht []).mono ?_ (fun _ _ h => h)
          fun _ _ h => h
        rintro _ u ⟨hhost', buf, hrows⟩
        refine ⟨hhost', inDim, outDim, rowBytes, buf, hdims, hr' (), ?_⟩
        simp only [hf32, if_true]
        exact hrows
      · simp only [hf32, decide_false, Bool.false_eq_true, if_false]
        have hreserve : Keeps (OnHost (Serves source)) (reserveBuffer "streamed decoded row") :=
          ReadsKeep.reserveBuffer _
        rw [ends_bind]
        refine (hreserve.ends ht).mono (fun _ v hv => ?_) (fun _ _ _ => trivial) fun _ _ _ => trivial
        rw [ends_bind, ends_withLocal]
        refine (StreamPlan.ends_streamRows (fun rowStart rowsThis rowBuf u hu =>
          StreamPlan.ends_rawChunk htiled hu rowStart rowsThis rowBuf) hv
          (List.replicate inDim 0)).mono ?_ (fun _ _ h => h) fun _ _ h => h
        rintro _ u ⟨hhost', buf, hrows⟩
        refine ⟨hhost', inDim, outDim, rowBytes, buf, hdims, hr' (), ?_⟩
        simp only [hf32, if_false]
        exact hrows

end Ramforge
