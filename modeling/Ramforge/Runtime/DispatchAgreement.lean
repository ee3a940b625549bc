/-
When the parallel product of a quantized tensor agrees with the serial one.

The serial kernel compares the output with the rows of the tensor.  The parallel
product makes slices of the output from raw parts and compares each slice with
the rows of its chunk, never the output with the rows of the tensor.
-/
import Ramforge.Core.FusedMatvec
import Ramforge.Runtime.BackendSettings
import Ramforge.Runtime.RowChunks

namespace Ramforge
namespace ComputeDispatch

open Rust Rust.Exec Quant

variable {R : Type} [CommRing R] [F32 R] {k : Fused} {raw : List UInt8} {x y : List R}
  {inDim outDim : Nat}

/-- Inputs of the wrong length, widths that are no whole number of blocks and
outputs of the wrong length are refused. -/
theorem rowRange_err {rowCount : Nat} (h : x.length ≠ inDim ∨ inDim % (k.format : Format R).qk ≠ 0 ∨
      y.length ≠ rowCount) :
    ∃ e, k.rowRange raw [rowCount, inDim] x 0 none y = (.err e, y) := by
  rw [k.rowRange_eq]
  simp only [matvecRowRange]
  rw [self_bind_run, failIf_bind_run]
  by_cases hx : x.length ≠ inDim
  · exact ⟨_, if_pos hx⟩
  rw [if_neg hx, failIf_bind_run, if_neg (Nat.not_lt_zero _), Option.getD_none, Nat.sub_zero]
  rcases hsum : checkedAdd 0 rowCount with _ | rowEnd
  · exact ⟨_, rfl⟩
  rw [okOr_some, pure_bind_run, failIf_bind_run]
  by_cases hy : rowEnd > rowCount ∨ y.length ≠ rowCount
  · exact ⟨_, if_pos hy⟩
  rw [if_neg hy, failIf_bind_run]
  have hblocks : inDim % (k.format : Format R).qk ≠ 0 := by
    rcases h with h | h | h
    · exact absurd h hx
    · exact h
    · exact absurd (Or.inr h) hy
  exact ⟨_, if_pos hblocks⟩

/-! ## One chunk -/

section chunks

variable {rowStart rowCount w : Nat}

/-- A chunk calls the kernel on the bytes of its rows and on its places of the output. -/
theorem rowChunk_eq (hraw : (rowStart + rowCount) * w ≤ raw.length) (hlt : raw.length < u64Bound) :
    rowChunk k.rowRange raw inDim w x (rowStart, rowCount) y =
      onWindow rowStart (rowStart + rowCount) (mapErr DataSourceError.text
        (k.rowRange ((raw.drop (rowStart * w)).take (rowCount * w)) [rowCount, inDim] x 0 none)) y := by
  rw [Nat.add_mul] at hraw
  have hoff : wrappingMul rowStart w = rowStart * w := wrappingMul_of_lt (by omega)
  have hlen : wrappingMul rowCount w = rowCount * w := wrappingMul_of_lt (by omega)
  simp only [rowChunk]
  rw [hoff, hlen, rawSlice_of_le (by omega) (by omega), pure_bind_run, Nat.add_sub_cancel_left]

theorem rowChunk_outside (hraw : (rowStart + rowCount) * w ≤ raw.length) (hlt : raw.length < u64Bound)
    (hy : y.length < rowStart + rowCount) :
    rowChunk k.rowRange raw inDim w x (rowStart, rowCount) y = (.panic undefinedBehavior, y) := by
  rw [rowChunk_eq hraw hlt, onWindow, slice_eq_none hy]

theorem rowChunk_err (hraw : (rowStart + rowCount) * w ≤ raw.length) (hlt : raw.length < u64Bound)
    (hy : rowStart + rowCount ≤ y.length)
    (h : x.length ≠ inDim ∨ inDim % (k.format : Format R).qk ≠ 0) :
    ∃ e, rowChunk k.rowRange raw inDim w x (rowStart, rowCount) y = (.err e, y) := by
  have hspan : rowStart + rowCount - rowStart = rowCount := Nat.add_sub_cancel_left ..
  have hkernel : ∃ e, k.rowRange ((raw.drop (rowStart * w)).take (rowCount * w)) [rowCount, inDim] x 0
      none ((y.drop rowStart).take rowCount) = (.err e, (y.drop rowStart).take rowCount) :=
    rowRange_err (h.imp_right Or.inl)
  obtain ⟨e, herr⟩ := hkernel
  refine ⟨e.text, ?_⟩
  have hjoin : y.take rowStart ++ (y.drop rowStart).take rowCount ++ y.drop (rowStart + rowCount) = y := by
    rw [List.append_assoc, ← List.drop_drop, List.take_append_drop, List.take_append_drop]
  rw [rowChunk_eq hraw hlt, onWindow, slice_eq_some (Nat.le_add_right _ _) hy, hspan]
  simp only []
  rw [mapErr_run, herr, hjoin]
  rfl

theorem rowChunk_ok {n : Nat} (hw : w = n * (k.format : Format R).blockSize)
    (hraw : (rowStart + rowCount) * w ≤ raw.length) (hlt : raw.length < u64Bound)
    (hrow : w < u64Bound) (hcount : rowCount < u64Bound)
    (hx : x.length = n * (k.format : Format R).qk) (hy : rowStart + rowCount ≤ y.length) :
    ∃ y', rowChunk k.rowRange raw (n * (k.format : Format R).qk) w x (rowStart, rowCount) y =
        (.ok (), y') ∧ y'.length = y.length ∧
      ∀ i < y.length,
        (rowStart ≤ i ∧ i < rowStart + rowCount → y'[i]? = some (k.products raw x n i)) ∧
        (¬(rowStart ≤ i ∧ i < rowStart + rowCount) → y'[i]? = y[i]?) := by
  subst hw
  let part := (raw.drop (rowStart * (n * (k.format : Format R).blockSize))).take
    (rowCount * (n * (k.format : Format R).blockSize))
  have hspan : rowStart + rowCount - rowStart = rowCount := Nat.add_sub_cancel_left ..
  have hpart : rowCount * (n * (k.format : Format R).blockSize) ≤ part.length := by
    rw [Nat.add_mul] at hraw
    rw [List.length_take, List.length_drop]
    omega
  have hpartlt : part.length < u64Bound := by
    rw [List.length_take, List.length_drop]
    omega
  have hwindow : ((y.drop rowStart).take rowCount).length = rowCount := by
    rw [List.length_take, List.length_drop]
    omega
  have hvalues : (List.range rowCount).map (k.products part x n) =
      (List.range rowCount).map fun i => k.products raw x n (rowStart + i) := by
    apply List.map_congr_left
    intro i hi
    rw [Fused.products, Fused.products, Rows.row_take_drop (List.mem_range.mp hi)]
  have hrun := k.rowRange_run hpart hpartlt hrow hcount hx hwindow
  refine ⟨y.take rowStart ++ ((List.range rowCount).map fun i => k.products raw x n (rowStart + i)) ++
    y.drop (rowStart + rowCount), ?_, ?_, ?_⟩
  · rw [rowChunk_eq hraw hlt, onWindow, slice_eq_some (Nat.le_add_right _ _) hy, hspan]
    simp only []
    rw [mapErr_run, hrun, hvalues]
    rfl
  · simp
    omega
  · intro i hi
    have htake : (y.take rowStart).length = rowStart := by
      rw [List.length_take]
      omega
    constructor
    · rintro ⟨hlo, hhi⟩
      rw [List.append_assoc, List.getElem?_append_right (by omega), htake,
        List.getElem?_append_left (by simp; omega)]
      have hplace : rowStart + (i - rowStart) = i := by omega
      have hcount' : i - rowStart < rowCount := by omega
      simp [hcount', hplace]
    · intro hout
      rcases Nat.lt_or_ge i rowStart with hlow | hhigh
      · rw [List.append_assoc, List.getElem?_append_left (by omega), List.getElem?_take_of_lt hlow]
      · rw [List.getElem?_append_right (by simp; omega), List.getElem?_drop]
        congr 1
        simp
        omega

end chunks

/-! ## The dispatcher -/

omit [CommRing R] in
theorem shapeElements_pair {m : Nat} (h : shapeElements [inDim, outDim] = some m) :
    m = inDim * outDim ∧ inDim * outDim < u64Bound := by
  rw [shapeElements, List.foldlM_cons] at h
  obtain ⟨a, ha, h⟩ := Option.bind_eq_some_iff.mp h
  rw [List.foldlM_cons] at h
  obtain ⟨b, hb, h⟩ := Option.bind_eq_some_iff.mp h
  obtain ⟨-, rfl⟩ := checkedMul_eq_some.mp ha
  obtain ⟨hlt, rfl⟩ := checkedMul_eq_some.mp hb
  cases h
  rw [Nat.one_mul] at hlt
  exact ⟨by rw [Nat.one_mul], hlt⟩

/-- The bytes of a two-dimensional tensor hold all its full rows. -/
theorem rows_le_rawData {tensor : QuantizedTensor} (htype : tensor.ggmlType = k.ggmlType)
    (hshape : tensor.shape = [inDim, outDim]) :
    outDim * (inDim / (k.format : Format R).qk * (k.format : Format R).blockSize) ≤
      tensor.rawData.length := by
  obtain ⟨qk, blockSize, hwell⟩ := tensor.wellFormed
  have hlayout : Compute.blockLayout tensor.ggmlType =
      some ((k.format : Format R).qk, (k.format : Format R).blockSize) := by
    rw [htype]
    cases k <;> rfl
  obtain ⟨rfl, rfl⟩ := Prod.mk.inj (Option.some.inj (hlayout.symm.trans hwell.layout))
  have helements := hwell.elements
  rw [hshape] at helements
  obtain ⟨hcount, -⟩ := shapeElements_pair helements
  have hblocks : outDim * (inDim / (k.format : Format R).qk) ≤
      tensor.numElements / (k.format : Format R).qk := by
    rw [hcount, Nat.mul_comm inDim]
    exact Nat.mul_div_le_mul_div_assoc ..
  rw [← Nat.mul_assoc]
  exact Nat.le_trans (Nat.mul_le_mul_right _ hblocks) hwell.size_le

theorem dispatch_eq (backend : CpuBackend) {tensor : QuantizedTensor}
    (htype : tensor.ggmlType = k.ggmlType) (hshape : tensor.shape = [inDim, outDim]) :
    quantizedMatvecDispatch backend (.quantized tensor) x =
      rowParallelMatvec backend k.format k.rowRange tensor.rawData outDim inDim x := by
  cases k <;> rw [quantizedMatvecDispatch, asQuantizedView, htype, hshape] <;> rfl

/-- The tensor has a row-parallel kernel of the format `k`. -/
def HasRowKernel (td : TensorData R) (k : Fused) (inDim outDim : Nat) : Prop :=
  ∃ tensor, td = .quantized tensor ∧ tensor.ggmlType = k.ggmlType ∧ tensor.shape = [inDim, outDim]

/-- Other tensors have the serial kernels only. -/
theorem dispatch_other (backend : CpuBackend) {td : TensorData R}
    (h : ¬∃ k inDim outDim, HasRowKernel td k inDim outDim) :
    quantizedMatvecDispatch backend td x = optimizedQuantizedMatvec td x := by
  have hview : asQuantizedView td = none := by
    cases td with
    | quantized tensor =>
      simp only [asQuantizedView]
      split
      · rename_i htype hshape
        exact absurd ⟨.q4_0, _, _, tensor, rfl, htype, hshape⟩ h
      · rename_i htype hshape
        exact absurd ⟨.q6K, _, _, tensor, rfl, htype, hshape⟩ h
      · rfl
    | _ => rfl
  rw [quantizedMatvecDispatch, hview]

/-- The workers get chunks of the rows. -/
def Parallel (backend : CpuBackend) (outDim : Nat) : Prop :=
  backend.threadCount > 1 ∧ outDim ≥ quantParallelRowThreshold

/-- The output does not fit a tensor whose rows go to the workers, and no worker
sees it: the output is too short, or it is too long and all else fits. -/
def Misfit (backend : CpuBackend) (td : TensorData R) (x y : List R) : Prop :=
  ∃ k inDim outDim, HasRowKernel td k inDim outDim ∧ Parallel backend outDim ∧
    (y.length < outDim ∨
      outDim < y.length ∧ x.length = inDim ∧ inDim % (k.format : Format R).qk = 0)

section parallel

variable {backend : CpuBackend} {td : TensorData R}

theorem serial_eq {tensor : QuantizedTensor} (htype : tensor.ggmlType = k.ggmlType)
    (hshape : tensor.shape = [inDim, outDim]) (hserial : ¬Parallel backend outDim) :
    quantizedMatvecDispatch backend (.quantized tensor) x =
      mapErr DataSourceError.text (k.rowRange tensor.rawData [outDim, inDim] x 0 none) := by
  have hthreads : ¬(backend.threadCount > 1 ∧ outDim ≥ quantParallelRowThreshold) := hserial
  rw [dispatch_eq _ htype hshape, rowParallelMatvec, if_neg hthreads]

theorem scalar_not_parallel (avx2 : Bool) (pool : Schedule) :
    ¬Parallel (.scalar avx2 pool) outDim :=
  fun h => absurd h.1 (Nat.lt_irrefl 1)

theorem rowBytes_lt {tensor : QuantizedTensor} (hshape : tensor.shape = [inDim, outDim]) :
    inDim / (k.format : Format R).qk * (k.format : Format R).blockSize < u64Bound := by
  have hin : inDim < u64Bound := tensor.shape_lt inDim (by rw [hshape]; exact List.mem_cons_self)
  have hblock : inDim / (k.format : Format R).qk * (k.format : Format R).blockSize ≤
      inDim / (k.format : Format R).qk * (k.format : Format R).qk :=
    Nat.mul_le_mul_left _ (Nat.le_of_lt k.blockSize_lt.1)
  have hwidth := Nat.div_mul_le_self inDim (k.format : Format R).qk
  omega

/-- The rows of a tensor go to the workers chunk by chunk. -/
theorem parallel_eq {tensor : QuantizedTensor} (htype : tensor.ggmlType = k.ggmlType)
    (hshape : tensor.shape = [inDim, outDim]) (hparallel : Parallel backend outDim) :
    quantizedMatvecDispatch backend (.quantized tensor) x =
      forEach (backend.pool.arrange (makeRowChunks outDim backend.threadCount))
        (rowChunk k.rowRange tensor.rawData inDim
          (inDim / (k.format : Format R).qk * (k.format : Format R).blockSize) x) := by
  have hrow : wrappingMul (inDim / (k.format : Format R).qk) (k.format : Format R).blockSize = _ :=
    wrappingMul_of_lt (rowBytes_lt hshape)
  have hthreads : backend.threadCount > 1 ∧ outDim ≥ quantParallelRowThreshold := hparallel
  rw [dispatch_eq _ htype hshape, rowParallelMatvec, if_pos hthreads]
  simp only []
  rw [hrow]

section tensor

variable {tensor : QuantizedTensor} (htype : tensor.ggmlType = k.ggmlType)
  (hshape : tensor.shape = [inDim, outDim]) (hparallel : Parallel backend outDim)

include htype hshape hparallel

omit hparallel in
theorem chunk_bounds {range : Nat × Nat} (h : range ∈ makeRowChunks outDim backend.threadCount) :
    range.1 + range.2 ≤ outDim ∧ (range.1 + range.2) *
      (inDim / (k.format : Format R).qk * (k.format : Format R).blockSize) ≤ tensor.rawData.length := by
  have hend := ((makeRowChunks_partition outDim backend.threadCount).contiguous.bounds h).2
  have hraw := rows_le_rawData (R := R) htype hshape
  exact ⟨hend, Nat.le_trans (Nat.mul_le_mul_right _ hend) hraw⟩

/-- A worker that comes first to the last chunk writes behind a short output. -/
theorem parallel_outside (hy : y.length < outDim) :
    (quantizedMatvecDispatch { backend with pool := .reversed } (.quantized tensor) x y).1 =
      .panic undefinedBehavior := by
  have hlt := tensor.rawData_lt
  have hbound := two_mul_isizeBound
  obtain ⟨ranges, last, hlast⟩ : ∃ ranges last,
      makeRowChunks outDim backend.threadCount = ranges ++ [last] :=
    ⟨_, _, (List.dropLast_append_getLast (makeRowChunks_ne_nil outDim backend.threadCount)).symm⟩
  have hpartition := makeRowChunks_partition outDim backend.threadCount
  have hend : last.1 + last.2 = outDim := by
    have htiles := hpartition.contiguous
    rw [hlast] at htiles
    exact htiles.hi_last
  have hmem : last ∈ makeRowChunks outDim backend.threadCount := by
    rw [hlast]
    exact List.mem_append_right _ List.mem_cons_self
  obtain ⟨-, hraw⟩ := chunk_bounds (R := R) htype hshape hmem
  have hchunks : quantizedMatvecDispatch { backend with pool := .reversed } (.quantized tensor) x =
      _ := parallel_eq htype hshape hparallel
  rw [hchunks]
  show ((forEach (Schedule.reversed.arrange _) _ : Exec (List R) String Unit) y).1 = _
  rw [Schedule.arrange_reversed, hlast, List.reverse_append]
  show ((rowChunk _ _ _ _ _ last >>= _ : Exec (List R) String Unit) y).1 = _
  rw [bind_of_panic (rowChunk_outside hraw (by omega) (by omega))]

theorem parallel_err (hy : outDim ≤ y.length)
    (h : x.length ≠ inDim ∨ inDim % (k.format : Format R).qk ≠ 0) :
    ∃ e, quantizedMatvecDispatch backend (.quantized tensor) x y = (.err e, y) := by
  have hlt := tensor.rawData_lt
  have hbound := two_mul_isizeBound
  rw [parallel_eq htype hshape hparallel]
  apply forEach_err
  · intro hnil
    apply makeRowChunks_ne_nil outDim backend.threadCount
    rw [← List.length_eq_zero_iff, ← (backend.pool.arrange_perm _).length_eq, hnil]
    rfl
  · intro range hrange
    rw [Schedule.mem_arrange] at hrange
    obtain ⟨hend, hraw⟩ := chunk_bounds (R := R) htype hshape hrange
    exact rowChunk_err hraw (by omega) (by omega) h

theorem parallel_ok {n : Nat} (hy : outDim ≤ y.length) (hin : inDim = n * (k.format : Format R).qk)
    (hx : x.length = inDim) :
    ∃ y', quantizedMatvecDispatch backend (.quantized tensor) x y = (.ok (), y') ∧
      (y.length = outDim → y' = (List.range outDim).map (k.products tensor.rawData x n)) := by
  subst hin
  have hlt := tensor.rawData_lt
  have hbound := two_mul_isizeBound
  have hn : n * (k.format : Format R).qk / (k.format : Format R).qk = n :=
    Nat.mul_div_cancel _ k.fuses.decodes.qk_pos
  have hrow := rowBytes_lt (k := k) (R := R) hshape
  have hout : outDim < u64Bound := tensor.shape_lt outDim (by rw [hshape]; simp)
  have hchunk : ∀ range ∈ backend.pool.arrange (makeRowChunks outDim backend.threadCount),
      ∀ ys : List R, ys.length = y.length → ∃ ys',
        rowChunk k.rowRange tensor.rawData (n * (k.format : Format R).qk)
          (n * (k.format : Format R).qk / (k.format : Format R).qk * (k.format : Format R).blockSize)
          x range ys = (.ok (), ys') ∧ ys'.length = y.length ∧ ∀ i < y.length,
          (range.1 ≤ i ∧ i < range.1 + range.2 →
            ys'[i]? = some (k.products tensor.rawData x n i)) ∧
          (¬(range.1 ≤ i ∧ i < range.1 + range.2) → ys'[i]? = ys[i]?) := by
    intro range hrange ys hys
    rw [Schedule.mem_arrange] at hrange
    obtain ⟨hend, hraw⟩ := chunk_bounds (R := R) htype hshape hrange
    rw [← hys]
    exact rowChunk_ok (by rw [hn]) hraw (by omega) hrow (by omega) hx (by omega)
  rw [parallel_eq htype hshape hparallel]
  obtain ⟨ys, hrun, -, -⟩ := forEach_write hchunk rfl
  refine ⟨ys, hrun, fun hlen => ?_⟩
  have hfill := forEach_fill hchunk ?_ rfl
  · rw [hrun, hlen] at hfill
    exact (Prod.mk.inj hfill).2
  · intro i hi
    obtain ⟨range, hrange, hplace⟩ := (makeRowChunks_partition outDim
      backend.threadCount).contiguous.exists_mem (Nat.zero_le i) (by omega)
    exact ⟨range, Schedule.mem_arrange.mpr hrange, hplace⟩

end tensor

/-- The serial kernel refuses what the parallel product does not look at. -/
theorem serial_err {tensor : QuantizedTensor} (htype : tensor.ggmlType = k.ggmlType)
    (hshape : tensor.shape = [inDim, outDim]) (h : x.length ≠ inDim ∨
      inDim % (k.format : Format R).qk ≠ 0 ∨ y.length ≠ outDim) (avx2 : Bool) (pool : Schedule) :
    ∃ e, quantizedMatvecDispatch (.scalar avx2 pool) (.quantized tensor) x y = (.err e, y) := by
  have hkernel : ∃ e, k.rowRange tensor.rawData [outDim, inDim] x 0 none y = (.err e, y) :=
    rowRange_err h
  obtain ⟨e, herr⟩ := hkernel
  refine ⟨e.text, ?_⟩
  rw [serial_eq htype hshape (scalar_not_parallel avx2 pool), mapErr_run, herr]
  rfl

theorem serial_ok {tensor : QuantizedTensor} (htype : tensor.ggmlType = k.ggmlType)
    (hshape : tensor.shape = [inDim, outDim]) {n : Nat} (hin : inDim = n * (k.format : Format R).qk)
    (hx : x.length = inDim) (hy : y.length = outDim) (avx2 : Bool) (pool : Schedule) :
    quantizedMatvecDispatch (.scalar avx2 pool) (.quantized tensor) x y =
      (.ok (), (List.range outDim).map (k.products tensor.rawData x n)) := by
  subst hin
  have hlt := tensor.rawData_lt
  have hbound := two_mul_isizeBound
  have hn : n * (k.format : Format R).qk / (k.format : Format R).qk = n :=
    Nat.mul_div_cancel _ k.fuses.decodes.qk_pos
  have hraw := rows_le_rawData (R := R) htype hshape
  have hrow := rowBytes_lt (k := k) (R := R) hshape
  have hout : outDim < u64Bound := tensor.shape_lt outDim (by rw [hshape]; simp)
  rw [hn] at hraw hrow
  rw [serial_eq htype hshape (scalar_not_parallel avx2 pool), mapErr_run,
    k.rowRange_run hraw (by omega) hrow hout hx hy]
  rfl

theorem agrees_of_not_misfit (h : ¬Misfit backend td x y) (avx2 : Bool) (pool : Schedule) :
    SameResult (quantizedMatvecDispatch backend td x y)
      (quantizedMatvecDispatch (.scalar avx2 pool) td x y) := by
  by_cases hrows : ∃ k inDim outDim, HasRowKernel td k inDim outDim
  · obtain ⟨k, inDim, outDim, tensor, rfl, htype, hshape⟩ := hrows
    by_cases hparallel : Parallel backend outDim
    · have hlong : outDim ≤ y.length := by
        by_contra hshort
        exact h ⟨k, inDim, outDim, ⟨tensor, rfl, htype, hshape⟩, hparallel, Or.inl (by omega)⟩
      by_cases hx : x.length = inDim ∧ inDim % (k.format : Format R).qk = 0
      · have hy : y.length = outDim := by
          by_contra hne
          exact h ⟨k, inDim, outDim, ⟨tensor, rfl, htype, hshape⟩, hparallel,
            Or.inr ⟨by omega, hx⟩⟩
        have hin : inDim = inDim / (k.format : Format R).qk * (k.format : Format R).qk :=
          (Nat.div_mul_cancel (Nat.dvd_of_mod_eq_zero hx.2)).symm
        obtain ⟨y', hok, hvalues⟩ := parallel_ok htype hshape hparallel hlong hin hx.1
        rw [hok, serial_ok htype hshape hin hx.1 hy, hvalues hy]
        exact ⟨rfl, fun _ => rfl⟩
      · have hinput : x.length ≠ inDim ∨ inDim % (k.format : Format R).qk ≠ 0 :=
          not_and_or.mp hx
        obtain ⟨e, hparallelErr⟩ := parallel_err htype hshape hparallel hlong hinput
        obtain ⟨e', hserialErr⟩ := serial_err (y := y) htype hshape (hinput.imp_right Or.inl) avx2 pool
        rw [hparallelErr, hserialErr]
        exact ⟨rfl, fun hok => by cases hok⟩
    · rw [serial_eq htype hshape hparallel,
        serial_eq htype hshape (scalar_not_parallel avx2 pool)]
      exact ⟨rfl, fun _ => rfl⟩
  · rw [dispatch_other _ hrows, dispatch_other _ hrows]
    exact ⟨rfl, fun _ => rfl⟩

end parallel

/-- The rows are shared out evenly, and the parallel product agrees with the
serial one, in whatever order the workers take their chunks, exactly if the
output does not misfit. -/
theorem dispatch_agrees_iff :
    (∀ outDim nChunks, IsRowPartition outDim (makeRowChunks outDim nChunks)) ∧
    ∀ (backend : CpuBackend) (td : TensorData R) (x y : List R),
      (∀ pool, SameResult (quantizedMatvecDispatch { backend with pool } td x y)
        (quantizedMatvecDispatch (.scalar backend.avx2 pool) td x y)) ↔ ¬Misfit backend td x y := by
  refine ⟨makeRowChunks_partition, fun backend td x y => ⟨?_, fun hfits pool => ?_⟩⟩
  · rintro hagree ⟨k, inDim, outDim, ⟨tensor, rfl, htype, hshape⟩, hparallel, hy⟩
    have hne : y.length ≠ outDim := by omega
    rcases hy with hshort | ⟨hlong, hx, hdivides⟩
    · obtain ⟨e, herr⟩ := serial_err htype hshape (Or.inr (Or.inr hne)) backend.avx2 .reversed
      have hkind := (hagree .reversed).1
      rw [parallel_outside htype hshape hparallel hshort, herr] at hkind
      cases hkind
    · have hin : inDim = inDim / (k.format : Format R).qk * (k.format : Format R).qk :=
        (Nat.div_mul_cancel (Nat.dvd_of_mod_eq_zero hdivides)).symm
      obtain ⟨e, herr⟩ := serial_err htype hshape (Or.inr (Or.inr hne)) backend.avx2 backend.pool
      obtain ⟨y', hok, -⟩ := parallel_ok htype hshape hparallel (Nat.le_of_lt hlong) hin hx
      have hkind := (hagree backend.pool).1
      rw [hok, herr] at hkind
      cases hkind
  · have hfits' : ¬Misfit { backend with pool } td x y := hfits
    exact agrees_of_not_misfit hfits' backend.avx2 pool

/-- A Q4_0 matrix of 128 rows of one block each, all bytes zero. -/
def zeroMatrix : QuantizedTensor where
  ggmlType := .q4_0
  shape := [32, 128]
  numElements := 4096
  rawData := List.replicate 2304 0
  wellFormed := ⟨32, 18, rfl, by decide, by decide, by decide, by rw [List.length_replicate]⟩
  shape_lt := by decide
  rawData_lt := by
    rw [List.length_replicate]
    decide

def twoWorkers : CpuBackend :=
  { threadCount := 2, threadCount_pos := Nat.two_pos, useSimd := false, avx2 := false,
    pool := .inOrder }

/-- An output with one place too many: two workers return, one thread does not. -/
theorem longOutput_disagrees :
    ¬SameResult
      (quantizedMatvecDispatch twoWorkers (.quantized zeroMatrix) (List.replicate 32 (0 : ℚ))
        (List.replicate 129 0))
      (quantizedMatvecDispatch (.scalar false .inOrder) (.quantized zeroMatrix)
        (List.replicate 32 (0 : ℚ)) (List.replicate 129 0)) := by
  rintro ⟨hkind, -⟩
  have htype : zeroMatrix.ggmlType = Fused.q4_0.ggmlType := rfl
  have hparallel : Parallel twoWorkers 128 := ⟨by decide, by decide⟩
  have hin : 32 = 1 * (Fused.q4_0.format : Format ℚ).qk := rfl
  have hx : (List.replicate 32 (0 : ℚ)).length = 32 := List.length_replicate
  have hy : (List.replicate 129 (0 : ℚ)).length = 129 := List.length_replicate
  obtain ⟨y', hok, -⟩ := parallel_ok htype rfl hparallel (y := List.replicate 129 0) (by omega) hin hx
  have hne : (List.replicate 129 (0 : ℚ)).length ≠ 128 := by omega
  obtain ⟨e, herr⟩ := serial_err (x := List.replicate 32 0) htype rfl (Or.inr (Or.inr hne)) false .inOrder
  rw [hok, herr] at hkind
  cases hkind

end ComputeDispatch
end Ramforge
