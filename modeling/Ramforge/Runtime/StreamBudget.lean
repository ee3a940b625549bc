/-
When a streamed product fits the budget.

The rows of a chunk are counted against a quarter of the available bytes, and the decoded
row is added afterwards.  A decoded row of more than six raw rows can then push a chunk of
several rows over bytes that one row would have fitted.
-/
import Ramforge.Core.MemoryAccounting
import Ramforge.Runtime.Persistent
import Ramforge.Rust.Ends

namespace Ramforge

open Rust Rust.Exec GgufDataSource

/-! ## The rows of a chunk -/

/-- `k` rows of `rowBytes` bytes are within the share and the cap of a chunk. -/
def InChunk (available rowBytes k : Nat) : Prop :=
  4 * (k * rowBytes) ≤ available ∧ k * rowBytes ≤ maxStreamChunkBytes

/-- The rows per chunk that a product takes. -/
def chunkRows (available rowBytes : Nat) : Nat :=
  max (max (min (available / streamChunkBudgetShare) maxStreamChunkBytes) rowBytes / rowBytes) 1

variable {available rowBytes k : Nat}

theorem inChunk_iff : InChunk available rowBytes k ↔
    k * rowBytes ≤ min (available / streamChunkBudgetShare) maxStreamChunkBytes := by
  rw [InChunk, le_min_iff, streamChunkBudgetShare, Nat.le_div_iff_mul_le (by decide)]
  constructor
  · rintro ⟨hshare, hcap⟩
    exact ⟨by omega, hcap⟩
  · rintro ⟨hshare, hcap⟩
    exact ⟨by omega, hcap⟩

theorem chunkRows_pos : 0 < chunkRows available rowBytes :=
  Nat.lt_of_lt_of_le Nat.zero_lt_one (le_max_right _ _)

theorem chunkRows_cases (available : Nat) (hrow : 0 < rowBytes) :
    chunkRows available rowBytes = 1 ∨ InChunk available rowBytes (chunkRows available rowBytes) := by
  rw [inChunk_iff, chunkRows]
  rcases Nat.le_total (min (available / streamChunkBudgetShare) maxStreamChunkBytes) rowBytes with
    hle | hle
  · rw [max_eq_right hle, Nat.div_self hrow]
    exact .inl rfl
  · rw [max_eq_left hle, max_eq_left ((Nat.one_le_div_iff hrow).mpr hle)]
    exact .inr (Nat.div_mul_le_self _ _)

theorem le_chunkRows (hrow : 0 < rowBytes) (h : InChunk available rowBytes k) :
    k ≤ chunkRows available rowBytes := by
  rw [inChunk_iff] at h
  refine le_max_of_le_left ((Nat.le_div_iff_mul_le hrow).mpr ?_)
  exact le_max_of_le_left h

/-- A chunk fits beside `decoded` bytes when no chunk of two rows or more is in the way. -/
theorem chunkRows_fits_iff {decoded : Nat} (hrow : 0 < rowBytes)
    (hmin : rowBytes + decoded ≤ available) :
    chunkRows available rowBytes * rowBytes + decoded ≤ available ↔
      ∀ k, 2 ≤ k → InChunk available rowBytes k → k * rowBytes + decoded ≤ available := by
  constructor
  · intro hfits k _ hk
    have := Nat.mul_le_mul_right rowBytes (le_chunkRows hrow hk)
    omega
  · intro hall
    rcases chunkRows_cases available hrow with hone | hin
    · rw [hone, Nat.one_mul]
      exact hmin
    · by_cases htwo : 2 ≤ chunkRows available rowBytes
      · exact hall _ htwo hin
      · have := Nat.mul_le_mul_right rowBytes (Nat.le_of_lt_succ (Nat.lt_of_not_le htwo))
        omega

/-- The rows of a chunk alone never exceed what one row fits. -/
theorem chunkRows_mul_le (hrow : 0 < rowBytes) (hmin : rowBytes ≤ available) :
    chunkRows available rowBytes * rowBytes ≤ available := by
  have := (chunkRows_fits_iff hrow (show rowBytes + 0 ≤ available from hmin)).mpr fun k _ hk => by
    have := hk.1
    omega
  omega

/-! ## Raw and decoded rows -/

/-- The types whose decoded rows are more than six raw rows. -/
def WideDecoded (ggmlType : GgmlType) : Prop :=
  ggmlType = .q4_0 ∨ ggmlType = .q4_K ∨ ggmlType = .q3_K ∨ ggmlType = .q2_K

instance (ggmlType : GgmlType) : Decidable (WideDecoded ggmlType) :=
  inferInstanceAs (Decidable (_ ∨ _))

/-- How a decoded row of `inDim` elements compares with a raw one. -/
structure RowRatio (ggmlType : GgmlType) (inDim rowBytes : Nat) : Prop where
  pos : 0 < rowBytes
  le : 4 * inDim ≤ 13 * rowBytes
  narrow : ¬WideDecoded ggmlType → 4 * inDim ≤ 6 * rowBytes
  wide : WideDecoded ggmlType → 7 * rowBytes ≤ 4 * inDim

/-- A chunk and a decoded row are never too long to count. -/
theorem RowRatio.chunk_add_lt {ggmlType : GgmlType} {inDim : Nat}
    (h : RowRatio ggmlType inDim rowBytes) (hmin : rowBytes + 4 * inDim ≤ available)
    (havail : available < u64Bound) :
    chunkRows available rowBytes * rowBytes + inDim * 4 < u64Bound := by
  rcases chunkRows_cases available h.pos with hone | ⟨-, hcap⟩
  · rw [hone, Nat.one_mul]
    omega
  · have hle := h.le
    have hrow : 1 * rowBytes ≤ chunkRows available rowBytes * rowBytes :=
      Nat.mul_le_mul_right _ chunkRows_pos
    unfold maxStreamChunkBytes at hcap
    unfold u64Bound
    omega

theorem streamedLayout_ratio {ggmlType : GgmlType} {blockElements blockBytes : Nat}
    (h : streamedLayout ggmlType = some (blockElements, blockBytes)) :
    0 < blockBytes ∧ 4 * blockElements ≤ 13 * blockBytes ∧
      (¬WideDecoded ggmlType → 4 * blockElements ≤ 6 * blockBytes) ∧
      (WideDecoded ggmlType → 7 * blockBytes ≤ 4 * blockElements) := by
  cases ggmlType <;> cases h <;> decide

theorem rowRatio_of_blocks {ggmlType : GgmlType} {inDim blockElements blockBytes : Nat}
    (hin : 0 < inDim) (h : streamedLayout ggmlType = some (blockElements, blockBytes))
    (hdiv : inDim % blockElements = 0) :
    RowRatio ggmlType inDim (inDim / blockElements * blockBytes) := by
  obtain ⟨hpos, hle, hnarrow, hwide⟩ := streamedLayout_ratio h
  obtain ⟨blocks, rfl⟩ := Nat.dvd_of_mod_eq_zero hdiv
  have helements : 0 < blockElements := Nat.pos_of_mul_pos_right hin
  have hblocks : 0 < blocks := Nat.pos_of_mul_pos_left hin
  rw [Nat.mul_div_cancel_left _ helements]
  have hmul : ∀ a b, a * blockElements ≤ b * blockBytes →
      a * (blockElements * blocks) ≤ b * (blocks * blockBytes) := by
    intro a b hab
    calc a * (blockElements * blocks) = a * blockElements * blocks := (Nat.mul_assoc ..).symm
      _ ≤ b * blockBytes * blocks := Nat.mul_le_mul_right _ hab
      _ = b * (blocks * blockBytes) := by rw [Nat.mul_assoc, Nat.mul_comm blockBytes]
  refine ⟨Nat.mul_pos hblocks hpos, hmul _ _ hle, fun hn => hmul _ _ (hnarrow hn), fun hw => ?_⟩
  calc 7 * (blocks * blockBytes) = 7 * blockBytes * blocks := by
        rw [Nat.mul_comm blocks, Nat.mul_assoc]
    _ ≤ 4 * blockElements * blocks := Nat.mul_le_mul_right _ (hwide hw)
    _ = 4 * (blockElements * blocks) := Nat.mul_assoc ..

theorem rowRatio_of_elements {ggmlType : GgmlType} {inDim elementBytes rowBytes : Nat}
    (hin : 0 < inDim) (hbytes : elementBytes = 2 ∨ elementBytes = 4) (hw : ¬WideDecoded ggmlType)
    (h : checkedMul inDim elementBytes = some rowBytes) : RowRatio ggmlType inDim rowBytes := by
  obtain ⟨-, rfl⟩ := checkedMul_eq_some.mp h
  rcases hbytes with rfl | rfl
  · exact ⟨by omega, by omega, fun _ => by omega, fun h => absurd h hw⟩
  · exact ⟨by omega, by omega, fun _ => by omega, fun h => absurd h hw⟩

theorem rowBytesFor_ratio {σ : Type} {desc : TensorDescriptor} {inDim : Nat} (hin : 0 < inDim)
    (s : σ) : Ends (rowBytesFor desc inDim : Exec σ String Nat) s
      (fun rowBytes _ => RowRatio desc.ggmlType inDim rowBytes) (fun _ _ => True)
      fun _ _ => True := by
  unfold rowBytesFor
  split
  next htype =>
    rw [htype, ends_okOr]
    exact ⟨fun _ => trivial, fun _ => rowRatio_of_elements hin (.inr rfl) (by decide)⟩
  next htype =>
    rw [htype, ends_okOr]
    exact ⟨fun _ => trivial, fun _ => rowRatio_of_elements hin (.inl rfl) (by decide)⟩
  next htype =>
    rw [htype, ends_okOr]
    exact ⟨fun _ => trivial, fun _ => rowRatio_of_elements hin (.inl rfl) (by decide)⟩
  next =>
    rw [ends_bind, ends_okOr]
    refine ⟨fun _ => trivial, fun layout hlayout => ?_⟩
    rw [ends_bind, ends_failIf]
    refine ⟨fun _ => trivial, fun hdiv => ?_⟩
    rw [ends_okOr]
    refine ⟨fun _ => trivial, fun rowBytes hrow => ?_⟩
    obtain ⟨-, rfl⟩ := checkedMul_eq_some.mp hrow
    exact rowRatio_of_blocks hin hlayout (Decidable.not_not.mp hdiv)

/-! ## Shortage -/

/-- The texts of the two errors that report too small a budget. -/
def ShortText (text : String) : Prop :=
  Text.startsWith text "RAM budget too small to stream tensor" = true ∨
    Text.startsWith text "insufficient memory" = true

/-- The call failed because of the budget. -/
def ShortOfMemory {α : Type} (o : Outcome String α) : Prop := ∃ e, o = .err e ∧ ShortText e

theorem not_shortText {text : String} {c : Char} (h : text.toList.head? = some c)
    (hr : c ≠ 'R') (hi : c ≠ 'i') : ¬ShortText text := by
  have hhead : ∀ p : String, ∀ d, p.toList.head? = some d → Text.startsWith text p = true → c = d := by
    intro p d hd hstarts
    obtain ⟨t, ht⟩ := Text.startsWith_iff.mp hstarts
    rw [← ht, List.head?_append, hd] at h
    exact (Option.some.inj h).symm
  rintro (hs | hs)
  · exact hr (hhead _ _ rfl hs)
  · exact hi (hhead _ _ rfl hs)

theorem head?_append {p : String} {c : Char} (h : p.toList.head? = some c) (t : String) :
    (p ++ t).toList.head? = some c := by
  rw [String.toList_append, List.head?_append, h]
  rfl

/-! ## The inside of a product -/

section products

variable {R : Type} [F32 R] [Zero R] [Add R] [Sub R] [Mul R]

omit [F32 R] [Sub R] in
theorem storeDot_unshort (plan : StreamPlan) (row x : List R) (o : Nat) :
    Errs (fun e => ¬ShortText e) (storeDot plan row x o) := by
  refine .bind (.forRange (fun i sum => ?_) 0) fun sum => .onFst fun s => ?_
  · refine .bind (.expect _ _) fun w => .bind (.expect _ _) fun xi => .pure _
  · rw [Ends, store]
    split_ifs <;> trivial

omit [Sub R] in
theorem f32Chunk_unshort (plan : StreamPlan) (x : List R) (rowStart rowsThis : Nat)
    (rowBuf : List R) :
    Errs (fun e => ¬ShortText e) (f32Chunk plan x rowStart rowsThis rowBuf) := by
  have hs : ∀ text : String, text.toList.head? = some 's' → ¬ShortText text := fun text h =>
    not_shortText h (by decide) (by decide)
  refine .bind (.okOr (hs _ rfl)) fun elementOffset => ?_
  refine .bind (.okOr (hs _ rfl)) fun elementCount => ?_
  refine .bind (.onSnd (.mapErr (fun e => ?_) _)) fun bits => ?_
  · exact not_shortText (head?_append (head?_append (head?_append rfl _) _) _) (by decide) (by decide)
  refine .forRange (fun r rowBuf => ?_) rowBuf
  refine .bind (.okOr (hs _ rfl)) fun chunkRowStart => ?_
  refine .bind (.okOr (hs _ rfl)) fun rowEnd => ?_
  refine .bind (.okOr (hs _ rfl)) fun row => ?_
  exact .bind (storeDot_unshort plan row x _) fun _ => .pure _

theorem rawChunk_unshort (plan : StreamPlan) (x : List R) (rowStart rowsThis : Nat)
    (rowBuf : List R) :
    Errs (fun e => ¬ShortText e) (rawChunk plan x rowStart rowsThis rowBuf) := by
  have hs : ∀ text : String, text.toList.head? = some 's' → ¬ShortText text := fun text h =>
    not_shortText h (by decide) (by decide)
  refine .bind (.okOr (hs _ rfl)) fun offset => ?_
  refine .bind (.okOr (hs _ rfl)) fun len => ?_
  refine .bind (.onSnd (.mapErr (fun e => ?_) _)) fun chunk => ?_
  · exact not_shortText (head?_append (head?_append (head?_append rfl _) _) _) (by decide) (by decide)
  refine .forRange (fun r rowBuf => ?_) rowBuf
  refine .bind (.okOr (hs _ rfl)) fun rowOffset => ?_
  refine .bind (.okOr (hs _ rfl)) fun rowEnd => ?_
  refine .bind (.okOr (hs _ rfl)) fun rowSlice => ?_
  refine .bind (.mapErr (fun e => ?_) _) fun decoded => ?_
  · exact not_shortText (head?_append (head?_append (head?_append rfl _) _) _) (by decide) (by decide)
  exact .bind (storeDot_unshort plan _ x _) fun _ => .pure _

omit [F32 R] [Zero R] [Add R] [Sub R] [Mul R] in
theorem streamRows_unshort {plan : StreamPlan}
    {chunk : Nat → Nat → List R → Streaming R (List R)}
    (hchunk : ∀ rowStart rowsThis rowBuf,
      Errs (fun e => ¬ShortText e) (chunk rowStart rowsThis rowBuf)) (rowBuf : List R) :
    Errs (fun e => ¬ShortText e) (streamRows plan chunk rowBuf) := by
  refine .loopOn (fun l => ?_) _ _
  unfold streamRound
  split
  next => exact .pure _
  next => exact .bind (hchunk _ _ _) fun _ => .pure _

/-- What a product does once its temporary bytes are charged. -/
def streamBody (plan : StreamPlan) (x y : List R) : Exec Host String (List R) :=
  if plan.desc.ggmlType = .f32 then do
    let (_, y) ← withLocal y (streamRows plan (f32Chunk plan x) [])
    return y
  else do
    reserveBuffer "streamed decoded row"
    let (_, y) ← withLocal y (streamRows plan (rawChunk plan x) (List.replicate plan.inDim 0))
    return y

theorem streamBody_unshort (plan : StreamPlan) (x y : List R) :
    Errs (fun e => ¬ShortText e) (streamBody plan x y) := by
  unfold streamBody
  split
  next =>
    exact .bind (.withLocal (streamRows_unshort (f32Chunk_unshort plan x) _) y) fun _ => .pure _
  next =>
    refine .bind (.bind (fun _ => trivial) fun reserve => .bind (.ofResult fun e he => ?_)
      fun _ => .pure _) fun _ => ?_
    · cases reserve with
      | ok _ => cases he
      | error text =>
        cases he
        exact not_shortText (head?_append (head?_append (head?_append rfl _) _) _) (by decide) (by decide)
    · exact .bind (.withLocal (streamRows_unshort (rawChunk_unshort plan x) _) y) fun _ => .pure _

omit [F32 R] [Zero R] [Add R] [Sub R] [Mul R] in
theorem release_unshort (name : String) :
    Errs (fun e => ¬ShortText (MemoryError.display e)) (MemoryBudget.release name) := by
  refine .bind (fun _ => trivial) fun b => .bind (.okOr ?_) fun bytes => .bind (.okOr ?_) fun _ => ?_
  · unfold MemoryError.display
    exact not_shortText (head?_append (head?_append rfl _) _) (by decide) (by decide)
  · unfold MemoryError.display
    refine not_shortText (c := 'm') ?_ (by decide) (by decide)
    simp only [String.toList_append, List.head?_append]
    rfl
  · exact fun _ => trivial

/-- A temporary charge that fits never runs short. -/
theorem withTempHost_unshort {α : Type} {name : String} {bytes : Nat} {f : Exec Host String α}
    {host : Host} {b : MemoryBudget} (hacc : MemoryBudget.Accounted b) (h0 : bytes ≠ 0)
    (hfits : bytes ≤ b.total - b.used) (hf : Errs (fun e => ¬ShortText e) f) :
    ¬ShortOfMemory (withTempHost name bytes f (host, b)).1 := by
  have hused := hacc.used_le
  rintro ⟨e, he, hshort⟩
  refine Ends.of_err (E := fun e _ => ¬ShortText e) (Q := fun _ _ => True) (P := fun _ _ => True)
    ?_ (Prod.ext he rfl) hshort
  rw [withTempHost, MemoryBudget.withTemp, if_neg h0, ends_bind, ends_mapErr, ends_onSnd, Ends,
    MemoryBudget.allocate_run hacc, if_neg h0]
  by_cases hheld : (b.get name).isSome
  · rw [if_pos hheld]
    unfold MemoryError.display
    exact not_shortText (head?_append (head?_append rfl _) _) (by decide) (by decide)
  rw [if_neg hheld, if_pos (by omega)]
  simp only [ends_bind, ends_catchUnwind, ends_onFst, ends_attempt, ends_onSnd]
  refine (hf host).mono (fun a host' _ => ?_) (fun e host' he => ?_) fun p host' _ => ?_
  · refine (release_unshort name _).mono (fun _ _ _ => trivial) (fun e _ he => he) fun _ _ _ => trivial
  · refine (release_unshort name _).mono (fun _ _ _ => he) (fun e _ he => he) fun _ _ _ => trivial
  · refine (release_unshort name _).mono (fun _ _ _ => trivial) (fun e _ he => trivial)
      fun _ _ _ => trivial

/-! ## The whole product -/

/-- A weight whose rows take `rowBytes` bytes and that a product of `x` into `y` accepts. -/
structure Streams (desc : TensorDescriptor) (x y : List R) (inDim rowBytes : Nat) : Prop where
  inDim_pos : 0 < inDim
  outDim_pos : 0 < y.length
  dimensions : desc.dimensions = [inDim, y.length]
  arity : x.length = inDim
  row : ∀ {σ : Type} (s : σ), (rowBytesFor desc inDim : Exec σ String Nat) s = (.ok rowBytes, s)

/-- The temporary bytes of a product. -/
def streamTemp (ggmlType : GgmlType) (available inDim rowBytes : Nat) : Nat :=
  chunkRows available rowBytes * rowBytes + if ggmlType = .f32 then 0 else 4 * inDim

variable {desc : TensorDescriptor} {x y : List R} {inDim rowBytes : Nat} {host : Host}
  {b : MemoryBudget}

omit [F32 R] [Zero R] [Add R] [Sub R] [Mul R] in
theorem Streams.ratio (h : Streams desc x y inDim rowBytes) :
    RowRatio desc.ggmlType inDim rowBytes :=
  (rowBytesFor_ratio h.inDim_pos ()).of_ok (h.row ())

omit [F32 R] [Zero R] [Add R] [Sub R] [Mul R] in
theorem Streams.dims_run {σ : Type} (h : Streams desc x y inDim rowBytes) (s : σ) :
    (streamedDims desc x.length y.length : Exec σ String (Nat × Nat)) s =
      (.ok (inDim, y.length), s) := by
  have hin := h.inDim_pos
  have hout := h.outDim_pos
  unfold streamedDims
  rw [h.dimensions, h.arity]
  simp only
  rw [failIf_bind_run, if_neg (by omega), failIf_bind_run, if_neg (by omega)]
  rfl

theorem Streams.run (h : Streams desc x y inDim rowBytes) (host : Host) (hacc : MemoryBudget.Accounted b)
    (hmin : rowBytes + 4 * inDim ≤ b.total - b.used) :
    (streamTemp desc.ggmlType (b.total - b.used) inDim rowBytes ≤ b.total - b.used →
      ∃ plan : StreamPlan, streamedMatvecInto desc x y (host, b) =
        withTempHost "tmp:streamed_matvec"
          (streamTemp desc.ggmlType (b.total - b.used) inDim rowBytes) (streamBody plan x y)
          (host, b)) ∧
    (b.total - b.used < streamTemp desc.ggmlType (b.total - b.used) inDim rowBytes →
      ShortOfMemory (streamedMatvecInto desc x y (host, b)).1) := by
  have hratio := h.ratio
  have htotal := hacc.total_lt
  have hused := hacc.used_le
  rw [streamedMatvecInto, bind_of_ok (h.dims_run _)]
  simp only
  have havail : (onSnd MemoryBudget.availableBytes : Managed Nat) (host, b) =
      (.ok (b.total - b.used), (host, b)) := by
    rw [onSnd_run, MemoryBudget.availableBytes_run hused]
  have hchunk : chunkRows (b.total - b.used) rowBytes * rowBytes ≤ b.total - b.used :=
    chunkRows_mul_le hratio.pos (by omega)
  have hfits : (onSnd (MemoryBudget.canAllocate
        (streamTemp desc.ggmlType (b.total - b.used) inDim rowBytes)) : Managed Bool) (host, b) =
      (.ok (decide (b.used + streamTemp desc.ggmlType (b.total - b.used) inDim rowBytes ≤ b.total)),
        (host, b)) := by
    rw [onSnd_run, MemoryBudget.canAllocate_run hused]
  have htemp : (if decide (desc.ggmlType = .f32) = true then
        pure (chunkRows (b.total - b.used) rowBytes * rowBytes)
      else okOr (checkedAdd (chunkRows (b.total - b.used) rowBytes * rowBytes) (inDim * 4))
        "streamed matvec temporary byte size overflow" : Managed Nat) =
      pure (streamTemp desc.ggmlType (b.total - b.used) inDim rowBytes) := by
    by_cases htype : desc.ggmlType = .f32
    · rw [streamTemp, if_pos htype, if_pos (decide_eq_true htype), Nat.add_zero]
    · rw [streamTemp, if_neg htype, if_neg (by simpa using htype),
        checkedAdd_of_lt (hratio.chunk_add_lt hmin (by omega)), Nat.mul_comm inDim]
      rfl
  rw [bind_of_ok (h.row _), checkedMul_of_lt (by omega), okOr_some, pure_bind_run,
    bind_of_ok havail]
  rw [← chunkRows, checkedMul_of_lt (by omega), okOr_some, pure_bind_run]
  rw [htemp, pure_bind_run, bind_of_ok hfits, failIfM_bind_run]
  constructor
  · intro hle
    refine ⟨{ desc, inDim, outDim := y.length, rowBytes,
              rowsPerChunk := chunkRows (b.total - b.used) rowBytes }, ?_⟩
    rw [decide_eq_true (by omega), if_neg (by decide)]
    simp only [decide_eq_true_eq]
    rfl
  · intro hlt
    rw [decide_eq_false (by omega), if_pos (by decide)]
    rw [bind_assoc, bind_of_ok havail, pure_bind_run, throw_run]
    refine ⟨_, rfl, .inl ?_⟩
    rw [String.append_assoc]
    have hstart : "RAM budget too small to stream tensor '" =
        "RAM budget too small to stream tensor" ++ " '" := rfl
    rw [hstart, String.append_assoc]
    exact Text.startsWith_append _ _

/-- With one raw and one decoded row available, a product runs short exactly when its own
temporary bytes are more than that. -/
theorem Streams.short_iff (h : Streams desc x y inDim rowBytes) (hacc : MemoryBudget.Accounted b)
    (hmin : rowBytes + 4 * inDim ≤ b.total - b.used) :
    ShortOfMemory (streamedMatvecInto desc x y (host, b)).1 ↔
      b.total - b.used < streamTemp desc.ggmlType (b.total - b.used) inDim rowBytes := by
  obtain ⟨hfits, hshort⟩ := h.run host hacc hmin
  refine ⟨fun hs => ?_, hshort⟩
  by_contra hle
  obtain ⟨plan, hrun⟩ := hfits (Nat.le_of_not_lt hle)
  rw [hrun] at hs
  refine withTempHost_unshort hacc ?_ (Nat.le_of_not_lt hle) (streamBody_unshort plan x y) hs
  have hpos : 0 < chunkRows (b.total - b.used) rowBytes * rowBytes :=
    Nat.mul_pos chunkRows_pos h.ratio.pos
  unfold streamTemp
  omega

/-- The same in terms of the bytes: two rows or more fit the chunk, and not beside the decoded
row. -/
theorem Streams.short_iff_chunk (h : Streams desc x y inDim rowBytes)
    (hacc : MemoryBudget.Accounted b) (hmin : rowBytes + 4 * inDim ≤ b.total - b.used) :
    ShortOfMemory (streamedMatvecInto desc x y (host, b)).1 ↔
      desc.ggmlType ≠ .f32 ∧ ∃ k, 2 ≤ k ∧ InChunk (b.total - b.used) rowBytes k ∧
        b.total - b.used < k * rowBytes + 4 * inDim := by
  have hpos := h.ratio.pos
  rw [h.short_iff hacc hmin, streamTemp]
  by_cases htype : desc.ggmlType = .f32
  · have hchunk := chunkRows_mul_le hpos (Nat.le_trans (Nat.le_add_right _ _) hmin)
    rw [if_pos htype, Nat.add_zero, iff_false_right (fun hk => hk.1 htype)]
    exact Nat.not_lt.mpr hchunk
  · rw [if_neg htype, ← Nat.not_le, chunkRows_fits_iff hpos hmin]
    push Not
    exact ⟨fun hk => ⟨htype, hk⟩, fun hk => hk.2⟩

theorem Streams.never_short (h : Streams desc x y inDim rowBytes)
    (hacc : MemoryBudget.Accounted b) (hmin : rowBytes + 4 * inDim ≤ b.total - b.used)
    (hrow : ¬WideDecoded desc.ggmlType ∨ maxStreamChunkBytes < 2 * rowBytes) :
    ¬ShortOfMemory (streamedMatvecInto desc x y (host, b)).1 := by
  rw [h.short_iff_chunk hacc hmin]
  rintro ⟨-, k, hk, ⟨hshare, hcap⟩, hover⟩
  have htwo : 2 * rowBytes ≤ k * rowBytes := Nat.mul_le_mul_right _ hk
  rcases hrow with hnarrow | hlong
  · have := h.ratio.narrow hnarrow
    omega
  · omega

/-- A fresh budget of one raw row and one decoded row is too small for a wide weight whose rows
are at most half a chunk. -/
theorem Streams.short_of_wide (h : Streams desc x y inDim rowBytes)
    (hwide : WideDecoded desc.ggmlType) (hcap : 2 * rowBytes ≤ maxStreamChunkBytes) (host : Host)
    (hnew : MemoryBudget.new (rowBytes + 4 * inDim) = .ok b) :
    MemoryBudget.Accounted b ∧ b.total - b.used = rowBytes + 4 * inDim ∧
      ShortOfMemory (streamedMatvecInto desc x y (host, b)).1 := by
  have hratio := h.ratio
  have hle := hratio.le
  have hge := hratio.wide hwide
  have hpos := hratio.pos
  have htotal : rowBytes + 4 * inDim < u64Bound := by
    unfold maxStreamChunkBytes at hcap
    unfold u64Bound
    omega
  obtain ⟨hacc, hused, -, hsize, -⟩ := MemoryBudget.accounted_new htotal hnew
  have havail : b.total - b.used = rowBytes + 4 * inDim := by omega
  refine ⟨hacc, havail, (h.short_iff_chunk hacc (Nat.le_of_eq havail.symm)).mpr ?_⟩
  rw [havail]
  refine ⟨fun htype => ?_, 2, Nat.le_refl 2, ⟨by omega, hcap⟩, by omega⟩
  rw [htype] at hwide
  exact absurd hwide (by decide)

/-- Which weights a budget of one raw row and one decoded row is always enough for, and for the
others which budgets above that are too small. -/
theorem streamedMatvecInto_shortOfMemory (h : Streams desc x y inDim rowBytes) (host : Host) :
    (∀ b, MemoryBudget.Accounted b → rowBytes + 4 * inDim ≤ b.total - b.used →
      (ShortOfMemory (streamedMatvecInto desc x y (host, b)).1 ↔
        desc.ggmlType ≠ .f32 ∧ ∃ k, 2 ≤ k ∧ InChunk (b.total - b.used) rowBytes k ∧
          b.total - b.used < k * rowBytes + 4 * inDim)) ∧
    ((∀ b, MemoryBudget.Accounted b → rowBytes + 4 * inDim ≤ b.total - b.used →
        ¬ShortOfMemory (streamedMatvecInto desc x y (host, b)).1) ↔
      ¬WideDecoded desc.ggmlType ∨ maxStreamChunkBytes < 2 * rowBytes) := by
  refine ⟨fun b hacc hmin => h.short_iff_chunk hacc hmin, fun hall => ?_, fun hrow b hacc hmin =>
    h.never_short hacc hmin hrow⟩
  by_contra hbad
  push Not at hbad
  obtain ⟨hacc, havail, hshort⟩ := h.short_of_wide hbad.1 hbad.2 host
    (MemoryBudget.new_run (Nat.add_pos_left h.ratio.pos _))
  exact hall _ hacc (Nat.le_of_eq havail.symm) hshort

end products

/-! ### Two rows of 256 weights -/

def twoRows (ggmlType : GgmlType) : TensorDescriptor where
  name := "output.weight"
  dimensions := [256, 2]
  ggmlType := ggmlType
  offset := 0
  fileOffset := 0
  byteLength := none
  numElements := 512

theorem streams_twoRows {ggmlType : GgmlType} {rowBytes : Nat} (h : ∀ {σ : Type} (s : σ),
    (rowBytesFor (twoRows ggmlType) 256 : Exec σ String Nat) s = (.ok rowBytes, s)) :
    Streams (twoRows ggmlType) (List.replicate 256 (0 : ℚ)) [0, 0] 256 rowBytes :=
  ⟨by decide, by decide, rfl, List.length_replicate, h⟩

theorem streams_q4_K : Streams (twoRows .q4_K) (List.replicate 256 (0 : ℚ)) [0, 0] 256 144 :=
  streams_twoRows fun _ => rfl

theorem streams_q6_K : Streams (twoRows .q6_K) (List.replicate 256 (0 : ℚ)) [0, 0] 256 210 :=
  streams_twoRows fun _ => rfl

def noShards : GgufDataSource where
  model := {
    path := "/models/tiny.gguf"
    fileSize := 0
    version := 3
    metadata := ∅
    tensors := []
    alignment := 32
    dataStartOffset := 0 }
  shards := []
  fileSize := 0

/-- A raw row of 144 bytes and a decoded one of 1024 fit in 1168 bytes, and the product does
not: it wants two raw rows at once. -/
theorem streamedMatvecInto_short_q4_K :
    ∃ b, MemoryBudget.new 1168 = .ok b ∧ MemoryBudget.Accounted b ∧ b.total - b.used = 144 + 4 * 256 ∧
      ShortOfMemory (streamedMatvecInto (twoRows .q4_K) (List.replicate 256 (0 : ℚ)) [0, 0]
        (([], [], noShards), b)).1 :=
  ⟨_, rfl, streams_q4_K.short_of_wide (by decide) (by decide) _ rfl⟩

/-- Rows of 210 bytes always leave room for the decoded row, rows of 144 bytes do not. -/
theorem streamedMatvecInto_shortOfMemory_twoRows :
    (∀ b, MemoryBudget.Accounted b → 210 + 4 * 256 ≤ b.total - b.used →
      ¬ShortOfMemory (streamedMatvecInto (twoRows .q6_K) (List.replicate 256 (0 : ℚ)) [0, 0]
        (([], [], noShards), b)).1) ∧
    ¬∀ b, MemoryBudget.Accounted b → 144 + 4 * 256 ≤ b.total - b.used →
      ¬ShortOfMemory (streamedMatvecInto (twoRows .q4_K) (List.replicate 256 (0 : ℚ)) [0, 0]
        (([], [], noShards), b)).1 := by
  refine ⟨(streamedMatvecInto_shortOfMemory streams_q6_K _).2.mpr (.inl (by decide)), fun hall => ?_⟩
  exact absurd ((streamedMatvecInto_shortOfMemory streams_q4_K _).2.mp hall) (by decide)

end Ramforge
