/-
What the operations of a K/V cache do to its buffers.

`Holds` says that the buffers of all layers contain given rows.  Writing a row and
growing the buffers are the only changes.
-/
import Ramforge.Runtime.KvCache

namespace Ramforge
namespace KvCache

open Rust Rust.Exec Rust.Rows

variable {α : Type} {c : KvCache α} {ε : Type}

/-! ## Sizes -/

/-- The dimensions pass the checks of `layout`. -/
structure Sized (nLayers nKvHeads headDim maxSeqLen : Nat) : Prop where
  layers : 0 < nLayers
  heads : 0 < nKvHeads
  dim : 0 < headDim
  capacity : 0 < maxSeqLen
  fits : maxSeqLen * (nKvHeads * headDim) * 4 * 2 * nLayers < u64Bound

theorem Sized.elems_lt {nLayers nKvHeads headDim maxSeqLen : Nat}
    (h : Sized nLayers nKvHeads headDim maxSeqLen) :
    maxSeqLen * (nKvHeads * headDim) < u64Bound := by
  refine Nat.lt_of_le_of_lt ?_ h.fits
  calc maxSeqLen * (nKvHeads * headDim)
      ≤ maxSeqLen * (nKvHeads * headDim) * 4 * 2 := by omega
    _ ≤ maxSeqLen * (nKvHeads * headDim) * 4 * 2 * nLayers := Nat.le_mul_of_pos_right _ h.layers

theorem Sized.width_lt {nLayers nKvHeads headDim maxSeqLen : Nat}
    (h : Sized nLayers nKvHeads headDim maxSeqLen) : nKvHeads * headDim < u64Bound :=
  Nat.lt_of_le_of_lt (Nat.le_mul_of_pos_left _ h.capacity) h.elems_lt

theorem layout_eq_ok {nLayers nKvHeads headDim maxSeqLen : Nat} {l : KvLayout}
    (h : layout nLayers nKvHeads headDim maxSeqLen = .ok l) :
    Sized nLayers nKvHeads headDim maxSeqLen ∧
      l.elemsPerLayer = maxSeqLen * (nKvHeads * headDim) ∧
      l.bytesPerLayer = maxSeqLen * (nKvHeads * headDim) * 4 * 2 ∧
      l.totalBytes = l.bytesPerLayer * nLayers := by
  rw [layout] at h
  split at h
  · cases h
  rename_i hzero
  split at h
  · cases h
  rename_i elems helems
  split at h
  · cases h
  rename_i bytes hbytes
  split at h
  · cases h
  rename_i total htotal
  cases h
  obtain ⟨x, hx, hx'⟩ := Option.bind_eq_some_iff.mp helems
  obtain ⟨y, hy, hy'⟩ := Option.bind_eq_some_iff.mp hbytes
  obtain ⟨-, rfl⟩ := checkedMul_eq_some.mp hx
  obtain ⟨-, rfl⟩ := checkedMul_eq_some.mp hx'
  obtain ⟨-, rfl⟩ := checkedMul_eq_some.mp hy
  obtain ⟨-, rfl⟩ := checkedMul_eq_some.mp hy'
  obtain ⟨hlt, rfl⟩ := checkedMul_eq_some.mp htotal
  simp only [not_or] at hzero
  rw [Nat.mul_assoc maxSeqLen, sizeOfF32] at hlt
  rw [Nat.mul_assoc maxSeqLen]
  exact ⟨⟨by omega, by omega, by omega, by omega, hlt⟩, rfl, rfl, rfl⟩

theorem width_run (h : c.nKvHeads * c.headDim < u64Bound) :
    c.width = some (c.nKvHeads * c.headDim) := checkedMul_of_lt h

theorem existingElems_eq {n : Nat} (h : c.existingElems = some n) :
    n = c.maxSeqLen * (c.nKvHeads * c.headDim) := by
  obtain ⟨x, hx, hx'⟩ := Option.bind_eq_some_iff.mp h
  obtain ⟨-, rfl⟩ := checkedMul_eq_some.mp hx
  obtain ⟨-, rfl⟩ := checkedMul_eq_some.mp hx'
  exact Nat.mul_assoc _ _ _

/-! ## Buffers -/

/-- The rows of a layer that was never written are zeros. -/
def rowOr [Zero α] (w : Nat) (r : Option (List α)) : List α := r.getD (List.replicate w 0)

/-- Each of `n` layers has a buffer of `capacity` rows, with the given contents. -/
structure Holds [Zero α] (w capacity n : Nat) (rows : Nat → Nat → Option (List α))
    (caches : List (List α)) : Prop where
  layers : caches.length = n
  length : ∀ (layer : Nat) (buffer : List α), caches[layer]? = some buffer → buffer.length = capacity * w
  row_eq : ∀ (layer : Nat) (buffer : List α), caches[layer]? = some buffer → ∀ p < capacity,
    row w buffer p = rowOr w (rows layer p)

/-- `rows` with one more vector appended. -/
def record (rows : Nat → Nat → Option (List α)) (layer p : Nat) (v : List α) :
    Nat → Nat → Option (List α) :=
  fun l q => if l = layer ∧ q = p then some v else rows l q

section holds

variable [Zero α] {w capacity n layer p : Nat} {rows : Nat → Nat → Option (List α)}
  {caches : List (List α)}

theorem Holds.get (h : Holds w capacity n rows caches) (hl : layer < n) :
    ∃ buffer : List α, caches[layer]? = some buffer ∧ buffer.length = capacity * w := by
  obtain ⟨buffer, hb⟩ : ∃ buffer : List α, caches[layer]? = some buffer :=
    ⟨_, List.getElem?_eq_getElem (h.layers ▸ hl)⟩
  exact ⟨buffer, hb, h.length layer buffer hb⟩

/-- Writing one row of one layer. -/
theorem Holds.write (h : Holds w capacity n rows caches) (hl : layer < n) (hp : p < capacity)
    {v : List α} (hv : v.length = w) (s : KvCache α) :
    ∃ caches', writeLayer caches layer (p * w) (p * w + w) v s =
        ((.ok caches', s) : Outcome ε _ × _) ∧
      Holds w capacity n (record rows layer p v) caches' := by
  obtain ⟨buffer, hb, hlen⟩ := h.get hl
  have hrow : (p + 1) * w ≤ buffer.length := by
    rw [hlen]
    exact Nat.mul_le_mul_right w hp
  have hstop : p * w + w ≤ buffer.length := by rwa [Nat.succ_mul] at hrow
  have hcopy : copyInto buffer (p * w) (p * w + w) v =
      some (buffer.take (p * w) ++ v ++ buffer.drop (p * w + w)) :=
    copyInto_eq_some (by omega) hstop (by omega)
  have hlayer : layer < caches.length := h.layers ▸ hl
  refine ⟨caches.set layer (buffer.take (p * w) ++ v ++ buffer.drop (p * w + w)), ?_, ?_⟩
  · rw [writeLayer, expect_bind_run, hb]
    simp only
    rw [expect_bind_run, hcopy]
    rfl
  · refine ⟨by rw [List.length_set, h.layers], fun l b hlb => ?_, fun l b hlb q hq => ?_⟩
    · rw [List.getElem?_set] at hlb
      split at hlb
      · rename_i heq
        cases hlb
        rw [List.length_append, List.length_append, List.length_take, List.length_drop]
        omega
      · exact h.length l b hlb
    · rw [List.getElem?_set] at hlb
      split at hlb
      · rename_i heq
        cases hlb
        subst heq
        rw [row_write hrow hv, record]
        by_cases hqp : q = p
        · rw [if_pos hqp, if_pos ⟨rfl, hqp⟩]
          rfl
        · rw [if_neg hqp, if_neg fun hb => hqp hb.2]
          exact h.row_eq layer buffer hb q hq
      · rename_i hne
        rw [record, if_neg fun hb => hne hb.1.symm]
        exact h.row_eq l b hlb q hq

/-- The buffers of a larger capacity: the old ones in front of zeros. -/
def padded (extra : Nat) (caches : List (List α)) : List (List α) :=
  caches.map (· ++ List.replicate extra 0)

/-- Growing keeps every row and adds rows of zeros. -/
theorem Holds.grow (h : Holds w capacity n rows caches) {capacity' : Nat}
    (hle : capacity ≤ capacity') (hnew : ∀ layer p, capacity ≤ p → rows layer p = none) :
    Holds w capacity' n rows (padded (capacity' * w - capacity * w) caches) := by
  have hmul : capacity * w ≤ capacity' * w := Nat.mul_le_mul_right w hle
  refine ⟨by rw [padded, List.length_map, h.layers], fun l b hlb => ?_, fun l b hlb p hp => ?_⟩
  · rw [padded, List.getElem?_map, Option.map_eq_some_iff] at hlb
    obtain ⟨old, hold, rfl⟩ := hlb
    rw [List.length_append, List.length_replicate, h.length l old hold]
    omega
  · rw [padded, List.getElem?_map, Option.map_eq_some_iff] at hlb
    obtain ⟨old, hold, rfl⟩ := hlb
    have hlen := h.length l old hold
    by_cases hpc : p < capacity
    · rw [row_append_left (by rw [hlen]; exact Nat.mul_le_mul_right w hpc)]
      exact h.row_eq l old hold p hpc
    · obtain ⟨d, rfl⟩ : ∃ d, p = capacity + d := ⟨p - capacity, by omega⟩
      rw [row_append_right hlen, ← Nat.sub_mul, row_replicate (by omega), hnew l _ (by omega)]
      rfl

theorem holds_zero (w capacity n : Nat) :
    Holds w capacity n (fun _ _ => none) (List.replicate n (List.replicate (capacity * w) (0 : α))) := by
  refine ⟨List.length_replicate, fun l b hlb => ?_, fun l b hlb p hp => ?_⟩
  · rw [List.getElem?_replicate] at hlb
    split at hlb
    · cases hlb
      exact List.length_replicate
    · cases hlb
  · rw [List.getElem?_replicate] at hlb
    split at hlb
    · cases hlb
      exact row_replicate hp
    · cases hlb

end holds

/-! ## Allocation -/

section allocation

variable [Zero α]

theorem zeroedBuffer_cases (reserve : Reserve) (k len : Nat) (label : String) :
    (∃ e, (zeroedBuffer reserve k len label : Except String (List α)) = .error e) ∨
      (zeroedBuffer reserve k len label : Except String (List α)) =
        .ok (List.replicate len 0) := by
  rw [zeroedBuffer, tryReserve]
  cases reserve k with
  | none => exact .inr rfl
  | some error => exact .inl ⟨_, rfl⟩

theorem zeroedLayers_eq_ok {reserve : Reserve} {elems n k : Nat}
    {r : List (List α) × List (List α)} (h : zeroedLayers reserve elems n k = .ok r) :
    r = (List.replicate n (List.replicate elems 0), List.replicate n (List.replicate elems 0)) := by
  induction n generalizing k r with
  | zero => cases h; rfl
  | succ n ih =>
    rw [zeroedLayers] at h
    rcases zeroedBuffer_cases (α := α) reserve k elems "KV K storage" with ⟨e, he⟩ | he
    · rw [he] at h
      cases h
    rcases zeroedBuffer_cases (α := α) reserve (k + 1) elems "KV V storage" with ⟨e, he'⟩ | he'
    · rw [he, he'] at h
      cases h
    rw [he, he'] at h
    cases hrest : (zeroedLayers reserve elems n (k + 2) : Except String (_ × List (List α))) with
    | error e =>
      rw [hrest] at h
      cases h
    | ok rest =>
      rw [hrest] at h
      cases h
      rw [ih hrest]
      rfl

theorem allocateFromLayout_eq_ok {reserve : Reserve} {nLayers nKvHeads headDim maxSeqLen : Nat}
    {l : KvLayout}
    (h : allocateFromLayout reserve nLayers nKvHeads headDim maxSeqLen l = .ok c) :
    c = { nLayers, nKvHeads, headDim, maxSeqLen
          seqLen := 0
          kCaches := List.replicate nLayers (List.replicate l.elemsPerLayer 0)
          vCaches := List.replicate nLayers (List.replicate l.elemsPerLayer 0)
          bytesPerLayer := l.bytesPerLayer } := by
  rw [allocateFromLayout] at h
  cases h0 : tryReserve reserve 0 "KV K-layer table" with
  | error e => rw [h0] at h; cases h
  | ok u =>
    cases h1 : tryReserve reserve 1 "KV V-layer table" with
    | error e => rw [h0, h1] at h; cases h
    | ok u' =>
      rw [h0, h1] at h
      cases hl : (zeroedLayers reserve l.elemsPerLayer nLayers 2 : Except String (_ × List (List α))) with
      | error e => rw [hl] at h; cases h
      | ok r =>
        rw [hl] at h
        cases h
        rw [zeroedLayers_eq_ok hl]

end allocation

/-! ## Growth -/

section growth

variable [Zero α] {w : Nat} {kRows vRows : Nat → Nat → Option (List α)}

theorem copyInto_zeros {old : List α} {elems : Nat} (h : old.length ≤ elems) :
    copyInto (List.replicate elems 0) 0 old.length old =
      some (old ++ List.replicate (elems - old.length) 0) := by
  rw [copyInto_eq_some (Nat.zero_le _) (by rwa [List.length_replicate]) rfl, List.take_zero,
    List.nil_append, List.drop_replicate]

/-- The loop over the layers fails on a refused reservation or pads every buffer. -/
theorem grownLayers_run (hk : Holds w c.maxSeqLen c.nLayers kRows c.kCaches)
    (hv : Holds w c.maxSeqLen c.nLayers vRows c.vCaches) (reserve : Reserve) {elems : Nat}
    (hle : c.maxSeqLen * w ≤ elems) {n layer : Nat} (hn : layer + n = c.nLayers) :
    (∃ e, grownLayers reserve elems (c.maxSeqLen * w) n layer c = (.err e, c)) ∨
      grownLayers reserve elems (c.maxSeqLen * w) n layer c =
        (.ok (padded (elems - c.maxSeqLen * w) (c.kCaches.drop layer),
          padded (elems - c.maxSeqLen * w) (c.vCaches.drop layer)), c) := by
  induction n generalizing layer with
  | zero =>
    right
    rw [List.drop_eq_nil_of_le (by rw [hk.layers]; omega),
      List.drop_eq_nil_of_le (by rw [hv.layers]; omega)]
    rfl
  | succ n ih =>
    obtain ⟨k, hkl, hklen⟩ := hk.get (show layer < c.nLayers by omega)
    obtain ⟨v, hvl, hvlen⟩ := hv.get (show layer < c.nLayers by omega)
    have hkdrop : c.kCaches.drop layer = k :: c.kCaches.drop (layer + 1) := by
      obtain ⟨hlt, rfl⟩ := List.getElem?_eq_some_iff.mp hkl
      exact List.drop_eq_getElem_cons hlt
    have hvdrop : c.vCaches.drop layer = v :: c.vCaches.drop (layer + 1) := by
      obtain ⟨hlt, rfl⟩ := List.getElem?_eq_some_iff.mp hvl
      exact List.drop_eq_getElem_cons hlt
    rw [grownLayers, self_bind_run]
    rcases zeroedBuffer_cases (α := α) reserve (2 + 2 * layer) elems "grown KV K storage"
      with ⟨e, he⟩ | he
    · rw [he]
      exact .inl ⟨e, rfl⟩
    rcases zeroedBuffer_cases (α := α) reserve (3 + 2 * layer) elems "grown KV V storage"
      with ⟨e, he'⟩ | he'
    · rw [he, ofResult_ok_bind_run, hkl, expect_some, pure_bind_run, ← hklen,
        copyInto_zeros (by omega), expect_some, pure_bind_run, he']
      exact .inl ⟨e, rfl⟩
    have hkcopy : copyInto (List.replicate elems 0) 0 (c.maxSeqLen * w) k =
        some (k ++ List.replicate (elems - c.maxSeqLen * w) 0) := by
      rw [← hklen]
      exact copyInto_zeros (by omega)
    have hvcopy : copyInto (List.replicate elems 0) 0 (c.maxSeqLen * w) v =
        some (v ++ List.replicate (elems - c.maxSeqLen * w) 0) := by
      rw [← hvlen]
      exact copyInto_zeros (by omega)
    rw [he, ofResult_ok_bind_run, hkl, expect_some, pure_bind_run, hkcopy, expect_some,
      pure_bind_run, he', ofResult_ok_bind_run, hvl, expect_some, pure_bind_run, hvcopy,
      expect_some, pure_bind_run]
    rcases ih (show layer + 1 + n = c.nLayers by omega) with ⟨e, hrest⟩ | hrest
    · rw [bind_of_err hrest]
      exact .inl ⟨e, rfl⟩
    · rw [bind_of_ok hrest, hkdrop, hvdrop]
      exact .inr rfl

/-- The cache with its buffers replaced by larger ones. -/
def grown (capacity bytesPerLayer : Nat) (c : KvCache α) : KvCache α :=
  { c with
    kCaches := padded ((capacity - c.maxSeqLen) * (c.nKvHeads * c.headDim)) c.kCaches
    vCaches := padded ((capacity - c.maxSeqLen) * (c.nKvHeads * c.headDim)) c.vCaches
    maxSeqLen := capacity
    bytesPerLayer }

theorem allocateGrownBuffers_run
    (hk : Holds (c.nKvHeads * c.headDim) c.maxSeqLen c.nLayers kRows c.kCaches)
    (hv : Holds (c.nKvHeads * c.headDim) c.maxSeqLen c.nLayers vRows c.vCaches)
    (reserve : Reserve) {capacity : Nat} (hlt : c.maxSeqLen < capacity) :
    (∃ e, allocateGrownBuffers reserve capacity c = (.err e, c)) ∨
      ∃ l, allocateGrownBuffers reserve capacity c =
          (.ok ((grown capacity l.bytesPerLayer c).kCaches,
            (grown capacity l.bytesPerLayer c).vCaches, l), c) ∧
        Sized c.nLayers c.nKvHeads c.headDim capacity := by
  rw [allocateGrownBuffers, self_bind_run, if_neg (Nat.not_le.mpr hlt)]
  cases hl : layout c.nLayers c.nKvHeads c.headDim capacity with
  | error e => exact .inl ⟨e, rfl⟩
  | ok l =>
    obtain ⟨hsized, helems, -⟩ := layout_eq_ok hl
    rw [ofResult_ok_bind_run, okOr_bind_run]
    cases hold : c.existingElems with
    | none => exact .inl ⟨_, rfl⟩
    | some old =>
      obtain rfl := existingElems_eq hold
      simp only
      cases tryReserve reserve 0 "grown KV K-layer table" with
      | error e => exact .inl ⟨e, rfl⟩
      | ok u =>
        cases tryReserve reserve 1 "grown KV V-layer table" with
        | error e => exact .inl ⟨e, rfl⟩
        | ok u' =>
          have hle : c.maxSeqLen * (c.nKvHeads * c.headDim) ≤ l.elemsPerLayer := by
            rw [helems]
            exact Nat.mul_le_mul_right _ (Nat.le_of_lt hlt)
          rw [ofResult_ok_bind_run, ofResult_ok_bind_run]
          rcases grownLayers_run hk hv reserve hle (Nat.zero_add _) with ⟨e, hrun⟩ | hrun
          · rw [bind_of_err hrun]
            exact .inl ⟨e, rfl⟩
          · rw [bind_of_ok hrun, helems, ← Nat.sub_mul]
            exact .inr ⟨l, rfl, hsized⟩

/-- A growth leaves the cache as it was or replaces the buffers by larger ones. -/
theorem growTo_run
    (hk : Holds (c.nKvHeads * c.headDim) c.maxSeqLen c.nLayers kRows c.kCaches)
    (hv : Holds (c.nKvHeads * c.headDim) c.maxSeqLen c.nLayers vRows c.vCaches)
    (reserve : Reserve) (capacity : Nat) :
    (growTo reserve capacity c).2 = c ∨
      ∃ bytes, (growTo reserve capacity c).2 = grown capacity bytes c ∧
        c.maxSeqLen < capacity ∧ Sized c.nLayers c.nKvHeads c.headDim capacity := by
  rw [growTo, self_bind_run]
  by_cases hle : capacity ≤ c.maxSeqLen
  · rw [if_pos hle]
    exact .inl rfl
  rw [if_neg hle]
  rcases allocateGrownBuffers_run hk hv reserve (Nat.lt_of_not_le hle) with
    ⟨e, hrun⟩ | ⟨l, hrun, hsized⟩
  · rw [bind_of_err hrun]
    exact .inl rfl
  · rw [bind_of_ok hrun]
    exact .inr ⟨l.bytesPerLayer, rfl, Nat.lt_of_not_le hle, hsized⟩

theorem rollbackGrowth_fst {κ β : Type} (reservationName message note : String)
    (s : κ × MemoryBudget) :
    ((rollbackGrowth reservationName message note : Exec (κ × MemoryBudget) String β) s).2.1 =
      s.1 := by
  rw [rollbackGrowth, bind_run]
  simp only [attempt, onSnd_run]
  rcases MemoryBudget.release reservationName s.2 with ⟨_ | _ | _, b⟩ <;> rfl

theorem growToWithBudget_run {b : MemoryBudget}
    (hk : Holds (c.nKvHeads * c.headDim) c.maxSeqLen c.nLayers kRows c.kCaches)
    (hv : Holds (c.nKvHeads * c.headDim) c.maxSeqLen c.nLayers vRows c.vCaches)
    (reserve : Reserve) (capacity : Nat) (chargeName : String) :
    (growToWithBudget reserve capacity chargeName (c, b)).2.1 = c ∨
      ∃ bytes, (growToWithBudget reserve capacity chargeName (c, b)).2.1 =
          grown capacity bytes c ∧
        c.maxSeqLen < capacity ∧ Sized c.nLayers c.nKvHeads c.headDim capacity := by
  rw [growToWithBudget, self_bind_run]
  by_cases hle : capacity ≤ c.maxSeqLen
  · rw [if_pos hle]
    exact .inl rfl
  rw [if_neg hle]
  cases c.tryBytesForTokens c.maxSeqLen with
  | error e => exact .inl rfl
  | ok oldBytes =>
    rw [ofResult_ok_bind_run]
    cases c.tryBytesForTokens capacity with
    | error e => exact .inl rfl
    | ok newBytes =>
      rw [ofResult_ok_bind_run, bind_run, mapErr_run, onSnd_run]
      cases MemoryBudget.allocate (chargeName ++ ":growth") newBytes b with
      | mk o b₁ =>
        cases o with
        | err e => exact .inl rfl
        | panic p => exact .inl rfl
        | ok u =>
          simp only [Outcome.mapErr_ok, self_bind_run]
          by_cases hcharge : b₁.get chargeName ≠ some oldBytes
          · rw [if_pos hcharge]
            exact .inl (rollbackGrowth_fst _ _ _ _)
          rw [if_neg hcharge, bind_run]
          simp only [attempt, onFst_run]
          rcases allocateGrownBuffers_run hk hv reserve (Nat.lt_of_not_le hle) with
            ⟨e, hrun⟩ | ⟨l, hrun, hsized⟩
          · rw [hrun]
            exact .inl (rollbackGrowth_fst _ _ _ _)
          · rw [hrun]
            refine .inr ⟨l.bytesPerLayer, ?_, Nat.lt_of_not_le hle, hsized⟩
            simp only [bind_run, onFst_run, replaceBuffers, modify_run, orPanic, onSnd_run]
            rcases MemoryBudget.commitResize chargeName (chargeName ++ ":growth") newBytes b₁ with
              ⟨_ | _ | _, b₂⟩ <;> rfl

end growth

end KvCache
end Ramforge
