/-
Rotary position embedding of the query and the key heads of one token.

Over the reals it turns every pair of a head by an angle proportional to the
position, so the product of a query with a key depends on their distance only.
-/
import Mathlib.Analysis.SpecialFunctions.Pow.Real
import Ramforge.Core.Compute
import Ramforge.Rust.Rotation

namespace Ramforge

open Rust Rust.Exec

/-- The functions of `f32` that the rotation uses besides arithmetic. -/
class F32Rotation (R : Type) where
  isFinite : R → Bool
  /-- `<=`. -/
  le : R → R → Bool
  powf : R → R → R
  cos : R → R
  sin : R → R

noncomputable instance : F32 ℝ := ⟨fun bits => rationalOfBits bits, fun value => value⟩

open Classical in
noncomputable instance : F32Rotation ℝ where
  isFinite _ := true
  le a b := decide (a ≤ b)
  powf := (· ^ ·)
  cos := Real.cos
  sin := Real.sin

namespace Compute

section model

variable {R : Type} [Add R] [Sub R] [Mul R] [Div R] [Zero R] [F32 R] [F32Rotation R]

/-- A round of the loop over the pairs; the state is `values`. -/
def ropePair (position : Nat) (theta : R) (half idx : Nat) : Computing R Unit := do
  let values ← self
  let angle := F32Rotation.powf theta
    (F32.ofInt (-2) * F32.ofInt idx / F32.ofInt values.length) * F32.ofInt position
  let cosine := F32Rotation.cos angle
  let sine := F32Rotation.sin angle
  let first ← index values idx
  let second ← index values (idx + half)
  store idx (first * cosine - second * sine)
  store (idx + half) (first * sine + second * cosine)

def ropeHead (position : Nat) (theta : R) : Computing R Unit := do
  let values ← self
  let half := values.length / 2
  forRange half (fun idx _ => ropePair position theta half idx) ()

/-- The state is `q` and `k`. -/
def ropeReference (position headDim queryHeads kvHeads : Nat) (theta : R) :
    Exec (List R × List R) ComputeError Unit := do
  let (q, k) ← self
  failIf (headDim = 0 ∨ headDim % 2 ≠ 0) ⟨"RoPE head dimension must be non-zero and even"⟩
  failIf (queryHeads = 0 ∨ kvHeads = 0) ⟨"RoPE requires non-zero query and KV head counts"⟩
  failIf (¬F32Rotation.isFinite theta ∨ F32Rotation.le theta 0)
    ⟨"RoPE frequency base must be finite and positive"⟩
  let qWidth ← okOr (checkedMul queryHeads headDim) ⟨"RoPE query width overflow"⟩
  let kWidth ← okOr (checkedMul kvHeads headDim) ⟨"RoPE KV width overflow"⟩
  failIf (q.length ≠ qWidth ∨ k.length ≠ kWidth)
    ⟨s!"RoPE shape mismatch: q {q.length}, k {k.length}, heads {queryHeads}:{kvHeads}, head_dim {headDim}"⟩
  onFst (forRange queryHeads
    (fun head _ => onSlice (head * headDim) ((head + 1) * headDim) (ropeHead position theta)) ())
  onSnd (forRange kvHeads
    (fun head _ => onSlice (head * headDim) ((head + 1) * headDim) (ropeHead position theta)) ())

end model

/-! ## The rotation over the reals -/

/-- The angle of pair `i` of a head with `half` pairs. -/
noncomputable def ropeAngle (half : Nat) (theta : ℝ) (position i : Nat) : ℝ :=
  theta ^ (-2 * i / (half + half) : ℝ) * position

theorem ropePair_run {position half idx : Nat} {theta : ℝ} {xs : List ℝ}
    (hxs : xs.length = half + half) (hidx : idx < half) :
    ropePair position theta half idx xs =
      (.ok (), (xs.set idx (xs.getD idx 0 * Real.cos (ropeAngle half theta position idx) -
          xs.getD (idx + half) 0 * Real.sin (ropeAngle half theta position idx))).set (idx + half)
        (xs.getD idx 0 * Real.sin (ropeAngle half theta position idx) +
          xs.getD (idx + half) 0 * Real.cos (ropeAngle half theta position idx))) := by
  have hangle : F32Rotation.powf theta
      (F32.ofInt (-2) * F32.ofInt idx / F32.ofInt xs.length) * F32.ofInt position =
        ropeAngle half theta position idx := by
    rw [hxs, ropeAngle]
    simp [F32Rotation.powf, F32.ofInt]
  rw [ropePair, self_bind_run, hangle, index_of_lt (by omega) 0, pure_bind_run,
    index_of_lt (by omega) 0, pure_bind_run, bind_of_ok (store_of_lt (by omega) _),
    store_of_lt (by rw [List.length_set]; omega)]
  rfl

theorem ropeHead_run {position half : Nat} {theta : ℝ} {values : List ℝ}
    (hvalues : values.length = half + half) :
    ropeHead position theta values =
      (.ok (), rotate half (ropeAngle half theta position) values) := by
  have hhalf : (half + half) / 2 = half := by omega
  rw [ropeHead, self_bind_run, hvalues, hhalf]
  exact forRange_pairs
    (u := fun i x y => x * Real.cos (ropeAngle half theta position i) -
      y * Real.sin (ropeAngle half theta position i))
    (v := fun i x y => x * Real.sin (ropeAngle half theta position i) +
      y * Real.cos (ropeAngle half theta position i))
    0 hvalues fun i hi xs hxs => ropePair_run hxs hi

end Compute

/-- The shape of the query and the KV heads of a token, whose widths are lengths of slices. -/
structure RopeShape where
  headDim : Nat
  queryHeads : Nat
  kvHeads : Nat
  headDim_pos : 0 < headDim
  even : headDim % 2 = 0
  queryHeads_pos : 0 < queryHeads
  kvHeads_pos : 0 < kvHeads
  query_lt : queryHeads * headDim < u64Bound
  kv_lt : kvHeads * headDim < u64Bound

namespace RopeShape

variable {shape : RopeShape} {theta : ℝ} {position : Nat} {s s' : List ℝ × List ℝ}

theorem half_add_half (shape : RopeShape) :
    shape.headDim / 2 + shape.headDim / 2 = shape.headDim := by
  have := shape.even
  omega

/-- The vectors have the lengths of the shape. -/
structure Fits (shape : RopeShape) (s : List ℝ × List ℝ) : Prop where
  query : s.1.length = shape.queryHeads * shape.headDim
  kv : s.2.length = shape.kvHeads * shape.headDim

/-- Every head of a vector of heads, turned by the same angles. -/
noncomputable def rotateHeads (shape : RopeShape) (heads : Nat) (angle : Nat → ℝ) (xs : List ℝ) :
    List ℝ :=
  (List.range heads).flatMap fun head =>
    rotate (shape.headDim / 2) angle (Rows.row shape.headDim xs head)

section heads

variable {heads : Nat} {angle : Nat → ℝ} {xs : List ℝ}

theorem length_rotateHeads : (shape.rotateHeads heads angle xs).length = heads * shape.headDim :=
  Rows.length_flatMap fun _ _ => (length_rotate ..).trans shape.half_add_half

theorem row_rotateHeads {head : Nat} (h : head < heads) :
    Rows.row shape.headDim (shape.rotateHeads heads angle xs) head =
      rotate (shape.headDim / 2) angle (Rows.row shape.headDim xs head) :=
  Rows.row_flatMap (fun _ _ => (length_rotate ..).trans shape.half_add_half) h

theorem length_head (hxs : xs.length = heads * shape.headDim) {head : Nat} (h : head < heads) :
    (Rows.row shape.headDim xs head).length = shape.headDim / 2 + shape.headDim / 2 := by
  rw [shape.half_add_half]
  exact Rows.length_row (hxs ▸ Nat.mul_le_mul_right _ h)

theorem rotateHeads_zero (hxs : xs.length = heads * shape.headDim) :
    shape.rotateHeads heads (fun _ => 0) xs = xs := by
  have hrows : xs = (List.range heads).flatMap (Rows.row shape.headDim xs) := by
    rw [← Rows.take_eq_rows, ← hxs, List.take_length]
  conv_rhs => rw [hrows]
  refine List.flatMap_congr fun head hhead => ?_
  exact rotate_zero (length_head hxs (List.mem_range.mp hhead))

theorem rotateHeads_rotateHeads (a b : Nat → ℝ) :
    shape.rotateHeads heads b (shape.rotateHeads heads a xs) =
      shape.rotateHeads heads (fun i => a i + b i) xs := by
  refine List.flatMap_congr fun head hhead => ?_
  rw [row_rotateHeads (List.mem_range.mp hhead), rotate_rotate]

end heads

/-- `rope_reference` on the heads of a token. -/
noncomputable def rope (shape : RopeShape) (theta : ℝ) (position : Nat) :
    Exec (List ℝ × List ℝ) ComputeError Unit :=
  Compute.ropeReference position shape.headDim shape.queryHeads shape.kvHeads theta

/-- The query and the KV heads, turned by the angles of a position. -/
noncomputable def turned (shape : RopeShape) (theta : ℝ) (position : Nat) (s : List ℝ × List ℝ) :
    List ℝ × List ℝ :=
  (shape.rotateHeads shape.queryHeads (Compute.ropeAngle (shape.headDim / 2) theta position) s.1,
    shape.rotateHeads shape.kvHeads (Compute.ropeAngle (shape.headDim / 2) theta position) s.2)

theorem ropeHeads_run {heads : Nat} {xs : List ℝ} (hxs : xs.length = heads * shape.headDim) :
    forRange heads (fun head _ => onSlice (head * shape.headDim) ((head + 1) * shape.headDim)
        (Compute.ropeHead position theta)) () xs =
      (.ok (), shape.rotateHeads heads (Compute.ropeAngle (shape.headDim / 2) theta position) xs) := by
  refine forRange_rows hxs (fun ys hys => ?_) fun ys _ => ?_
  · exact Compute.ropeHead_run (hys.trans shape.half_add_half.symm)
  · exact (length_rotate ..).trans shape.half_add_half

theorem rope_run (htheta : 0 < theta) (hs : shape.Fits s) :
    shape.rope theta position s = (.ok (), shape.turned theta position s) := by
  obtain ⟨q, k⟩ := s
  have hdim := shape.headDim_pos
  have heven := shape.even
  have hquery := shape.queryHeads_pos
  have hkv := shape.kvHeads_pos
  have hfrequency : ¬(¬F32Rotation.isFinite theta = true ∨ F32Rotation.le theta 0 = true) := by
    simpa [F32Rotation.isFinite, F32Rotation.le] using htheta
  have hq := hs.query
  have hk := hs.kv
  rw [rope, Compute.ropeReference, self_bind_run]
  simp only []
  rw [failIf_bind_run, if_neg (by omega), failIf_bind_run, if_neg (by omega), failIf_bind_run,
    if_neg hfrequency, checkedMul_of_lt shape.query_lt, okOr_some, pure_bind_run,
    checkedMul_of_lt shape.kv_lt, okOr_some, pure_bind_run, failIf_bind_run,
    if_neg (not_or.mpr ⟨not_not.mpr hq, not_not.mpr hk⟩),
    bind_of_ok (a := ()) (by rw [onFst_run, ropeHeads_run hq])]
  rw [onSnd_run, ropeHeads_run hk]
  rfl

theorem Fits.turned (shape : RopeShape) (theta : ℝ) (position : Nat) (s : List ℝ × List ℝ) :
    shape.Fits (shape.turned theta position s) :=
  ⟨length_rotateHeads, length_rotateHeads⟩

end RopeShape

/-- What a rotary position embedding is for: the operation at every position is an isometry
of every head by itself, positions add up, and a product depends on their distance. -/
structure RelativeRotation (shape : RopeShape)
    (rope : Nat → Exec (List ℝ × List ℝ) ComputeError Unit) : Prop where
  returns : ∀ m s, shape.Fits s → (rope m s).1 = .ok () ∧ shape.Fits (rope m s).2
  query_norm : ∀ m s, shape.Fits s → ∀ head < shape.queryHeads,
    dot (Rows.row shape.headDim (rope m s).2.1 head) (Rows.row shape.headDim (rope m s).2.1 head) =
      dot (Rows.row shape.headDim s.1 head) (Rows.row shape.headDim s.1 head)
  kv_norm : ∀ m s, shape.Fits s → ∀ head < shape.kvHeads,
    dot (Rows.row shape.headDim (rope m s).2.2 head) (Rows.row shape.headDim (rope m s).2.2 head) =
      dot (Rows.row shape.headDim s.2 head) (Rows.row shape.headDim s.2 head)
  zero : ∀ s, shape.Fits s → rope 0 s = (.ok (), s)
  query_head : ∀ m s s', shape.Fits s → shape.Fits s' → ∀ head < shape.queryHeads,
    Rows.row shape.headDim s.1 head = Rows.row shape.headDim s'.1 head →
      Rows.row shape.headDim (rope m s).2.1 head = Rows.row shape.headDim (rope m s').2.1 head
  kv_head : ∀ m s s', shape.Fits s → shape.Fits s' → ∀ head < shape.kvHeads,
    Rows.row shape.headDim s.2 head = Rows.row shape.headDim s'.2 head →
      Rows.row shape.headDim (rope m s).2.2 head = Rows.row shape.headDim (rope m s').2.2 head
  add : ∀ m n s, shape.Fits s → rope n (rope m s).2 = rope (m + n) s
  relative : ∀ (m n m' n' : Nat) s s', shape.Fits s → shape.Fits s' →
    ∀ queryHead < shape.queryHeads, ∀ kvHead < shape.kvHeads, (m - n : ℤ) = m' - n' →
      dot (Rows.row shape.headDim (rope m s).2.1 queryHead)
          (Rows.row shape.headDim (rope n s').2.2 kvHead) =
        dot (Rows.row shape.headDim (rope m' s).2.1 queryHead)
          (Rows.row shape.headDim (rope n' s').2.2 kvHead)

namespace Compute

theorem ropeAngle_zero (half : Nat) (theta : ℝ) : ropeAngle half theta 0 = fun _ => 0 := by
  funext i
  rw [ropeAngle, Nat.cast_zero, mul_zero]

theorem ropeAngle_add (half : Nat) (theta : ℝ) (m n i : Nat) :
    ropeAngle half theta m i + ropeAngle half theta n i = ropeAngle half theta (m + n) i := by
  rw [ropeAngle, ropeAngle, ropeAngle, Nat.cast_add m n, mul_add]

theorem ropeAngle_sub {m n m' n' : Nat} (h : (m : ℤ) - n = m' - n') (half : Nat) (theta : ℝ)
    (i : Nat) :
    ropeAngle half theta m i - ropeAngle half theta n i =
      ropeAngle half theta m' i - ropeAngle half theta n' i := by
  have hreal : (m : ℝ) - n = m' - n' := by exact_mod_cast h
  rw [ropeAngle, ropeAngle, ropeAngle, ropeAngle, ← mul_sub, ← mul_sub, hreal]

end Compute

/-- The code's rotary embedding is a relative rotation. -/
theorem relativeRotation_rope (shape : RopeShape) {theta : ℝ} (htheta : 0 < theta) :
    RelativeRotation shape (shape.rope theta) where
  returns m s hs := by
    rw [RopeShape.rope_run htheta hs]
    exact ⟨rfl, .turned ..⟩
  query_norm m s hs head hhead := by
    rw [RopeShape.rope_run htheta hs]
    show dot (Rows.row _ (shape.rotateHeads ..) _) (Rows.row _ (shape.rotateHeads ..) _) = _
    rw [RopeShape.row_rotateHeads hhead, dot_rotate_self (RopeShape.length_head hs.query hhead)]
  kv_norm m s hs head hhead := by
    rw [RopeShape.rope_run htheta hs]
    show dot (Rows.row _ (shape.rotateHeads ..) _) (Rows.row _ (shape.rotateHeads ..) _) = _
    rw [RopeShape.row_rotateHeads hhead, dot_rotate_self (RopeShape.length_head hs.kv hhead)]
  zero s hs := by
    rw [RopeShape.rope_run htheta hs, RopeShape.turned, Compute.ropeAngle_zero,
      RopeShape.rotateHeads_zero hs.query, RopeShape.rotateHeads_zero hs.kv]
  query_head m s s' hs hs' head hhead heq := by
    rw [RopeShape.rope_run htheta hs, RopeShape.rope_run htheta hs']
    show Rows.row _ (shape.rotateHeads ..) _ = Rows.row _ (shape.rotateHeads ..) _
    rw [RopeShape.row_rotateHeads hhead, RopeShape.row_rotateHeads hhead, heq]
  kv_head m s s' hs hs' head hhead heq := by
    rw [RopeShape.rope_run htheta hs, RopeShape.rope_run htheta hs']
    show Rows.row _ (shape.rotateHeads ..) _ = Rows.row _ (shape.rotateHeads ..) _
    rw [RopeShape.row_rotateHeads hhead, RopeShape.row_rotateHeads hhead, heq]
  add m n s hs := by
    rw [RopeShape.rope_run htheta hs]
    show shape.rope theta n (shape.turned theta m s) = _
    rw [RopeShape.rope_run htheta (.turned ..), RopeShape.rope_run htheta hs, RopeShape.turned,
      RopeShape.turned, RopeShape.turned, RopeShape.rotateHeads_rotateHeads,
      RopeShape.rotateHeads_rotateHeads]
    simp only [Compute.ropeAngle_add]
  relative m n m' n' s s' hs hs' queryHead hquery kvHead hkv hdistance := by
    rw [RopeShape.rope_run htheta hs, RopeShape.rope_run htheta hs', RopeShape.rope_run htheta hs,
      RopeShape.rope_run htheta hs']
    show dot (Rows.row _ (shape.rotateHeads ..) _) (Rows.row _ (shape.rotateHeads ..) _) =
      dot (Rows.row _ (shape.rotateHeads ..) _) (Rows.row _ (shape.rotateHeads ..) _)
    have hkey := RopeShape.length_head hs'.kv hkv
    rw [RopeShape.row_rotateHeads hquery, RopeShape.row_rotateHeads hkv,
      RopeShape.row_rotateHeads hquery, RopeShape.row_rotateHeads hkv, dot_rotate_rotate hkey,
      dot_rotate_rotate hkey]
    simp only [Compute.ropeAngle_sub hdistance]

/-- One query and one KV head of two pairs. -/
def RopeShape.twoPairs : RopeShape where
  headDim := 4
  queryHeads := 1
  kvHeads := 1
  headDim_pos := by decide
  even := by decide
  queryHeads_pos := by decide
  kvHeads_pos := by decide
  query_lt := by decide
  kv_lt := by decide

theorem relativeRotation_rope_twoPairs :
    (0 : ℝ) < 10000 ∧ RelativeRotation .twoPairs (RopeShape.twoPairs.rope 10000) :=
  ⟨by norm_num, relativeRotation_rope .twoPairs (by norm_num)⟩

end Ramforge
