/-
What all readers of a file keep, given what one read of bytes keeps.

Every reader comes down to `readExactInto` on the answers of the operating system and the
data source, so an invariant of that call is one of all of them.
-/
import Ramforge.Core.DataSourceRun
import Ramforge.Core.MemoryScope
import Ramforge.Core.Tensor
import Ramforge.Core.TensorRead
import Ramforge.Rust.Coincide
import Ramforge.Rust.Ends
import Ramforge.Rust.Settles

namespace Ramforge

open Rust Rust.Exec

namespace GgufDataSource

/-- Every read of bytes keeps `J`. -/
def ReadsKeep (J : List Answer × GgufDataSource → Prop) : Prop :=
  ∀ fileOffset destination, Keeps J (readExactInto fileOffset destination)

/-- `J` of what a reader draws on. -/
def OnHost (J : List Answer × GgufDataSource → Prop) (host : Host) : Prop := J host.2

namespace ReadsKeep

variable {J : List Answer × GgufDataSource → Prop}

theorem readRangeInto (h : ReadsKeep J) (reserve : Reserve) (fileOffset length : Nat) :
    Keeps (fun s : List UInt8 × List Answer × GgufDataSource => J s.2)
      (readRangeInto reserve fileOffset length) := by
  refine Keeps.bind (fun _ hs => hs) fun _ => (Keeps.ofResult _).bind fun _ =>
    (h fileOffset _).onSnd.bind fun r => ?_
  exact fun _ hs => hs

theorem readF32Range (h : ReadsKeep J) (reserve : Reserve) (fileOffset elementCount : Nat) :
    Keeps J (readF32Range reserve fileOffset elementCount) := by
  refine (Keeps.okOr _ _).bind fun byteLength => ?_
  split
  · exact .pure _
  · exact (Keeps.ofResult _).bind fun _ => (h fileOffset _).bind fun _ => .pure _

theorem nextReserve {ε : Type} : Keeps (OnHost J) (nextReserve (ε := ε)) := fun _ hs => hs

theorem validateBoundsAt {σ : Type} {I : σ → Prop} (source : GgufDataSource)
    (fileOffset length : Nat) (desc : TensorDescriptor) :
    Keeps I (source.validateBoundsAt fileOffset length desc : Exec σ DataSourceError Unit) :=
  (Keeps.failIf _ _).bind fun _ => (Keeps.okOr _ _).bind fun _ => .failIf _ _

theorem readRange (h : ReadsKeep J) (fileOffset length : Nat) :
    Keeps (OnHost J) (readRange fileOffset length) :=
  nextReserve.bind fun reserve =>
    (h.readRangeInto reserve fileOffset length).withLocal.onSnd.bind fun r => .pure r.2

theorem readTensorByDescriptor (h : ReadsKeep J) (desc : TensorDescriptor) :
    Keeps (OnHost J) (readTensorByDescriptor desc) :=
  (Keeps.okOr _ _).bind fun _ => Keeps.self.bind fun _ => (validateBoundsAt _ _ _ _).bind fun _ =>
    h.readRange _ _

theorem readTensorRangeByDescriptor (h : ReadsKeep J) (desc : TensorDescriptor)
    (offset length : Nat) : Keeps (OnHost J) (readTensorRangeByDescriptor desc offset length) :=
  (Keeps.okOr _ _).bind fun _ => (Keeps.failIf _ _).bind fun _ => (Keeps.okOr _ _).bind fun _ =>
    (Keeps.failIf _ _).bind fun _ => (Keeps.okOr _ _).bind fun _ => Keeps.self.bind fun _ =>
      (validateBoundsAt _ _ _ _).bind fun _ => h.readRange _ _

theorem readF32TensorRangeByDescriptor (h : ReadsKeep J) (desc : TensorDescriptor)
    (elementOffset elementCount : Nat) :
    Keeps (OnHost J) (readF32TensorRangeByDescriptor desc elementOffset elementCount) :=
  (Keeps.failIf _ _).bind fun _ => (Keeps.okOr _ _).bind fun _ => (Keeps.okOr _ _).bind fun _ =>
    (Keeps.failIf _ _).bind fun _ => (Keeps.okOr _ _).bind fun _ => (Keeps.failIf _ _).bind fun _ =>
      (Keeps.okOr _ _).bind fun _ => (Keeps.okOr _ _).bind fun _ => (Keeps.okOr _ _).bind fun _ =>
        Keeps.self.bind fun _ => (validateBoundsAt _ _ _ _).bind fun _ =>
          nextReserve.bind fun reserve => (h.readF32Range reserve _ _).onSnd

theorem checkRequest {σ : Type} {I : σ → Prop} (source : GgufDataSource)
    (fileOffset rangeEnd logicalBytes : Nat) (desc : TensorDescriptor) :
    Keeps I (source.checkRequest fileOffset rangeEnd logicalBytes desc :
      Exec σ DataSourceError Nat) :=
  (Keeps.okOr _ _).bind fun _ => (validateBoundsAt _ _ _ _).bind fun _ =>
    (Keeps.okOr _ _).bind fun _ => (Keeps.failIf _ _).bind fun _ => .okOr _ _

theorem readCoalescedTensorRangeInto (h : ReadsKeep J) (descriptors : List TensorDescriptor)
    (fileOffset byteLength : Nat) :
    Keeps (fun s : List UInt8 × Host => OnHost J s.2)
      (readCoalescedTensorRangeInto descriptors fileOffset byteLength) := by
  refine (Keeps.okOr _ _).bind fun first => (Keeps.okOr _ _).bind fun rangeEnd =>
    Keeps.self.bind fun s => (validateBoundsAt _ _ _ _).bind fun _ => ?_
  refine (Keeps.foldlM (fun logicalBytes desc => checkRequest _ _ _ _ _) _ _).bind fun logicalBytes =>
    (Keeps.failIf _ _).bind fun _ => (Keeps.onSnd nextReserve).bind fun reserve => ?_
  exact fun s hs => h.readRangeInto reserve fileOffset byteLength (s.1, s.2.2) hs

end ReadsKeep

end GgufDataSource

/-! ## Tensors in memory -/

section tensors

variable {σ R : Type} {I : σ → Prop} [F32 R] [Zero R] [Sub R] [Mul R]

theorem QuantizedTensor.keeps_dequantizeToF32 (tensor : QuantizedTensor) :
    Keeps I (tensor.dequantizeToF32 : Exec σ DataSourceError (List R)) := by
  unfold QuantizedTensor.dequantizeToF32
  split
  · exact (Keeps.onLocal _ _).bind fun _ => .pure _
  · exact .throw _

theorem QuantizedTensor.keeps_dequantizeRow (tensor : QuantizedTensor) (rowIdx : Nat) :
    Keeps I (tensor.dequantizeRow rowIdx : Exec σ DataSourceError (List R)) := by
  unfold QuantizedTensor.dequantizeRow
  split
  · exact .throw _
  · exact (Keeps.failIf _ _).bind fun _ => tensor.keeps_dequantizeToF32
  · refine (Keeps.failIf _ _).bind fun _ => (Keeps.okOr _ _).bind fun layout => ?_
    refine (Keeps.failIf _ _).bind fun _ => (Keeps.okOr _ _).bind fun _ =>
      (Keeps.okOr _ _).bind fun _ => (Keeps.okOr _ _).bind fun _ =>
        (Keeps.failIf _ _).bind fun _ => (Keeps.expect _ _).bind fun row => ?_
    split
    · exact (Keeps.onLocal _ _).bind fun _ => .pure _
    · exact fun _ hs => hs
  · exact .throw _

namespace TensorData

theorem keeps_toF32Vec (tensor : TensorData R) :
    Keeps I (tensor.toF32Vec : Exec σ DataSourceError _) := by
  cases tensor with
  | quantized tensor => exact tensor.keeps_dequantizeToF32
  | f32 | f16 | bf16 => exact .pure _

omit [F32 R] [Zero R] [Sub R] [Mul R] in
theorem keeps_floatEmbedding (label outOfBounds : String) (data : List R) (tokenId nEmbd : Nat) :
    Keeps I (floatEmbedding label outOfBounds data tokenId nEmbd :
      Exec σ DataSourceError (List R)) := by
  refine (Keeps.okOr _ _).bind fun _ => (Keeps.okOr _ _).bind fun _ => ?_
  split
  · exact .expect _ _
  · exact .throw _

theorem keeps_getEmbedding (tensor : TensorData R) (tokenId nEmbd : Nat) :
    Keeps I (tensor.getEmbedding tokenId nEmbd : Exec σ DataSourceError (List R)) := by
  refine (Keeps.failIf _ _).bind fun _ => ?_
  cases tensor with
  | quantized tensor => exact tensor.keeps_dequantizeRow tokenId
  | f32 | f16 | bf16 => exact keeps_floatEmbedding _ _ _ _ _

end TensorData

end tensors

end Ramforge

/-!
What the readers return, as parts of the file.

All that is asked of the state is `Kept`: its files are those of one data source, and the
positions it knows are true.  The answers of the operating system and of the allocator, and
which reads came before, do not matter.
-/

namespace Ramforge

open Rust Rust.Exec

/-- A temporary scope that has returned a value has run its body to that value. -/
theorem MemoryBudget.of_withTemp_ok {κ ε α : Type} {ofMemory : MemoryError → ε} {name : String}
    {bytes : Nat} {f : Exec (κ × MemoryBudget) ε α} {s t : κ × MemoryBudget} {a : α}
    (h : withTemp ofMemory name bytes f s = (.ok a, t)) :
    ∃ b b', f (s.1, b) = (.ok a, (t.1, b')) := by
  by_cases hzero : bytes = 0
  · rw [withTemp, if_pos hzero] at h
    exact ⟨s.2, t.2, h⟩
  rw [withTemp, if_neg hzero] at h
  obtain ⟨_, s₁, hallocate, h⟩ := of_bind_ok h
  obtain ⟨-, hs₁⟩ := of_onSnd_ok (of_mapErr_ok hallocate)
  obtain ⟨result, s₂, hrun, h⟩ := of_bind_ok h
  obtain ⟨released, s₃, hrelease, h⟩ := of_bind_ok h
  have hs₃ : s₃.1 = s₂.1 := by
    rcases of_attempt_ok hrelease with ⟨_, -, hrelease⟩ | ⟨_, -, hrelease⟩
    · exact (of_onSnd_ok hrelease).2
    · rw [onSnd_run] at hrelease
      exact (congrArg Prod.fst (Prod.mk.inj hrelease).2).symm
  obtain ⟨hresult, hs₂⟩ := Prod.mk.inj hrun
  cases result with
  | ok value =>
    cases released with
    | error error => cases h
    | ok u =>
      cases h
      refine ⟨s₁.2, s₂.2, ?_⟩
      rw [← hs₁, hs₃]
      exact Prod.ext (Outcome.ok.inj hresult) hs₂
  | err error => cases released <;> cases h
  | panic payload => cases released <;> cases h

/-- What a body says of its value and of the part beside the budget. -/
theorem MemoryBudget.ends_withTemp_fst {κ ε α : Type} {ofMemory : MemoryError → ε} {name : String}
    {bytes : Nat} {f : Exec (κ × MemoryBudget) ε α} {s : κ × MemoryBudget} {Q : α → κ → Prop}
    (h : ∀ b, Ends f (s.1, b) (fun a t => Q a t.1) (fun _ _ => True) fun _ _ => True) :
    Ends (withTemp ofMemory name bytes f) s (fun a t => Q a t.1) (fun _ _ => True)
      fun _ _ => True := by
  unfold Ends
  rcases hrun : withTemp ofMemory name bytes f s with ⟨a | e | p, t⟩
  · obtain ⟨b, b', hf⟩ := of_withTemp_ok hrun
    have hbody := (h b).of_ok hf
    exact hbody
  · trivial
  · trivial

namespace GgufDataSource

variable {source : GgufDataSource}

/-! ## Ranges -/

namespace IsRange

variable {files : List (GgufShardLayout × List UInt8)} {fileOffset len : Nat}
  {bytes bytes' : List UInt8}

theorem unique (h : IsRange files fileOffset len bytes) (h' : IsRange files fileOffset len bytes') :
    bytes = bytes' := by
  refine List.ext_getElem? fun j => ?_
  by_cases hj : j < len
  · rw [h.bytes j hj, h'.bytes j hj]
  · rw [List.getElem?_eq_none (by rw [h.length]; omega),
      List.getElem?_eq_none (by rw [h'.length]; omega)]

/-- A part of a range is the range of its place in the file. -/
theorem slice {start stop : Nat} (h : IsRange files fileOffset len bytes)
    (hslice : Rust.slice bytes start stop = some bytes') :
    IsRange files (fileOffset + start) (stop - start) bytes' := by
  unfold Rust.slice at hslice
  split at hslice
  next hle =>
    cases hslice
    refine ⟨by simp only [List.length_take, List.length_drop]; omega, fun j hj => ?_⟩
    rw [List.getElem?_take_of_lt hj, List.getElem?_drop, h.bytes (start + j) (by have := h.length; omega),
      Nat.add_assoc]
  next => cases hslice

end IsRange

theorem drop_f32sOf (bytes : List UInt8) (n : Nat) :
    (f32sOf bytes).drop n = f32sOf (bytes.drop (n * sizeOfF32)) := by
  unfold sizeOfF32
  fun_induction f32sOf bytes generalizing n with
  | case1 b₀ b₁ b₂ b₃ bytes ih =>
    cases n with
    | zero => simp [f32sOf]
    | succ n =>
      rw [List.drop_succ_cons, ih, show (n + 1) * 4 = n * 4 + 4 by omega]
      rfl
  | case2 bytes hshort =>
    have hdropped : ∀ b₀ b₁ b₂ b₃ rest, bytes.drop (n * 4) ≠ b₀ :: b₁ :: b₂ :: b₃ :: rest := by
      intro b₀ b₁ b₂ b₃ rest heq
      match bytes, hshort with
      | [], _ | [_], _ | [_, _], _ | [_, _, _], _ =>
        have hlength := congrArg List.length heq
        simp only [List.length_drop, List.length_cons, List.length_nil] at hlength
        omega
      | c₀ :: c₁ :: c₂ :: c₃ :: bytes, hshort => exact hshort c₀ c₁ c₂ c₃ bytes rfl
    rw [List.drop_nil, f32sOf]
    exact hdropped

theorem take_f32sOf (bytes : List UInt8) (n : Nat) :
    (f32sOf bytes).take n = f32sOf (bytes.take (n * sizeOfF32)) := by
  unfold sizeOfF32
  fun_induction f32sOf bytes generalizing n with
  | case1 b₀ b₁ b₂ b₃ bytes ih =>
    cases n with
    | zero => simp [f32sOf]
    | succ n =>
      rw [List.take_succ_cons, ih, show (n + 1) * 4 = n * 4 + 4 by omega]
      rfl
  | case2 bytes hshort =>
    have htaken : ∀ b₀ b₁ b₂ b₃ rest, bytes.take (n * 4) ≠ b₀ :: b₁ :: b₂ :: b₃ :: rest := by
      intro b₀ b₁ b₂ b₃ rest heq
      match bytes, hshort with
      | [], _ | [_], _ | [_, _], _ | [_, _, _], _ =>
        have hlength := congrArg List.length heq
        simp only [List.length_take, List.length_cons, List.length_nil] at hlength
        omega
      | c₀ :: c₁ :: c₂ :: c₃ :: bytes, hshort => exact hshort c₀ c₁ c₂ c₃ bytes rfl
    rw [List.take_nil, f32sOf]
    exact htaken

/-- A part of the numbers is the range of its place in the file. -/
theorem IsF32Range.slice {files : List (GgufShardLayout × List UInt8)} {fileOffset elementCount start stop : Nat}
    {values values' : List UInt32} (h : IsF32Range files fileOffset elementCount values)
    (hslice : Rust.slice values start stop = some values') :
    IsF32Range files (fileOffset + start * sizeOfF32) (stop - start) values' := by
  obtain ⟨hlength, bytes, hbytes, rfl⟩ := h
  unfold Rust.slice at hslice
  split at hslice
  next hle =>
    cases hslice
    have hmul : (stop - start) * sizeOfF32 = stop * sizeOfF32 - start * sizeOfF32 := Nat.sub_mul _ _ _
    have hcut : Rust.slice bytes (start * sizeOfF32) (stop * sizeOfF32) =
        some ((bytes.drop (start * sizeOfF32)).take ((stop - start) * sizeOfF32)) := by
      have hstop : stop * sizeOfF32 ≤ bytes.length := by
        rw [hbytes.length, ← hlength]
        exact Nat.mul_le_mul_right _ hle.2
      rw [Rust.slice, if_pos ⟨Nat.mul_le_mul_right _ hle.1, hstop⟩, hmul]
    have hpart := hbytes.slice hcut
    rw [← hmul] at hpart
    refine ⟨by simp only [List.length_take, List.length_drop]; omega, _, hpart, ?_⟩
    rw [drop_f32sOf, take_f32sOf]
  next => cases hslice

theorem IsF32Range.unique {files : List (GgufShardLayout × List UInt8)}
    {fileOffset elementCount : Nat} {values values' : List UInt32}
    (h : IsF32Range files fileOffset elementCount values)
    (h' : IsF32Range files fileOffset elementCount values') : values = values' := by
  obtain ⟨-, bytes, hbytes, rfl⟩ := h
  obtain ⟨-, bytes', hbytes', rfl⟩ := h'
  rw [hbytes.unique hbytes']

/-! ## Readers -/

/-- The files are those of `source`, and known positions are true. -/
def Serves (source : GgufDataSource) (s : List Answer × GgufDataSource) : Prop := Kept source s.2

theorem readsKeep_serves (htiled : Tiled source.files) : ReadsKeep (Serves source) := by
  intro fileOffset destination s hs
  have htiled' : Tiled s.2.files := by
    rw [hs.files]
    exact htiled
  exact Kept.trans hs (readExactInto_post htiled' hs.coherent fileOffset s.1 destination).1

section readers

variable (htiled : Tiled source.files) {host host' : Host} (hhost : OnHost (Serves source) host)
  {desc : TensorDescriptor}
include htiled hhost

theorem isRange_of_readRangeInto {reserve : Reserve} {fileOffset len : Nat} {buffer buffer' : List UInt8}
    {t : List Answer × GgufDataSource} {u : Unit}
    (h : readRangeInto reserve fileOffset len (buffer, host.2) = (.ok u, (buffer', t))) :
    IsRange source.files fileOffset len buffer' := by
  have hfiles : host.2.2.files = source.files := hhost.files
  have hpost := readRangeInto_post (hfiles.symm ▸ htiled) hhost.coherent reserve fileOffset len host.2.1
    buffer
  obtain ⟨-, hresult⟩ := hpost
  rw [show (host.2.1, host.2.2) = host.2 from rfl, h, hfiles] at hresult
  exact hresult

theorem isRange_of_readRange {fileOffset len : Nat} {bytes : List UInt8}
    (h : readRange fileOffset len host = (.ok bytes, host')) :
    IsRange source.files fileOffset len bytes := by
  obtain ⟨reserve, host₁, hreserve, h⟩ := of_bind_ok h
  cases hreserve
  obtain ⟨r, host₂, hread, h⟩ := of_bind_ok h
  cases h
  obtain ⟨hread, -⟩ := of_onSnd_ok hread
  exact isRange_of_readRangeInto htiled hhost (of_withLocal_ok hread)

/-- A tensor that has been read is the range of its descriptor. -/
theorem isRange_of_readTensorByDescriptor {bytes : List UInt8}
    (h : readTensorByDescriptor desc host = (.ok bytes, host')) :
    ∃ len, desc.byteLength = some len ∧ IsRange source.files desc.fileOffset len bytes := by
  obtain ⟨len, hlen, h⟩ := of_okOr_bind_ok h
  rw [self_bind_run] at h
  obtain ⟨_, host₁, hvalid, h⟩ := of_bind_ok h
  have hhost₁ := ReadsKeep.validateBoundsAt (I := OnHost (Serves source)) host.2.2 desc.fileOffset len
    desc host hhost
  rw [show host.2.2.validateBoundsAt desc.fileOffset len desc host = _ from hvalid] at hhost₁
  exact ⟨len, hlen, isRange_of_readRange htiled hhost₁ h⟩

theorem isRange_of_readTensorRangeByDescriptor {offset len : Nat} {bytes : List UInt8}
    (h : readTensorRangeByDescriptor desc offset len host = (.ok bytes, host')) :
    IsRange source.files (desc.fileOffset + offset) len bytes := by
  obtain ⟨byteLength, -, h⟩ := of_okOr_bind_ok h
  obtain ⟨-, h⟩ := of_failIf_bind_ok h
  obtain ⟨rangeEnd, -, h⟩ := of_okOr_bind_ok h
  obtain ⟨-, h⟩ := of_failIf_bind_ok h
  obtain ⟨fileOffset, hoffset, h⟩ := of_okOr_bind_ok h
  obtain ⟨-, rfl⟩ := checkedAdd_eq_some.mp hoffset
  rw [self_bind_run] at h
  obtain ⟨_, host₁, hvalid, h⟩ := of_bind_ok h
  have hhost₁ := ReadsKeep.validateBoundsAt (I := OnHost (Serves source)) host.2.2
    (desc.fileOffset + offset) len desc host hhost
  rw [show host.2.2.validateBoundsAt (desc.fileOffset + offset) len desc host = _ from hvalid] at hhost₁
  exact isRange_of_readRange htiled hhost₁ h

theorem isF32Range_of_readF32TensorRangeByDescriptor {elementOffset elementCount : Nat}
    {values : List UInt32}
    (h : readF32TensorRangeByDescriptor desc elementOffset elementCount host = (.ok values, host')) :
    desc.byteLength = some (desc.numElements * sizeOfF32) ∧
      IsF32Range source.files (desc.fileOffset + elementOffset * sizeOfF32) elementCount values := by
  obtain ⟨-, h⟩ := of_failIf_bind_ok h
  obtain ⟨byteLength, hlen, h⟩ := of_okOr_bind_ok h
  obtain ⟨expected, hexpected, h⟩ := of_okOr_bind_ok h
  obtain ⟨hequal, h⟩ := of_failIf_bind_ok h
  obtain ⟨elementEnd, -, h⟩ := of_okOr_bind_ok h
  obtain ⟨-, h⟩ := of_failIf_bind_ok h
  obtain ⟨relative, hrelative, h⟩ := of_okOr_bind_ok h
  obtain ⟨rangeBytes, -, h⟩ := of_okOr_bind_ok h
  obtain ⟨fileOffset, hoffset, h⟩ := of_okOr_bind_ok h
  rw [self_bind_run] at h
  obtain ⟨_, host₁, hvalid, h⟩ := of_bind_ok h
  have hhost₁ := ReadsKeep.validateBoundsAt (I := OnHost (Serves source)) host.2.2 fileOffset rangeBytes
    desc host hhost
  rw [show host.2.2.validateBoundsAt fileOffset rangeBytes desc host = _ from hvalid] at hhost₁
  obtain ⟨reserve, host₂, hreserve, h⟩ := of_bind_ok h
  cases hreserve
  obtain ⟨hread, -⟩ := of_onSnd_ok h
  obtain ⟨-, rfl⟩ := checkedMul_eq_some.mp hexpected
  obtain ⟨-, rfl⟩ := checkedMul_eq_some.mp hrelative
  obtain ⟨-, rfl⟩ := checkedAdd_eq_some.mp hoffset
  have hfiles : host₁.2.2.files = source.files := hhost₁.files
  have hpost := readF32Range_post (hfiles.symm ▸ htiled) hhost₁.coherent
    (host₁.1.headD (.ok fun _ => 0)) (desc.fileOffset + elementOffset * sizeOfF32) elementCount
    host₁.2.1
  obtain ⟨-, hresult⟩ := hpost
  rw [show (host₁.2.1, host₁.2.2) = host₁.2 from rfl, hread, hfiles] at hresult
  rw [hlen, not_not.mp hequal]
  exact ⟨rfl, hresult⟩

omit hhost in
theorem isRange_of_readCoalescedTensorRangeInto {descriptors : List TensorDescriptor}
    {fileOffset len : Nat} {s t : List UInt8 × Host} {u : Unit} (hs : OnHost (Serves source) s.2)
    (h : readCoalescedTensorRangeInto descriptors fileOffset len s = (.ok u, t)) :
    IsRange source.files fileOffset len t.1 := by
  have hkept : ∀ {m : Exec (List UInt8 × Host) DataSourceError Nat} {n : Nat} {s' t' : List UInt8 × Host},
      Keeps (fun s => OnHost (Serves source) s.2) m → OnHost (Serves source) s'.2 →
      m s' = (.ok n, t') → OnHost (Serves source) t'.2 := by
    intro m n s' t' hm hs' hrun
    have ht := hm s' hs'
    rwa [hrun] at ht
  obtain ⟨first, -, h⟩ := of_okOr_bind_ok h
  obtain ⟨rangeEnd, -, h⟩ := of_okOr_bind_ok h
  rw [self_bind_run] at h
  obtain ⟨_, s₁, hvalid, h⟩ := of_bind_ok h
  have hs₁ := ReadsKeep.validateBoundsAt (I := fun s : List UInt8 × Host => OnHost (Serves source) s.2)
    s.2.2.2 fileOffset len first s hs
  rw [show s.2.2.2.validateBoundsAt fileOffset len first s = _ from hvalid] at hs₁
  obtain ⟨logical, s₂, hlogical, h⟩ := of_bind_ok h
  have hs₂ := hkept (Keeps.foldlM (fun n desc => ReadsKeep.checkRequest _ _ _ _ _) _ _) hs₁ hlogical
  obtain ⟨-, h⟩ := of_failIf_bind_ok h
  obtain ⟨reserve, s₃, hreserve, h⟩ := of_bind_ok h
  cases hreserve
  rw [onPart_run] at h
  obtain ⟨hok, rfl⟩ := Prod.mk.inj h
  have hhost : OnHost (Serves source) (s₂.2.1.tail, s₂.2.2) := hs₂
  exact isRange_of_readRangeInto htiled hhost (Prod.ext hok rfl)

end readers

/-! ## Two reads of one part -/

section coincide

variable (htiled : Tiled source.files)
include htiled

theorem coincides_readRange (fileOffset len : Nat) :
    Coincides (Both (OnHost (Serves source))) (readRange fileOffset len) (readRange fileOffset len) := by
  intro s s' ⟨hs, hs'⟩ bytes t bytes' t' h h'
  have hkeeps := (readsKeep_serves htiled).readRange fileOffset len
  have ht := hkeeps s hs
  have ht' := hkeeps s' hs'
  rw [h] at ht
  rw [h'] at ht'
  exact ⟨(isRange_of_readRange htiled hs h).unique (isRange_of_readRange htiled hs' h'), ht, ht'⟩

omit htiled in
theorem coincides_validateBoundsAt {σ : Type} {I : σ → Prop} (at₁ at₂ : GgufDataSource)
    (fileOffset len : Nat) (desc : TensorDescriptor) :
    Coincides (Both I) (at₁.validateBoundsAt fileOffset len desc) (at₂.validateBoundsAt fileOffset len desc) :=
  .ofUnit (ReadsKeep.validateBoundsAt _ _ _ _) (ReadsKeep.validateBoundsAt _ _ _ _)

theorem coincides_readTensorByDescriptor (desc : TensorDescriptor) :
    Coincides (Both (OnHost (Serves source))) (readTensorByDescriptor desc) (readTensorByDescriptor desc) :=
  (Coincides.okOr _ _ _).bind fun _ => .self fun _ _ _ =>
    (coincides_validateBoundsAt _ _ _ _ _).bind fun _ => coincides_readRange htiled _ _

theorem coincides_readTensorRangeByDescriptor (desc : TensorDescriptor) (offset len : Nat) :
    Coincides (Both (OnHost (Serves source))) (readTensorRangeByDescriptor desc offset len)
      (readTensorRangeByDescriptor desc offset len) :=
  (Coincides.okOr _ _ _).bind fun _ => (Coincides.failIf _ _ _ _).bind fun _ =>
    (Coincides.okOr _ _ _).bind fun _ => (Coincides.failIf _ _ _ _).bind fun _ =>
      (Coincides.okOr _ _ _).bind fun _ => .self fun _ _ _ =>
        (coincides_validateBoundsAt _ _ _ _ _).bind fun _ => coincides_readRange htiled _ _

theorem coincides_readF32TensorRangeByDescriptor (desc : TensorDescriptor)
    (elementOffset elementCount : Nat) :
    Coincides (Both (OnHost (Serves source))) (readF32TensorRangeByDescriptor desc elementOffset elementCount)
      (readF32TensorRangeByDescriptor desc elementOffset elementCount) := by
  intro s s' ⟨hs, hs'⟩ values t values' t' h h'
  have hkeeps := (readsKeep_serves htiled).readF32TensorRangeByDescriptor desc elementOffset elementCount
  have ht := hkeeps s hs
  have ht' := hkeeps s' hs'
  rw [h] at ht
  rw [h'] at ht'
  obtain ⟨-, hvalues⟩ := isF32Range_of_readF32TensorRangeByDescriptor htiled hs h
  obtain ⟨-, hvalues'⟩ := isF32Range_of_readF32TensorRangeByDescriptor htiled hs' h'
  exact ⟨hvalues.unique hvalues', ht, ht'⟩

end coincide

/-! ## No panic -/

section settles

variable (htiled : Tiled source.files)

theorem settles_nextReserve {J : List Answer × GgufDataSource → Prop} {ε : Type} :
    Settles (OnHost J) (nextReserve (ε := ε)) := fun _ hs => hs

theorem settles_validateBoundsAt {σ : Type} {I : σ → Prop} (at₁ : GgufDataSource) (fileOffset len : Nat)
    (desc : TensorDescriptor) :
    Settles I (at₁.validateBoundsAt fileOffset len desc : Exec σ DataSourceError Unit) :=
  (Settles.failIf _ _).bind fun _ => (Settles.okOr _ _).bind fun _ => .failIf _ _

include htiled

theorem settles_readRangeInto (reserve : Reserve) (fileOffset len : Nat) :
    Settles (fun s : List UInt8 × List Answer × GgufDataSource => Serves source s.2)
      (readRangeInto reserve fileOffset len) := by
  intro s hs
  have hfiles : s.2.2.files = source.files := hs.files
  obtain ⟨hkept, hresult⟩ := readRangeInto_post (hfiles.symm ▸ htiled) hs.coherent reserve fileOffset len
    s.2.1 s.1
  unfold Ends
  rcases hrun : readRangeInto reserve fileOffset len s with ⟨u | e | p, t⟩ <;>
    rw [show (s.1, s.2.1, s.2.2) = s from rfl, hrun] at hkept hresult
  · exact hs.trans hkept
  · exact hs.trans hkept
  · exact hresult

theorem settles_readRange (fileOffset len : Nat) :
    Settles (OnHost (Serves source)) (readRange fileOffset len) :=
  settles_nextReserve.bind fun reserve =>
    (settles_readRangeInto htiled reserve fileOffset len).withLocal.onSnd.bind fun r => .pure r.2

theorem settles_readF32Range (reserve : Reserve) (fileOffset elementCount : Nat) :
    Settles (Serves source) (readF32Range reserve fileOffset elementCount) := by
  intro s hs
  have hfiles : s.2.files = source.files := hs.files
  obtain ⟨hkept, hresult⟩ := readF32Range_post (hfiles.symm ▸ htiled) hs.coherent reserve fileOffset
    elementCount s.1
  unfold Ends
  rcases hrun : readF32Range reserve fileOffset elementCount s with ⟨u | e | p, t⟩ <;>
    rw [show (s.1, s.2) = s from rfl, hrun] at hkept hresult
  · exact hs.trans hkept
  · exact hs.trans hkept
  · exact hresult

theorem settles_readTensorByDescriptor (desc : TensorDescriptor) :
    Settles (OnHost (Serves source)) (readTensorByDescriptor desc) :=
  (Settles.okOr _ _).bind fun _ => Settles.self.bind fun _ => (settles_validateBoundsAt _ _ _ _).bind fun _ =>
    settles_readRange htiled _ _

theorem settles_readF32TensorRangeByDescriptor (desc : TensorDescriptor)
    (elementOffset elementCount : Nat) :
    Settles (OnHost (Serves source)) (readF32TensorRangeByDescriptor desc elementOffset elementCount) :=
  (Settles.failIf _ _).bind fun _ => (Settles.okOr _ _).bind fun _ => (Settles.okOr _ _).bind fun _ =>
    (Settles.failIf _ _).bind fun _ => (Settles.okOr _ _).bind fun _ => (Settles.failIf _ _).bind fun _ =>
      (Settles.okOr _ _).bind fun _ => (Settles.okOr _ _).bind fun _ => (Settles.okOr _ _).bind fun _ =>
        Settles.self.bind fun _ => (settles_validateBoundsAt _ _ _ _).bind fun _ =>
          settles_nextReserve.bind fun reserve => (settles_readF32Range htiled reserve _ _).onSnd

end settles

end GgufDataSource
end Ramforge
