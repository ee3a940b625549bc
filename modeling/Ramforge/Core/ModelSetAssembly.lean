/-
What `assemble_shards` guarantees of the set it returns.

`Placed` is the invariant of its loop over the candidates: the filled slots are
the candidates seen so far, no tensor name has come twice, and every tensor of
known length lies in its file.
-/
import Ramforge.Core.ModelSet
import Mathlib.Data.List.ReduceOption

namespace Ramforge
namespace ModelSet

open Rust Rust.Exec

def tensorNames (m : GgufModel) : List String := m.tensors.map TensorDescriptor.name

/-- A tensor of known length ends inside the file. -/
def InFile (m : GgufModel) (t : TensorDescriptor) : Prop :=
  ∀ len, t.byteLength = some len →
    t.fileOffset + len < u64Bound ∧ t.fileOffset + len ≤ m.fileSize

structure Placed (a : Assembly) (done : List GgufModel) : Prop where
  shards : a.shards.reduceOption.Perm done
  names_nodup : (done.flatMap tensorNames).Nodup
  seen : ∀ name, name ∈ a.seenTensors ↔ name ∈ done.flatMap tensorNames
  inFile : ∀ m ∈ done, ∀ t ∈ m.tensors, InFile m t

/-- What the loop over the tensors `ts` of `m` does to the local variables. -/
structure Checked (m : GgufModel) (ts : List TensorDescriptor) (a a' : Assembly) : Prop where
  shards : a'.shards = a.shards
  names_nodup : (ts.map TensorDescriptor.name).Nodup
  fresh : ∀ t ∈ ts, t.name ∉ a.seenTensors
  seen : ∀ name, name ∈ a'.seenTensors ↔
    name ∈ ts.map TensorDescriptor.name ∨ name ∈ a.seenTensors
  inFile : ∀ t ∈ ts, InFile m t

variable {m : GgufModel} {a a' : Assembly}

theorem checkTensor_checked {t : TensorDescriptor} (h : checkTensor m t a = (.ok (), a')) :
    Checked m [t] a a' := by
  have hseen : ∀ name, name ∈ a.seenTensors.insert t.name ↔
      name ∈ [t].map TensorDescriptor.name ∨ name ∈ a.seenTensors := by
    intro name
    rw [Std.ExtTreeSet.mem_insert, Std.LawfulEqCmp.compare_eq_iff_eq]
    simp [eq_comm]
  unfold checkTensor at h
  rw [self_bind_run] at h
  obtain ⟨hfresh, h⟩ := of_failIf_bind_ok h
  rw [modify_bind_run] at h
  have hnew : ∀ t' ∈ [t], t'.name ∉ a.seenTensors := by
    intro t' ht'
    obtain rfl := List.mem_singleton.mp ht'
    exact hfresh
  cases hlen : t.byteLength with
  | none =>
    rw [hlen] at h
    cases h
    refine ⟨rfl, List.nodup_singleton _, hnew, hseen, ?_⟩
    intro t' ht' len hlen'
    obtain rfl := List.mem_singleton.mp ht'
    rw [hlen] at hlen'
    cases hlen'
  | some byteLength =>
    rw [hlen] at h
    obtain ⟨tensorEnd, hend, h⟩ := of_okOr_bind_ok h
    obtain ⟨hfile, rfl⟩ := of_failIf_ok h
    obtain ⟨hlt, rfl⟩ := checkedAdd_eq_some.mp hend
    refine ⟨rfl, List.nodup_singleton _, hnew, hseen, ?_⟩
    intro t' ht' len hlen'
    obtain rfl := List.mem_singleton.mp ht'
    obtain rfl := Option.some.inj (hlen.symm.trans hlen')
    exact ⟨hlt, Nat.not_lt.mp hfile⟩

theorem checkTensors_checked {ts : List TensorDescriptor}
    (h : checkTensors m ts a = (.ok (), a')) : Checked m ts a a' := by
  induction ts generalizing a with
  | nil =>
    cases h
    refine ⟨rfl, List.nodup_nil, ?_, ?_, ?_⟩
    · intro t ht
      cases ht
    · intro name
      simp
    · intro t ht
      cases ht
  | cons t ts ih =>
    obtain ⟨_, a₁, hhead, htail⟩ := of_bind_ok h
    have hhead := checkTensor_checked hhead
    have htail := ih htail
    have ht := List.mem_singleton_self t
    refine ⟨htail.shards.trans hhead.shards, ?_, ?_, ?_, ?_⟩
    · rw [List.map_cons, List.nodup_cons]
      refine ⟨?_, htail.names_nodup⟩
      intro hmem
      obtain ⟨t', ht', hname⟩ := List.mem_map.mp hmem
      apply htail.fresh t' ht'
      rw [hhead.seen, hname]
      exact .inl (List.mem_map_of_mem ht)
    · intro t' ht'
      rcases List.mem_cons.mp ht' with rfl | hmem
      · exact hhead.fresh t' ht
      · intro hseen
        apply htail.fresh t' hmem
        rw [hhead.seen]
        exact .inr hseen
    · intro name
      rw [htail.seen, hhead.seen]
      simp only [List.map_cons, List.map_nil, List.mem_cons, List.not_mem_nil, or_false]
      tauto
    · intro t' ht'
      rcases List.mem_cons.mp ht' with rfl | hmem
      · exact hhead.inFile t' ht
      · exact htail.inFile t' hmem

theorem reduceOption_set {α : Type} {slots : List (Option α)} {index : Nat} (x : α)
    (h : slots[index]? = some none) :
    (slots.set index (some x)).reduceOption.Perm (x :: slots.reduceOption) := by
  induction slots generalizing index with
  | nil => cases h
  | cons slot slots ih =>
    cases index with
    | zero =>
      rw [List.getElem?_cons_zero] at h
      obtain rfl := Option.some.inj h
      rw [List.set_cons_zero, List.reduceOption_cons_of_some, List.reduceOption_cons_of_none]
    | succ index =>
      rw [List.getElem?_cons_succ] at h
      rw [List.set_cons_succ]
      cases slot with
      | none =>
        rw [List.reduceOption_cons_of_none, List.reduceOption_cons_of_none]
        exact ih h
      | some y =>
        rw [List.reduceOption_cons_of_some, List.reduceOption_cons_of_some]
        exact ((ih h).cons y).trans (List.Perm.swap x y _)

/-- A round of the loop over the candidates: an empty slot takes the candidate, and
its tensors have been checked. -/
theorem placeShard_cases {expectedCount : Nat} (h : placeShard expectedCount m a = (.ok (), a')) :
    ∃ a₁ index, a₁.shards = a.shards ∧ a₁.seenTensors = a.seenTensors ∧
      a.shards[index]? = some none ∧
      ∃ a₂, Checked m m.tensors a₁ a₂ ∧ a'.seenTensors = a₂.seenTensors ∧
        a'.shards = a.shards.set index (some m) := by
  unfold placeShard at h
  obtain ⟨count, _, h⟩ := of_ofResult_bind_ok h
  obtain ⟨_, h⟩ := of_failIf_bind_ok h
  obtain ⟨_, _, h⟩ := of_ofResult_bind_ok h
  obtain ⟨index, _, h⟩ := of_okOr_bind_ok h
  obtain ⟨_, h⟩ := of_failIf_bind_ok h
  rw [self_bind_run] at h
  obtain ⟨slot, hslot, h⟩ := of_expect_bind_ok h
  obtain ⟨hempty, h⟩ := of_failIf_bind_ok h
  obtain ⟨referenceName, _, h⟩ := of_ofResult_bind_ok h
  obtain ⟨referenceArchitecture, _, h⟩ := of_ofResult_bind_ok h
  rw [modify_bind_run] at h
  obtain ⟨_, a₂, hcheck, h⟩ := of_bind_ok h
  rw [self_bind_run] at h
  obtain ⟨totalTensors, _, h⟩ := of_okOr_bind_ok h
  have hcheck := checkTensors_checked hcheck
  have hnone : slot = none := by
    cases slot with
    | none => rfl
    | some m' => exact absurd rfl hempty
  rw [hnone] at hslot
  refine ⟨{ a with referenceName, referenceArchitecture }, index, rfl, rfl, hslot, a₂, hcheck,
    ?_, ?_⟩
  · cases h
    rfl
  · cases h
    exact congrArg (List.set · index (some m)) hcheck.shards

theorem placeShard_placed {expectedCount : Nat} {done : List GgufModel} (hplaced : Placed a done)
    (h : placeShard expectedCount m a = (.ok (), a')) : Placed a' (m :: done) := by
  obtain ⟨a₁, index, hshards₁, hseen₁, hslot, a₂, hchecked, hseen₂, hshards₂⟩ :=
    placeShard_cases h
  have hfresh : ∀ name ∈ tensorNames m, name ∉ done.flatMap tensorNames := by
    intro name hname hmem
    obtain ⟨t, ht, rfl⟩ := List.mem_map.mp hname
    apply hchecked.fresh t ht
    rw [hseen₁, hplaced.seen]
    exact hmem
  refine ⟨?_, ?_, ?_, ?_⟩
  · rw [hshards₂]
    exact (reduceOption_set m hslot).trans (hplaced.shards.cons m)
  · rw [List.flatMap_cons, List.nodup_append]
    refine ⟨hchecked.names_nodup, hplaced.names_nodup, ?_⟩
    intro name hname other hother heq
    rw [← heq] at hother
    exact hfresh name hname hother
  · intro name
    rw [hseen₂, hchecked.seen, hseen₁, hplaced.seen, List.flatMap_cons, List.mem_append]
    rfl
  · intro m' hm'
    rcases List.mem_cons.mp hm' with rfl | hmem
    · exact hchecked.inFile
    · exact hplaced.inFile m' hmem

theorem placeShards_placed {expectedCount : Nat} {models done : List GgufModel}
    (hplaced : Placed a done) (h : placeShards expectedCount models a = (.ok (), a')) :
    Placed a' (models.reverse ++ done) := by
  induction models generalizing a done with
  | nil =>
    cases h
    exact hplaced
  | cons model models ih =>
    obtain ⟨_, a₁, hhead, htail⟩ := of_bind_ok h
    rw [List.reverse_cons, List.append_assoc]
    exact ih (placeShard_placed hplaced hhead) htail

theorem orderedFrom_ok {expectedCount index : Nat} {slots : List (Option GgufModel)}
    {models : List GgufModel} (h : orderedFrom expectedCount index slots = .ok models) :
    slots.reduceOption = models := by
  fun_induction orderedFrom expectedCount index slots generalizing models with
  | case1 => cases h; rfl
  | case2 => cases h
  | case3 index model slots rest hrest ih =>
    cases h
    rw [List.reduceOption_cons_of_some, ih hrest]
  | case4 => cases h

/-- The set holds the candidates, in another order. -/
structure Accepted (candidates : List GgufModel) (set : GgufModelSet) : Prop where
  perm : set.shards.Perm candidates
  names_nodup : (set.shards.flatMap tensorNames).Nodup
  inFile : ∀ m ∈ set.shards, ∀ t ∈ m.tensors, InFile m t

theorem assembleShards_accepted {sourcePath : String} {expectedCount : Nat}
    {candidates : List GgufModel} {set : GgufModelSet}
    (h : assembleShards sourcePath expectedCount candidates = .ok set) :
    Accepted candidates set := by
  unfold assembleShards at h
  split at h
  · cases h
  cases hagreed : agreedTensorCount none candidates with
  | error e =>
    rw [hagreed] at h
    cases h
  | ok splitTensorCount =>
    rw [hagreed] at h
    dsimp only at h
    generalize hinit : ({ shards := List.replicate expectedCount none
                          seenTensors := ∅
                          totalTensors := 0
                          referenceName := none
                          referenceArchitecture := none } : Assembly) = a at h
    have hstart : Placed a [] := by
      subst hinit
      refine ⟨?_, List.nodup_nil, ?_, ?_⟩
      · rw [List.reduceOption_replicate_none]
      · intro name
        simp
      · intro m hm
        cases hm
    rcases hrun : assemble sourcePath expectedCount splitTensorCount candidates a with ⟨o, a'⟩
    rw [hrun] at h
    obtain rfl : o = .ok set := h
    unfold assemble at hrun
    obtain ⟨_, a₁, hplace, hrun⟩ := of_bind_ok hrun
    have hplaced := placeShards_placed hstart hplace
    rw [List.append_nil] at hplaced
    rw [self_bind_run] at hrun
    obtain ⟨ordered, hordered, hrun⟩ := of_ofResult_bind_ok hrun
    obtain ⟨_, hrun⟩ := of_failIf_bind_ok hrun
    have hset : set.shards = ordered := by
      cases ordered with
      | nil => cases hrun
      | cons zero rest =>
        obtain ⟨_, hrun⟩ := of_failIf_bind_ok hrun
        cases hrun
        rfl
    have hperm : set.shards.Perm candidates.reverse := by
      rw [hset, ← orderedFrom_ok hordered]
      exact hplaced.shards
    refine ⟨hperm.trans candidates.reverse_perm, ?_, ?_⟩
    · exact (hperm.flatMap_right tensorNames).nodup_iff.mpr hplaced.names_nodup
    · intro m hm
      exact hplaced.inFile m (hperm.mem_iff.mp hm)

end ModelSet
end Ramforge
