/-
The chunks of rows that the workers get.
-/
import Ramforge.Runtime.Backend
import Ramforge.Rust.Tiles

namespace Ramforge
namespace ComputeDispatch

open Rust

/-- The ranges take the rows from `0` to `outDim` one after another, and no range
has two rows more than another. -/
structure IsRowPartition (outDim : Nat) (ranges : List (Nat × Nat)) : Prop where
  contiguous : Tiles (fun range => range.1) (fun range => range.1 + range.2) 0 ranges outDim
  rows : (ranges.flatMap fun range => List.range' range.1 range.2) = List.range outDim
  balanced : ∀ a ∈ ranges, ∀ b ∈ ranges, a.2 ≤ b.2 + 1

/-- What holds of the ranges when `i` of `n` are made. -/
structure Chunked (base extra i : Nat) (out : List (Nat × Nat) × Nat) : Prop where
  contiguous : Tiles (fun range => range.1) (fun range => range.1 + range.2) 0 out.1 out.2
  cursor : out.2 = i * base + min i extra
  count : ∀ range ∈ out.1, base ≤ range.2 ∧ range.2 ≤ base + 1
  length : out.1.length = i

theorem Chunked.step {base extra i : Nat} {out : List (Nat × Nat) × Nat} (h : Chunked base extra i out) :
    Chunked base extra (i + 1)
      (out.1 ++ [(out.2, base + if i < extra then 1 else 0)],
        out.2 + (base + if i < extra then 1 else 0)) := by
  have hcursor := h.cursor
  have hcount : base ≤ base + (if i < extra then 1 else 0) ∧
      base + (if i < extra then 1 else 0) ≤ base + 1 := by
    split <;> omega
  refine ⟨h.contiguous.concat rfl (Nat.le_add_right _ _), ?_, ?_, ?_⟩
  · rw [hcursor, Nat.succ_mul]
    split <;> omega
  · intro range hrange
    rcases List.mem_append.mp hrange with hmem | hmem
    · exact h.count range hmem
    · obtain rfl := List.mem_singleton.mp hmem
      exact hcount
  · rw [List.length_append, h.length]
    rfl

theorem makeRowChunks_chunked (outDim nChunks : Nat) : ∃ n out, 0 < n ∧
    makeRowChunks outDim nChunks = out.1 ∧ out.2 = outDim ∧
      Chunked (outDim / n) (outDim % n) n out := by
  let n := max (min nChunks outDim) 1
  have hn : 0 < n := Nat.lt_of_lt_of_le Nat.one_pos (Nat.le_max_right _ _)
  have hloop := forRange_rule (n := n)
    (f := fun i out => (out.1 ++ [(out.2, outDim / n + if i < outDim % n then 1 else 0)],
      out.2 + (outDim / n + if i < outDim % n then 1 else 0))) (b := ([], 0))
    (I := Chunked (outDim / n) (outDim % n)) ?_ ?_
  · have hend := hloop.cursor
    have hmod := Nat.mod_lt outDim hn
    have hdiv := Nat.div_add_mod outDim n
    rw [Nat.min_eq_right (Nat.le_of_lt hmod), hdiv] at hend
    exact ⟨n, _, hn, rfl, hend, hloop⟩
  · exact ⟨Tiles.nil 0, by simp, fun _ h => absurd h List.not_mem_nil, rfl⟩
  · exact fun i _ out hout => hout.step

theorem makeRowChunks_ne_nil (outDim nChunks : Nat) : makeRowChunks outDim nChunks ≠ [] := by
  obtain ⟨n, out, hn, hout, -, h⟩ := makeRowChunks_chunked outDim nChunks
  intro hnil
  have hlen := h.length
  rw [← hout, hnil] at hlen
  exact absurd hlen (Nat.ne_of_lt hn)

theorem makeRowChunks_partition (outDim nChunks : Nat) :
    IsRowPartition outDim (makeRowChunks outDim nChunks) := by
  obtain ⟨n, out, -, hout, hend, h⟩ := makeRowChunks_chunked outDim nChunks
  rw [hout, ← hend]
  refine ⟨h.contiguous, ?_, fun a ha b hb => ?_⟩
  · have hplaces := h.contiguous.flatMap_range'
    simp only [Nat.add_sub_cancel_left] at hplaces
    rw [hplaces, Nat.sub_zero, List.range_eq_range']
  · have hacount := h.count a ha
    have hbcount := h.count b hb
    omega

end ComputeDispatch
end Ramforge
