/-
Fixed-width little-endian numbers: `from_le_bytes` and `to_le_bytes`.
-/
import Mathlib.Tactic

namespace Rust
namespace LittleEndian

/-- The `w` low bytes of `n`, least significant first. -/
def toBytes : Nat → Nat → List UInt8
  | 0, _ => []
  | w + 1, n => UInt8.ofNat n :: toBytes w (n / 256)

def ofBytes : List UInt8 → Nat
  | [] => 0
  | b :: bs => b.toNat + 256 * ofBytes bs

@[simp] theorem length_toBytes (w n : Nat) : (toBytes w n).length = w := by
  induction w generalizing n with
  | zero => rfl
  | succ w ih => rw [toBytes, List.length_cons, ih]

theorem ofBytes_toBytes {w n : Nat} (h : n < 256 ^ w) : ofBytes (toBytes w n) = n := by
  induction w generalizing n with
  | zero =>
    rw [Nat.pow_zero] at h
    show 0 = n
    omega
  | succ w ih =>
    have hdiv : n / 256 < 256 ^ w := by
      rw [Nat.pow_succ] at h
      omega
    have hbyte : (UInt8.ofNat n).toNat = n % 256 := UInt8.toNat_ofNat'
    rw [toBytes, ofBytes, ih hdiv, hbyte]
    omega

theorem ofBytes_lt (bs : List UInt8) : ofBytes bs < 256 ^ bs.length := by
  induction bs with
  | nil => exact Nat.one_pos
  | cons b bs ih =>
    have hb := b.toNat_lt
    rw [ofBytes, List.length_cons, Nat.pow_succ]
    omega

theorem toBytes_ofBytes (bs : List UInt8) : toBytes bs.length (ofBytes bs) = bs := by
  induction bs with
  | nil => rfl
  | cons b bs ih =>
    have hb := b.toNat_lt
    have hlow : UInt8.ofNat (b.toNat + 256 * ofBytes bs) = b := by
      apply UInt8.toNat_inj.mp
      rw [UInt8.toNat_ofNat']
      omega
    have hhigh : (b.toNat + 256 * ofBytes bs) / 256 = ofBytes bs := by omega
    rw [List.length_cons, ofBytes, toBytes, hlow, hhigh, ih]

/-- Byte `k` of a number. -/
theorem ofBytes_div (bs : List UInt8) (k : Nat) : ofBytes bs / 256 ^ k % 256 = (bs.getD k 0).toNat := by
  induction bs generalizing k with
  | nil => simp [ofBytes]
  | cons b bs ih =>
    have hb := b.toNat_lt
    rw [ofBytes]
    cases k with
    | zero =>
      rw [Nat.pow_zero, Nat.div_one, List.getD_cons_zero]
      omega
    | succ k =>
      have hdiv : (b.toNat + 256 * ofBytes bs) / 256 = ofBytes bs := by omega
      rw [Nat.pow_succ', ← Nat.div_div_eq_div_mul, hdiv, ih, List.getD_cons_succ]

theorem getElem?_toBytes {w n k : Nat} (hk : k < w) :
    (toBytes w n)[k]? = some (UInt8.ofNat (n / 256 ^ k)) := by
  induction w generalizing n k with
  | zero => omega
  | succ w ih =>
    cases k with
    | zero => simp [toBytes]
    | succ k =>
      rw [toBytes, List.getElem?_cons_succ, ih (by omega), Nat.div_div_eq_div_mul, Nat.pow_succ,
        Nat.mul_comm]

theorem toBytes_inj {w m n : Nat} (hm : m < 256 ^ w) (hn : n < 256 ^ w) (h : toBytes w m = toBytes w n) :
    m = n := by
  rw [← ofBytes_toBytes hm, h, ofBytes_toBytes hn]

/-- A number of a fixed width is read off the front of whatever follows it. -/
theorem toBytes_append_inj {w m n : Nat} {xs ys : List UInt8} (hm : m < 256 ^ w) (hn : n < 256 ^ w)
    (h : toBytes w m ++ xs = toBytes w n ++ ys) : m = n ∧ xs = ys := by
  obtain ⟨hbytes, hrest⟩ := List.append_inj h (by rw [length_toBytes, length_toBytes])
  exact ⟨toBytes_inj hm hn hbytes, hrest⟩

/-- As many numbers on either side are read off in turn. -/
theorem flatMap_toBytes_append_inj {w : Nat} {ms ns : List Nat} {xs ys : List UInt8}
    (hm : ∀ m ∈ ms, m < 256 ^ w) (hn : ∀ n ∈ ns, n < 256 ^ w) (hlen : ms.length = ns.length)
    (h : ms.flatMap (toBytes w) ++ xs = ns.flatMap (toBytes w) ++ ys) : ms = ns ∧ xs = ys := by
  induction ms generalizing ns with
  | nil =>
    rw [List.length_nil, eq_comm, List.length_eq_zero_iff] at hlen
    subst hlen
    exact ⟨rfl, h⟩
  | cons m ms ih =>
    cases ns with
    | nil => cases hlen
    | cons n ns =>
      rw [List.flatMap_cons, List.flatMap_cons, List.append_assoc, List.append_assoc] at h
      obtain ⟨rfl, hrest⟩ :=
        toBytes_append_inj (hm m List.mem_cons_self) (hn n List.mem_cons_self) h
      obtain ⟨rfl, rfl⟩ := ih (fun k hk => hm k (List.mem_cons_of_mem _ hk))
        (fun k hk => hn k (List.mem_cons_of_mem _ hk)) (Nat.succ.inj hlen) hrest
      exact ⟨rfl, rfl⟩

end LittleEndian
end Rust
