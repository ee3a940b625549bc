/-
Readers of a byte stream.

`Decodes m bytes a` says that `m` takes exactly `bytes` off the front of the
stream and returns `a`, whatever follows.  `Streams m` says that `m` looks at no
byte it does not take and never panics.  A format whose reader has both cannot
read a strict prefix of an encoding: `Streams.rejects_prefix`.
-/
import Ramforge.Rust.Exec

namespace Rust

/-- What is left of a file, and how much of it has been read. -/
structure Reader where
  inner : List UInt8
  position : Nat

namespace Reader

open Exec

variable {ε α β γ : Type}

/-- `Read::read_exact` into a buffer of `len` bytes. -/
def readExact (len : Nat) (eof : ε) : Exec Reader ε (List UInt8) := do
  let r ← self
  failIf (r.inner.length < len) eof
  modify fun r => { inner := r.inner.drop len, position := r.position + len }
  return r.inner.take len

/-- `m` repeated `n` times. -/
def times (m : Exec Reader ε α) : Nat → Exec Reader ε (List α)
  | 0 => pure []
  | n + 1 => do
    let a ← m
    let as ← times m n
    return a :: as

def Decodes (m : Exec Reader ε α) (bytes : List UInt8) (a : α) : Prop :=
  ∀ rest position,
    m ⟨bytes ++ rest, position⟩ = (.ok a, ⟨rest, position + bytes.length⟩)

def Streams (m : Exec Reader ε α) : Prop :=
  ∀ r, match m r with
    | (.ok a, r') => ∃ bytes, r.inner = bytes ++ r'.inner ∧ Decodes m bytes a
    | (.err _, _) => True
    | (.panic _, _) => False

namespace Decodes

variable {m : Exec Reader ε α} {k : α → Exec Reader ε β} {xs ys : List UInt8} {a : α} {b : β}

theorem pure (a : α) : Decodes (pure a : Exec Reader ε α) [] a := fun _ _ => rfl

theorem bind (hm : Decodes m xs a) (hk : Decodes (k a) ys b) :
    Decodes (m >>= k) (xs ++ ys) b := by
  intro rest position
  rw [List.append_assoc, bind_of_ok (hm (ys ++ rest) position), hk rest, List.length_append,
    Nat.add_assoc]

/-- A call that takes no bytes in front of another. -/
theorem bind_nil (hm : Decodes m [] a) (hk : Decodes (k a) ys b) : Decodes (m >>= k) ys b :=
  bind hm hk

/-- A call that takes no bytes behind another. -/
theorem bind_end (hm : Decodes m xs a) (hk : Decodes (k a) [] b) : Decodes (m >>= k) xs b := by
  have h := bind hm hk
  rw [List.append_nil] at h
  exact h

theorem map (hm : Decodes m xs a) (f : α → β) : Decodes (do return f (← m)) xs (f a) :=
  bind_end hm (pure (f a))

theorem failIf {c : Prop} [Decidable c] (h : ¬c) (e : ε) :
    Decodes (failIf c e : Exec Reader ε Unit) [] () := by
  intro rest position
  rw [Exec.failIf, if_neg h]
  rfl

theorem okOr {o : Option α} (h : o = some a) (e : ε) :
    Decodes (okOr o e : Exec Reader ε α) [] a := by
  rw [h]
  exact pure a

theorem readExact (xs : List UInt8) (eof : ε) : Decodes (readExact xs.length eof) xs xs := by
  intro rest position
  have hlen : ¬ (xs ++ rest).length < xs.length := by
    rw [List.length_append]
    omega
  simp only [Reader.readExact, self_bind_run, failIf_bind_run, if_neg hlen, modify_bind_run,
    pure_run, List.take_left, List.drop_left]

theorem times (f : γ → α) (encode : γ → List UInt8) (cs : List γ)
    (h : ∀ c ∈ cs, Decodes m (encode c) (f c)) :
    Decodes (times m cs.length) (cs.flatMap encode) (cs.map f) := by
  induction cs with
  | nil => exact pure []
  | cons c cs ih =>
    have hc := h c (List.mem_cons_self ..)
    have hcs := ih fun c hc => h c (List.mem_cons_of_mem _ hc)
    rw [List.flatMap_cons]
    exact bind hc (map hcs (f c :: ·))

end Decodes

namespace Streams

variable {m : Exec Reader ε α} {k : α → Exec Reader ε β}

theorem of_decodes_nil {a : α} (h : Decodes m [] a) : Streams m := by
  intro r
  have hr := h r.inner r.position
  rw [List.nil_append] at hr
  rw [show m r = _ from hr]
  exact ⟨[], rfl, h⟩

theorem pure (a : α) : Streams (pure a : Exec Reader ε α) := of_decodes_nil (Decodes.pure a)

theorem throw (e : ε) : Streams (throw e : Exec Reader ε α) := fun _ => trivial

theorem bind (hm : Streams m) (hk : ∀ a, Streams (k a)) : Streams (m >>= k) := by
  intro r
  have hr := hm r
  rw [bind_run]
  rcases hmr : m r with ⟨a | e | p, r₁⟩ <;> rw [hmr] at hr
  · obtain ⟨xs, hxs, hdx⟩ := hr
    have hr₁ := hk a r₁
    show match k a r₁ with | (.ok _, _) => _ | (.err _, _) => _ | (.panic _, _) => _
    rcases hkr : k a r₁ with ⟨b | e | p, r₂⟩ <;> rw [hkr] at hr₁
    · obtain ⟨ys, hys, hdy⟩ := hr₁
      refine ⟨xs ++ ys, ?_, hdx.bind hdy⟩
      rw [hxs, hys, List.append_assoc]
    · trivial
    · exact hr₁
  · trivial
  · exact hr

theorem failIf (c : Prop) [Decidable c] (e : ε) : Streams (failIf c e : Exec Reader ε Unit) := by
  by_cases h : c
  · rw [Exec.failIf, if_pos h]
    exact throw e
  · exact of_decodes_nil (Decodes.failIf h e)

theorem okOr (o : Option α) (e : ε) : Streams (okOr o e : Exec Reader ε α) := by
  cases o with
  | none => exact throw e
  | some a => exact pure a

theorem readExact (len : Nat) (eof : ε) : Streams (readExact len eof) := by
  intro r
  by_cases h : r.inner.length < len
  · simp only [Reader.readExact, self_bind_run, failIf_bind_run, if_pos h]
  · simp only [Reader.readExact, self_bind_run, failIf_bind_run, if_neg h, modify_bind_run,
      pure_run]
    refine ⟨r.inner.take len, (List.take_append_drop len r.inner).symm, ?_⟩
    have hlen : (r.inner.take len).length = len := by
      rw [List.length_take]
      omega
    have hd := Decodes.readExact (r.inner.take len) eof
    rw [hlen] at hd
    exact hd

theorem times (hm : Streams m) (n : Nat) : Streams (times m n) := by
  induction n with
  | zero => exact pure []
  | succ n ih => exact bind hm fun a => bind ih fun as => pure (a :: as)

/-- The bytes of a format end it: what is cut short is an error. -/
theorem rejects_prefix {bytes front back : List UInt8} {a : α} (hm : Streams m)
    (hd : Decodes m bytes a) (hsplit : bytes = front ++ back) (hback : back ≠ [])
    (position : Nat) : ∃ e, (m ⟨front, position⟩).1 = .err e := by
  have hr := hm ⟨front, position⟩
  rcases hrun : m ⟨front, position⟩ with ⟨b | e | p, r'⟩ <;> rw [hrun] at hr
  · -- the same call on the whole encoding would leave `back` unread
    exfalso
    obtain ⟨xs, hxs, hdx⟩ := hr
    have hwhole := hd [] 0
    have hshort := hdx (r'.inner ++ back) 0
    rw [← List.append_assoc, ← show front = xs ++ r'.inner from hxs, ← hsplit] at hshort
    rw [List.append_nil, hshort] at hwhole
    have hleft : r'.inner ++ back = [] := congrArg (fun r => r.2.inner) hwhole
    exact hback (List.append_eq_nil_iff.mp hleft).2
  · exact ⟨e, rfl⟩
  · exact hr.elim

end Streams
end Reader
end Rust
