/-
Encoders and decoders of one format, side by side.

An encoder appends to a vector, and a decoder takes bytes off the front of what is
left, `rest`, of its state.  `Codec rest P put get` says that the two are inverse to
each other on the values `P`.  Its rules follow the fields of a record in their order,
so the proof for a record is the list of its fields.
-/
import Ramforge.Rust.Exec
import Ramforge.Rust.LittleEndian

namespace Rust

open Exec

variable {σ ε α β : Type} {rest : σ → List UInt8}

/-- `get` takes exactly `xs` off the front and returns `a`, whatever follows. -/
def Decodes (rest : σ → List UInt8) (get : Exec σ ε α) (xs : List UInt8) (a : α) : Prop :=
  ∀ s tail, rest s = xs ++ tail → ∃ s', get s = (.ok a, s') ∧ rest s' = tail

/-- `put` adds exactly `xs` at the end of a vector. -/
def Appends (put : Exec (List UInt8) ε Unit) (xs : List UInt8) : Prop :=
  ∀ bytes, put bytes = (.ok (), bytes ++ xs)

structure Codec (rest : σ → List UInt8) (P : α → Prop) (put : α → Exec (List UInt8) ε Unit)
    (get : Exec σ ε α) : Prop where
  complete : ∀ {a : α} {bytes out : List UInt8}, P a → put a bytes = (.ok (), out) →
    ∃ xs, out = bytes ++ xs ∧ Decodes rest get xs a
  canonical : ∀ {s s' : σ} {a : α}, get s = (.ok a, s') →
    P a ∧ ∃ xs, Appends (put a) xs ∧ rest s = xs ++ rest s'
  total : ∀ s p, (get s).1 ≠ .panic p

/-- `bytes.extend_from_slice(xs)`. -/
def extendFromSlice (xs : List UInt8) : Exec (List UInt8) ε Unit := modify (· ++ xs)

/-! ## Sequences -/

theorem Decodes.bind {get : Exec σ ε α} {k : α → Exec σ ε β} {xs ys : List UInt8} {a : α} {b : β}
    (hm : Decodes rest get xs a) (hk : Decodes rest (k a) ys b) :
    Decodes rest (get >>= k) (xs ++ ys) b := by
  intro s tail hs
  rw [List.append_assoc] at hs
  obtain ⟨s₁, hrun, hs₁⟩ := hm s _ hs
  rw [bind_of_ok hrun]
  exact hk s₁ tail hs₁

theorem Decodes.of_pure (a : α) : Decodes rest (pure a : Exec σ ε α) [] a :=
  fun s _ hs => ⟨s, rfl, hs⟩

theorem Appends.bind {put₁ put₂ : Exec (List UInt8) ε Unit} {xs ys : List UInt8}
    (h₁ : Appends put₁ xs) (h₂ : Appends put₂ ys) :
    Appends (put₁ >>= fun _ => put₂) (xs ++ ys) := by
  intro bytes
  rw [bind_of_ok (h₁ bytes), h₂, List.append_assoc]

theorem not_panic_bind {m : Exec σ ε α} {k : α → Exec σ ε β} {s : σ}
    (hm : ∀ p, (m s).1 ≠ .panic p) (hk : ∀ a s', m s = (.ok a, s') → ∀ p, (k a s').1 ≠ .panic p)
    (p : String) : ((m >>= k) s).1 ≠ .panic p := by
  rw [bind_run]
  rcases hrun : m s with ⟨a | e | q, s'⟩
  · exact hk a s' hrun p
  · intro hpanic
    cases hpanic
  · intro hpanic
    exact hm q (by rw [hrun])

namespace Codec

variable {P : α → Prop} {Q : β → Prop} {f : β → α} {putA : α → Exec (List UInt8) ε Unit}
  {getA : Exec σ ε α} {putR : β → Exec (List UInt8) ε Unit}

/-- The same values in other words. -/
theorem restrict {P' : α → Prop} (h : Codec rest P putA getA) (hP : ∀ a, P' a ↔ P a) :
    Codec rest P' putA getA :=
  ⟨fun ha => h.complete ((hP _).mp ha),
    fun hrun => ⟨(hP _).mpr (h.canonical hrun).1, (h.canonical hrun).2⟩, h.total⟩

/-- Behind the last field: the fields determine the record. -/
theorem done {b : β} (h : ∀ b', Q b' ↔ b' = b) :
    Codec rest Q (fun _ => pure ()) (pure b : Exec σ ε β) := by
  constructor
  · rintro b' bytes out hb' hout
    obtain rfl := (h b').mp hb'
    cases hout
    exact ⟨[], (List.append_nil _).symm, Decodes.of_pure b'⟩
  · rintro s s' b' hrun
    cases hrun
    refine ⟨(h b).mpr rfl, [], fun bytes => ?_, rfl⟩
    rw [pure_run, List.append_nil]
  · rintro s p hpanic
    cases hpanic

/-- One field, and the fields behind it. -/
theorem field (hA : Codec rest P putA getA) (hP : ∀ b, Q b → P (f b)) {k : α → Exec σ ε β}
    (hk : ∀ a, P a → Codec rest (fun b => Q b ∧ f b = a) putR (k a)) :
    Codec rest Q (fun b => putA (f b) >>= fun _ => putR b) (getA >>= k) := by
  constructor
  · intro b bytes out hb hout
    obtain ⟨_, bytes₁, hput, hout⟩ := of_bind_ok hout
    obtain ⟨xs, rfl, hxs⟩ := hA.complete (hP b hb) hput
    obtain ⟨ys, rfl, hys⟩ := (hk (f b) (hP b hb)).complete ⟨hb, rfl⟩ hout
    exact ⟨xs ++ ys, List.append_assoc .., hxs.bind hys⟩
  · intro s s' b hrun
    obtain ⟨a, s₁, hget, hrun⟩ := of_bind_ok hrun
    obtain ⟨ha, xs, hput, hs⟩ := hA.canonical hget
    obtain ⟨⟨hb, rfl⟩, ys, hputR, hs₁⟩ := (hk a ha).canonical hrun
    refine ⟨hb, xs ++ ys, hput.bind hputR, ?_⟩
    rw [hs, hs₁, List.append_assoc]
  · intro s
    refine not_panic_bind (hA.total s) fun a s' hget p => ?_
    exact (hk a (hA.canonical hget).1).total s' p

/-! ### Records

`I` is what holds of every record, and `E` collects the equations of the fields read. -/

variable {I E : β → Prop}

theorem record {get : Exec σ ε β} (h : Codec rest (fun b => I b ∧ True) putR get) :
    Codec rest I putR get :=
  h.restrict fun _ => (and_iff_left trivial).symm

theorem next (hA : Codec rest P putA getA) (hP : ∀ b, I b → P (f b)) {k : α → Exec σ ε β}
    (hk : ∀ a, P a → Codec rest (fun b => I b ∧ E b ∧ f b = a) putR (k a)) :
    Codec rest (fun b => I b ∧ E b) (fun b => putA (f b) >>= fun _ => putR b) (getA >>= k) :=
  field hA (fun b hb => hP b hb.1) fun a ha => (hk a ha).restrict fun _ => and_assoc

theorem last (hA : Codec rest P putA getA) (hP : ∀ b, I b → P (f b)) {g : α → β}
    (hg : ∀ a b, P a → (I b ∧ E b ∧ f b = a ↔ b = g a)) :
    Codec rest (fun b => I b ∧ E b) (fun b => putA (f b)) (getA >>= fun a => pure (g a)) := by
  have h : Codec rest (fun b => I b ∧ E b) (fun b => putA (f b) >>= fun _ => pure ())
      (getA >>= fun a => pure (g a)) := next hA hP fun a ha => done fun b => hg a b ha
  have hput : (fun b => putA (f b) >>= fun _ => pure ()) = fun b => putA (f b) :=
    funext fun b => bind_pure (putA (f b))
  rw [hput] at h
  exact h

/-- A check of the decoder that no encoded value fails. -/
theorem accept {c : Prop} [Decidable c] {e : ε} {get : Exec σ ε β}
    (h : ¬c → Codec rest Q putR get) (hc : ∀ b, Q b → ¬c) :
    Codec rest Q putR (failIf c e >>= fun _ => get) := by
  constructor
  · intro b bytes out hb hout
    obtain ⟨xs, hxs, hdecodes⟩ := (h (hc b hb)).complete hb hout
    refine ⟨xs, hxs, fun s tail hs => ?_⟩
    rw [failIf_bind_run, if_neg (hc b hb)]
    exact hdecodes s tail hs
  · intro s s' b hrun
    obtain ⟨hnot, hrun⟩ := of_failIf_bind_ok hrun
    exact (h hnot).canonical hrun
  · intro s p
    rw [failIf_bind_run]
    split
    · intro hpanic
      cases hpanic
    · rename_i hnot
      exact (h hnot).total s p

/-- A check of the encoder that no decoded value fails. -/
theorem check {c : β → Prop} [DecidablePred c] {e : β → ε} {get : Exec σ ε β}
    (h : Codec rest (fun b => Q b ∧ ¬c b) putR get) :
    Codec rest Q (fun b => failIf (c b) (e b) >>= fun _ => putR b) get := by
  constructor
  · intro b bytes out hb hout
    obtain ⟨hc, hout⟩ := of_failIf_bind_ok hout
    exact h.complete ⟨hb, hc⟩ hout
  · intro s s' b hrun
    obtain ⟨⟨hb, hc⟩, xs, hput, hs⟩ := h.canonical hrun
    refine ⟨hb, xs, fun bytes => ?_, hs⟩
    rw [failIf_bind_run, if_neg hc]
    exact hput bytes
  · exact h.total

/-! ## Values out of raw bytes -/

/-- A value that is stored as another one; `narrow` may refuse it. -/
theorem stored {narrow : α → Exec σ ε β} (hA : Codec rest P putA getA) (hP : ∀ b, Q b → P (f b))
    (hnarrow : ∀ b s, Q b → narrow (f b) s = (.ok b, s))
    (hinv : ∀ {a s s' b}, P a → narrow a s = (.ok b, s') → Q b ∧ f b = a ∧ s' = s)
    (htotal : ∀ a s p, P a → (narrow a s).1 ≠ .panic p) :
    Codec rest Q (fun b => putA (f b)) (getA >>= narrow) := by
  constructor
  · intro b bytes out hb hout
    obtain ⟨xs, hxs, hdecodes⟩ := hA.complete (hP b hb) hout
    refine ⟨xs, hxs, fun s tail hs => ?_⟩
    obtain ⟨s', hrun, hs'⟩ := hdecodes s tail hs
    rw [bind_of_ok hrun, hnarrow b s' hb]
    exact ⟨s', rfl, hs'⟩
  · intro s s' b hrun
    obtain ⟨a, s₁, hget, hrun⟩ := of_bind_ok hrun
    obtain ⟨ha, xs, hput, hs⟩ := hA.canonical hget
    obtain ⟨hb, rfl, rfl⟩ := hinv ha hrun
    exact ⟨hb, xs, hput, hs⟩
  · intro s
    exact not_panic_bind (hA.total s) fun a s' hget p => htotal a s' p (hA.canonical hget).1

/-- A value whose decoder may refuse what is stored. -/
theorem tagged {decode : α → Except ε β} (hA : Codec rest (fun _ => True) putA getA)
    (hdecode : ∀ b, decode (f b) = .ok b) (hencode : ∀ a b, decode a = .ok b → f b = a) :
    Codec rest (fun _ => True) (fun b => putA (f b)) (getA >>= fun a => ofResult (decode a)) := by
  refine stored hA (fun _ _ => trivial) ?_ ?_ ?_
  · intro b s _
    rw [hdecode]
    rfl
  · intro a s s' b _ hrun
    cases hd : decode a with
    | error e =>
      rw [hd] at hrun
      cases hrun
    | ok b' =>
      rw [hd] at hrun
      cases hrun
      exact ⟨trivial, hencode a b hd, rfl⟩
  · intro a s p _
    cases decode a <;> exact fun hpanic => by cases hpanic

/-- A little-endian number of `w` bytes. -/
theorem number {w : Nat} {take : Exec σ ε (List UInt8)} (message : String)
    (h : Codec rest (fun xs => xs.length = w) extendFromSlice take) :
    Codec rest (fun n => n < 256 ^ w) (fun n => extendFromSlice (LittleEndian.toBytes w n))
      (take >>= fun xs =>
        expect (if xs.length = w then some (LittleEndian.ofBytes xs) else none) message) := by
  refine stored h (fun n _ => LittleEndian.length_toBytes w n) ?_ ?_ ?_
  · intro n s hn
    rw [if_pos (LittleEndian.length_toBytes w n), LittleEndian.ofBytes_toBytes hn]
    rfl
  · rintro xs s s' n rfl hrun
    rw [if_pos rfl] at hrun
    cases hrun
    exact ⟨LittleEndian.ofBytes_lt xs, LittleEndian.toBytes_ofBytes xs, rfl⟩
  · intro xs s p hxs
    rw [if_pos hxs]
    exact fun hpanic => by cases hpanic

/-! ## Optional values and lists -/

/-- A flag, and a value where the flag is set. -/
def putOption (putFlag : Bool → Exec (List UInt8) ε Unit) (put : α → Exec (List UInt8) ε Unit)
    (value : Option α) : Exec (List UInt8) ε Unit := do
  putFlag value.isSome
  match value with
  | some value => put value
  | none => pure ()

def getOption (getFlag : Exec σ ε Bool) (get : Exec σ ε α) : Exec σ ε (Option α) := do
  let present ← getFlag
  if present then some <$> get else pure none

theorem option {putFlag : Bool → Exec (List UInt8) ε Unit} {getFlag : Exec σ ε Bool}
    (hflag : Codec rest (fun _ => True) putFlag getFlag) (hA : Codec rest P putA getA) :
    Codec rest (fun o => ∀ a, o = some a → P a) (putOption putFlag putA) (getOption getFlag getA) := by
  refine field (f := Option.isSome) hflag (fun _ _ => trivial) fun present _ => ?_
  cases present with
  | false =>
    constructor
    · rintro o bytes out ⟨-, ho⟩ hout
      obtain rfl : o = none := by simpa using ho
      cases hout
      exact ⟨[], (List.append_nil _).symm, Decodes.of_pure none⟩
    · rintro s s' o hrun
      cases hrun
      refine ⟨⟨fun a ha => (by cases ha), rfl⟩, [], fun bytes => ?_, rfl⟩
      rw [List.append_nil]
      rfl
    · rintro s p hpanic
      cases hpanic
  | true =>
    constructor
    · rintro o bytes out ⟨ho, hsome⟩ hout
      obtain ⟨a, rfl⟩ := Option.isSome_iff_exists.mp hsome
      obtain ⟨xs, hxs, hdecodes⟩ := hA.complete (ho a rfl) hout
      refine ⟨xs, hxs, fun s tail hs => ?_⟩
      obtain ⟨s', hrun, hs'⟩ := hdecodes s tail hs
      refine ⟨s', ?_, hs'⟩
      rw [if_pos rfl, map_run, hrun]
      rfl
    · rintro s s' o hrun
      rw [if_pos rfl, map_run] at hrun
      rcases hget : getA s with ⟨a | e | p, s₁⟩ <;> rw [hget] at hrun <;> cases hrun
      obtain ⟨ha, hxs⟩ := hA.canonical hget
      exact ⟨⟨fun a' ha' => Option.some.inj ha' ▸ ha, rfl⟩, hxs⟩
    · intro s p
      rw [if_pos rfl, map_run]
      rcases hget : getA s with ⟨a | e | q, s₁⟩
      · exact fun hpanic => by cases hpanic
      · exact fun hpanic => by cases hpanic
      · exact fun _ => hA.total s q (by rw [hget])

/-- `get` repeated `n` times. -/
def times (get : Exec σ ε α) : Nat → Exec σ ε (List α)
  | 0 => pure []
  | n + 1 => do
    let a ← get
    let as ← times get n
    return a :: as

/-- `for a in values { put(a) }`. -/
def putAll (put : α → Exec (List UInt8) ε Unit) : List α → Exec (List UInt8) ε Unit
  | [] => pure ()
  | a :: as => do
    put a
    putAll put as

/-- A list whose length is known. -/
theorem list (hA : Codec rest P putA getA) (n : Nat) :
    Codec rest (fun as => (∀ a ∈ as, P a) ∧ as.length = n) (putAll putA) (times getA n) := by
  induction n with
  | zero =>
    have h : Codec rest (fun as => (∀ a ∈ as, P a) ∧ as.length = 0) (fun _ => pure ())
        (pure [] : Exec σ ε (List α)) := by
      apply done
      intro as
      rw [List.length_eq_zero_iff]
      exact ⟨fun has => has.2, fun has => ⟨fun a ha => (by rw [has] at ha; cases ha), has⟩⟩
    refine ⟨fun {as bytes out} has hout => ?_, fun {s s' as} hrun => ?_, h.total⟩
    · obtain rfl := List.length_eq_zero_iff.mp has.2
      exact h.complete has hout
    · obtain ⟨has, hxs⟩ := h.canonical hrun
      obtain rfl := List.length_eq_zero_iff.mp has.2
      exact ⟨has, hxs⟩
  | succ n ih =>
    constructor
    · rintro as bytes out ⟨has, hlen⟩ hout
      cases as with
      | nil => cases hlen
      | cons a as =>
        obtain ⟨_, bytes₁, hput, hout⟩ := of_bind_ok hout
        obtain ⟨xs, rfl, hxs⟩ := hA.complete (has a (List.mem_cons_self ..)) hput
        have htail : (∀ a' ∈ as, P a') ∧ as.length = n :=
          ⟨fun a' ha' => has a' (List.mem_cons_of_mem _ ha'), Nat.succ.inj hlen⟩
        obtain ⟨ys, rfl, hys⟩ := ih.complete htail hout
        refine ⟨xs ++ ys, List.append_assoc .., hxs.bind ?_⟩
        have hcons : Decodes rest (times getA n >>= fun as' => pure (a :: as')) (ys ++ []) (a :: as) :=
          hys.bind (Decodes.of_pure (a :: as))
        rw [List.append_nil] at hcons
        exact hcons
    · intro s s' as hrun
      obtain ⟨a, s₁, hget, hrun⟩ := of_bind_ok hrun
      obtain ⟨as', s₂, htimes, hrun⟩ := of_bind_ok hrun
      cases hrun
      obtain ⟨ha, xs, hput, hs⟩ := hA.canonical hget
      obtain ⟨⟨has, hlen⟩, ys, hputs, hs₁⟩ := ih.canonical htimes
      refine ⟨⟨fun a' ha' => ?_, congrArg Nat.succ hlen⟩, xs ++ ys, hput.bind hputs, ?_⟩
      · rcases List.mem_cons.mp ha' with rfl | ha'
        · exact ha
        · exact has a' ha'
      · rw [hs, hs₁, List.append_assoc]
    · intro s
      refine not_panic_bind (hA.total s) fun a s' _ => ?_
      exact not_panic_bind (ih.total s') fun as s'' _ p hpanic => by cases hpanic

/-! ## Sizes -/

/-- `put` adds no more than `n` bytes. -/
def AppendsWithin (put : Exec (List UInt8) ε Unit) (n : Nat) : Prop :=
  ∃ xs, Appends put xs ∧ xs.length ≤ n

theorem AppendsWithin.mono {put : Exec (List UInt8) ε Unit} {m n : Nat} (h : AppendsWithin put m)
    (hle : m ≤ n) : AppendsWithin put n := by
  obtain ⟨xs, hxs, hm⟩ := h
  exact ⟨xs, hxs, hm.trans hle⟩

theorem within_extend {xs : List UInt8} {n : Nat} (h : xs.length ≤ n) :
    AppendsWithin (extendFromSlice xs : Exec (List UInt8) ε Unit) n := ⟨xs, fun _ => rfl, h⟩

theorem within_bind {put₁ put₂ : Exec (List UInt8) ε Unit} {m n : Nat} (h₁ : AppendsWithin put₁ m)
    (h₂ : AppendsWithin put₂ n) : AppendsWithin (put₁ >>= fun _ => put₂) (m + n) := by
  obtain ⟨xs, hxs, hm⟩ := h₁
  obtain ⟨ys, hys, hn⟩ := h₂
  refine ⟨xs ++ ys, hxs.bind hys, ?_⟩
  rw [List.length_append]
  exact Nat.add_le_add hm hn

theorem within_check {c : Prop} [Decidable c] {e : ε} {put : Exec (List UInt8) ε Unit} {n : Nat}
    (hc : ¬c) (h : AppendsWithin put n) : AppendsWithin (failIf c e >>= fun _ => put) n := by
  obtain ⟨xs, hxs, hn⟩ := h
  refine ⟨xs, fun bytes => ?_, hn⟩
  rw [failIf_bind_run, if_neg hc, hxs]

theorem within_option {putFlag : Bool → Exec (List UInt8) ε Unit}
    {put : α → Exec (List UInt8) ε Unit} {m n : Nat} {value : Option α}
    (hflag : ∀ present, AppendsWithin (putFlag present) m)
    (h : ∀ a, value = some a → AppendsWithin (put a) n) :
    AppendsWithin (putOption putFlag put value) (m + n) := by
  refine within_bind (hflag _) ?_
  cases value with
  | none => exact ⟨[], fun bytes => (by rw [List.append_nil]; rfl), Nat.zero_le _⟩
  | some a => exact h a rfl

theorem within_all {put : α → Exec (List UInt8) ε Unit} {n : Nat} {values : List α}
    (h : ∀ a ∈ values, AppendsWithin (put a) n) : AppendsWithin (putAll put values) (values.length * n) := by
  induction values with
  | nil => exact ⟨[], fun bytes => (by rw [List.append_nil]; rfl), Nat.zero_le _⟩
  | cons a rest ih =>
    rw [List.length_cons, Nat.succ_mul, Nat.add_comm]
    exact within_bind (h a List.mem_cons_self) (ih fun a' ha' => h a' (List.mem_cons_of_mem _ ha'))

end Codec
end Rust
