/-
Whole runs on a budget: any sequence of calls, with `with_temp` closures nested
to any depth.

A closure's calls are listed in the order in which it makes them, and it may
then return, fail or panic whatever those calls answered.  A closure that
decides as it goes makes, in any one run, one such list.
-/
import Ramforge.Core.MemoryStep
import Ramforge.Rust.Text

namespace Ramforge

open Rust Rust.Exec

/-- A call of a client of the budget.  `other` is a call on what the client keeps
beside the budget. -/
inductive Call (ι : Type) where
  | other (i : ι)
  | allocate (name : String) (bytes : Nat)
  | reserve (name : String) (bytes : Nat)
  | release (name : String)
  | resize (name : String) (newBytes : Nat)
  | commitResize (target reservation : String) (finalBytes : Nat)
  | renamePrefix (oldPrefix newPrefix : String)
  | withTemp (name : String) (bytes : Nat) (body : List (Call ι)) (finish : Outcome String Unit)

namespace Call

variable {ι κ : Type} (other : ι → Exec (κ × MemoryBudget) String Unit)

/-- A budget method called by the client, its result dropped. -/
def onBudget {α : Type} (m : Exec MemoryBudget MemoryError α) :
    Exec (κ × MemoryBudget) String Unit :=
  mapErr MemoryError.display (onSnd (do let _ ← m; pure ()))

mutual
def run : Call ι → Exec (κ × MemoryBudget) String Unit
  | .other i => other i
  | .allocate name bytes => onBudget (MemoryBudget.allocate name bytes)
  | .reserve name bytes => onBudget (MemoryBudget.reserve name bytes)
  | .release name => onBudget (MemoryBudget.release name)
  | .resize name newBytes => onBudget (MemoryBudget.resize name newBytes)
  | .commitResize target reservation finalBytes =>
    onBudget (MemoryBudget.commitResize target reservation finalBytes)
  | .renamePrefix oldPrefix newPrefix => onBudget (MemoryBudget.renamePrefix oldPrefix newPrefix)
  | .withTemp name bytes body finish =>
    MemoryBudget.withTemp MemoryError.display name bytes do
      runAll body
      resume finish

/-- The client carries on after each call, whatever it answered. -/
def runAll : List (Call ι) → Exec (κ × MemoryBudget) String Unit
  | [] => pure ()
  | c :: rest => do
    let _ ← (catchUnwind (run c) : Exec (κ × MemoryBudget) String (Outcome String Unit))
    runAll rest
end

/-- The state once the charge of a temporary scope has been tried. -/
def entered (name : String) (bytes : Nat) (s : κ × MemoryBudget) : κ × MemoryBudget :=
  (s.1, (MemoryBudget.allocate name bytes s.2).2)

/-- The state once the charge of a temporary scope has been released. -/
def left (name : String) (s : κ × MemoryBudget) : κ × MemoryBudget :=
  (s.1, (MemoryBudget.release name s.2).2)

mutual
/-- The states a call goes through, the last one included, the first one not. -/
def visited : Call ι → κ × MemoryBudget → List (κ × MemoryBudget)
  | .withTemp name bytes body finish, s =>
    if bytes = 0 then visitedAll body s
    else
      match (MemoryBudget.allocate name bytes s.2).1 with
      | .ok _ =>
        entered name bytes s :: (visitedAll body (entered name bytes s) ++
          [(run other (.withTemp name bytes body finish) s).2])
      | _ => [entered name bytes s]
  | .other i, s => [(run other (.other i) s).2]
  | .allocate name bytes, s => [(run other (.allocate name bytes) s).2]
  | .reserve name bytes, s => [(run other (.reserve name bytes) s).2]
  | .release name, s => [(run other (.release name) s).2]
  | .resize name newBytes, s => [(run other (.resize name newBytes) s).2]
  | .commitResize target reservation finalBytes, s =>
    [(run other (.commitResize target reservation finalBytes) s).2]
  | .renamePrefix oldPrefix newPrefix, s =>
    [(run other (.renamePrefix oldPrefix newPrefix) s).2]

def visitedAll : List (Call ι) → κ × MemoryBudget → List (κ × MemoryBudget)
  | [], _ => []
  | c :: rest, s => visited c s ++ visitedAll rest (run other c s).2
end

mutual
/-- `P` holds of every call made, in the state it is made in.  The charge and the
release of each temporary scope are calls too. -/
def Each (P : Call ι → κ × MemoryBudget → Prop) : Call ι → κ × MemoryBudget → Prop
  | .withTemp name bytes body _, s =>
    if bytes = 0 then EachOf P body s
    else
      P (.allocate name bytes) s ∧
        ((MemoryBudget.allocate name bytes s.2).1 = .ok () →
          EachOf P body (entered name bytes s) ∧
            P (.release name) (runAll other body (entered name bytes s)).2)
  | .other i, s => P (.other i) s
  | .allocate name bytes, s => P (.allocate name bytes) s
  | .reserve name bytes, s => P (.reserve name bytes) s
  | .release name, s => P (.release name) s
  | .resize name newBytes, s => P (.resize name newBytes) s
  | .commitResize target reservation finalBytes, s =>
    P (.commitResize target reservation finalBytes) s
  | .renamePrefix oldPrefix newPrefix, s => P (.renamePrefix oldPrefix newPrefix) s

def EachOf (P : Call ι → κ × MemoryBudget → Prop) : List (Call ι) → κ × MemoryBudget → Prop
  | [], _ => True
  | c :: rest, s => Each P c s ∧ EachOf P rest (run other c s).2
end

mutual
def decidableEach (P : Call ι → κ × MemoryBudget → Prop) [∀ c s, Decidable (P c s)] :
    (c : Call ι) → (s : κ × MemoryBudget) → Decidable (Each other P c s)
  | .withTemp name bytes body _, s =>
    have := decidableEachOf P body s
    have := decidableEachOf P body (entered name bytes s)
    inferInstanceAs (Decidable (if bytes = 0 then EachOf other P body s else _ ∧ (_ → _ ∧ _)))
  | .other i, s => inferInstanceAs (Decidable (P (.other i) s))
  | .allocate name bytes, s => inferInstanceAs (Decidable (P (.allocate name bytes) s))
  | .reserve name bytes, s => inferInstanceAs (Decidable (P (.reserve name bytes) s))
  | .release name, s => inferInstanceAs (Decidable (P (.release name) s))
  | .resize name newBytes, s => inferInstanceAs (Decidable (P (.resize name newBytes) s))
  | .commitResize target reservation finalBytes, s =>
    inferInstanceAs (Decidable (P (.commitResize target reservation finalBytes) s))
  | .renamePrefix oldPrefix newPrefix, s =>
    inferInstanceAs (Decidable (P (.renamePrefix oldPrefix newPrefix) s))

def decidableEachOf (P : Call ι → κ × MemoryBudget → Prop) [∀ c s, Decidable (P c s)] :
    (l : List (Call ι)) → (s : κ × MemoryBudget) → Decidable (EachOf other P l s)
  | [], _ => .isTrue trivial
  | c :: rest, s =>
    have := decidableEach P c s
    have := decidableEachOf P rest (run other c s).2
    inferInstanceAs (Decidable (_ ∧ _))
end

instance (P : Call ι → κ × MemoryBudget → Prop) [∀ c s, Decidable (P c s)] (l : List (Call ι))
    (s : κ × MemoryBudget) : Decidable (EachOf other P l s) := decidableEachOf other P l s

def IsPrimitive : Call ι → Prop
  | .withTemp .. => False
  | _ => True

/-- One call that is not itself a scope. -/
inductive Atom (P : Call ι → κ × MemoryBudget → Prop) (s : κ × MemoryBudget) :
    κ × MemoryBudget → Prop where
  | mk (c : Call ι) (hp : P c s) (hc : c.IsPrimitive) : Atom P s (run other c s).2

variable {P : Call ι → κ × MemoryBudget → Prop}

theorem Atom.of_eq {s t : κ × MemoryBudget} (c : Call ι) (hp : P c s)
    (hc : c.IsPrimitive) (ht : (run other c s).2 = t) : Atom other P s t := ht ▸ .mk c hp hc

theorem onBudget_snd {α : Type} (m : Exec MemoryBudget MemoryError α) (s : κ × MemoryBudget) :
    (onBudget m s).2 = (s.1, (m s.2).2) := by
  rw [onBudget, mapErr_run, onSnd_run, bind_run]
  rcases m s.2 with ⟨_ | _ | _, _⟩ <;> rfl

theorem runAll_cons_snd (c : Call ι) (rest : List (Call ι)) (s : κ × MemoryBudget) :
    (runAll other (c :: rest) s).2 = (runAll other rest (run other c s).2).2 := by
  rw [runAll]
  rfl

theorem runAll_fst (l : List (Call ι)) (s : κ × MemoryBudget) :
    (runAll other l s).1 = .ok () := by
  induction l generalizing s with
  | nil => rw [runAll]; rfl
  | cons c rest ih => rw [runAll]; exact ih _

/-- Whatever its closure returns, a scope leaves the budget as its closure does,
less its own charge. -/
theorem withTemp_snd {ε α : Type} (ofMemory : MemoryError → ε) (name : String) {bytes : Nat}
    (hb : bytes ≠ 0) (f : Exec (κ × MemoryBudget) ε α) (s : κ × MemoryBudget) :
    (MemoryBudget.withTemp ofMemory name bytes f s).2 =
      match (MemoryBudget.allocate name bytes s.2).1 with
      | .ok _ => left name (f (entered name bytes s)).2
      | _ => entered name bytes s := by
  rw [MemoryBudget.withTemp, if_neg hb, bind_run, mapErr_run, onSnd_run, entered]
  cases MemoryBudget.allocate name bytes s.2 with
  | mk o b₁ =>
    cases o with
    | ok _ =>
      simp only [Outcome.mapErr_ok, bind_run, catchUnwind_run, attempt, onSnd_run, left]
      cases (f (s.1, b₁)).1 <;>
        rcases MemoryBudget.release name (f (s.1, b₁)).2.2 with ⟨_ | _ | _, _⟩ <;> rfl
    | err _ => rfl
    | panic _ => rfl

theorem withTemp_zero {ε α : Type} (ofMemory : MemoryError → ε) (name : String)
    (f : Exec (κ × MemoryBudget) ε α) :
    MemoryBudget.withTemp ofMemory name 0 f = f := by
  rw [MemoryBudget.withTemp, if_pos rfl]

theorem runAll_resume_snd (l : List (Call ι)) (finish : Outcome String Unit)
    (s : κ × MemoryBudget) :
    ((do runAll other l; resume finish : Exec (κ × MemoryBudget) String Unit) s).2 =
      (runAll other l s).2 := by
  have h := runAll_fst other l s
  rw [bind_run]
  rcases hr : runAll other l s with ⟨o, s'⟩
  rw [hr] at h
  obtain rfl : o = .ok () := h
  rfl

mutual
/-- A call is a path of primitive calls through the states it visits. -/
theorem run_path (c : Call ι) (s : κ × MemoryBudget) (h : Each other P c s) :
    Path (Atom other P) s (visited other c s) (run other c s).2 := by
  cases c with
  | withTemp name bytes body finish =>
    rw [visited]
    rw [Each] at h
    by_cases hb : bytes = 0
    · subst hb
      rw [if_pos rfl] at h
      rw [if_pos rfl, run, withTemp_zero, runAll_resume_snd]
      exact runAll_path body s h
    · rw [if_neg hb] at h
      obtain ⟨ha, hin⟩ := h
      rw [if_neg hb]
      have henter : Atom other P s (entered name bytes s) :=
        .of_eq other (.allocate name bytes) ha trivial (onBudget_snd _ s)
      have hend := withTemp_snd MemoryError.display name hb
        (do runAll other body; resume finish) s
      rw [← run] at hend
      cases hal : (MemoryBudget.allocate name bytes s.2).1 with
      | ok _ =>
        rw [hal] at hend
        obtain ⟨hbody, hr⟩ := hin hal
        simp only [runAll_resume_snd] at hend
        have hleave : Atom other P (runAll other body (entered name bytes s)).2
            (run other (.withTemp name bytes body finish) s).2 :=
          .of_eq other (.release name) hr trivial ((onBudget_snd _ _).trans hend.symm)
        exact .cons henter ((runAll_path body _ hbody).append (.single hleave))
      | err _ => rw [hal] at hend; rw [hend]; exact .single henter
      | panic _ => rw [hal] at hend; rw [hend]; exact .single henter
  | other i => exact .single (.mk (.other i) h trivial)
  | allocate name bytes => exact .single (.mk (.allocate name bytes) h trivial)
  | reserve name bytes => exact .single (.mk (.reserve name bytes) h trivial)
  | release name => exact .single (.mk (.release name) h trivial)
  | resize name newBytes => exact .single (.mk (.resize name newBytes) h trivial)
  | commitResize target reservation finalBytes =>
    exact .single (.mk (.commitResize target reservation finalBytes) h trivial)
  | renamePrefix oldPrefix newPrefix =>
    exact .single (.mk (.renamePrefix oldPrefix newPrefix) h trivial)

theorem runAll_path (l : List (Call ι)) (s : κ × MemoryBudget) (h : EachOf other P l s) :
    Path (Atom other P) s (visitedAll other l s) (runAll other l s).2 := by
  cases l with
  | nil => rw [visitedAll, runAll]; exact .nil s
  | cons c rest =>
    rw [visitedAll, runAll_cons_snd]
    exact (run_path c s h.1).append (runAll_path rest _ h.2)
end

mutual
theorem each_true (c : Call ι) (s : κ × MemoryBudget) : Each other (fun _ _ => True) c s := by
  cases c with
  | withTemp name bytes body finish =>
    rw [Each]
    by_cases hb : bytes = 0
    · rw [if_pos hb]
      exact eachOf_true body s
    · rw [if_neg hb]
      exact ⟨trivial, fun _ => ⟨eachOf_true body _, trivial⟩⟩
  | _ => trivial

theorem eachOf_true (l : List (Call ι)) (s : κ × MemoryBudget) :
    EachOf other (fun _ _ => True) l s := by
  cases l with
  | nil => trivial
  | cons c rest => exact ⟨each_true c s, eachOf_true rest _⟩
end

/-- On the budget, a primitive budget call is one change of the ledger. -/
theorem Atom.step {s t : κ × MemoryBudget} (h : Atom other P s t) (hs : s.2.Accounted) :
    (∃ i, P (.other i) s ∧ t = (other i s).2) ∨ (t.1 = s.1 ∧ MemoryBudget.Step s.2 t.2) := by
  obtain ⟨c, hp, hc⟩ := h
  cases c with
  | other i => exact .inl ⟨i, hp, by rw [run]⟩
  | allocate name bytes =>
    rw [run, onBudget_snd]; exact .inr ⟨rfl, MemoryBudget.allocate_step hs _ _⟩
  | reserve name bytes =>
    rw [run, onBudget_snd]; exact .inr ⟨rfl, MemoryBudget.allocate_step hs _ _⟩
  | release name =>
    rw [run, onBudget_snd]; exact .inr ⟨rfl, MemoryBudget.release_step hs _⟩
  | resize name newBytes =>
    rw [run, onBudget_snd]; exact .inr ⟨rfl, MemoryBudget.resize_step hs _ _⟩
  | commitResize target reservation finalBytes =>
    rw [run, onBudget_snd]; exact .inr ⟨rfl, MemoryBudget.commitResize_step hs _ _ _⟩
  | renamePrefix oldPrefix newPrefix =>
    rw [run, onBudget_snd]; exact .inr ⟨rfl, MemoryBudget.renamePrefix_step _ _ _⟩
  | withTemp name bytes body finish => cases hc

end Call
end Ramforge
