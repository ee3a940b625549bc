/-
The prediction history as a ledger.

Every prediction recorded and every one answered is an entry.  A history is the totals
of the entries since the last reset, once over all of them and once for each name, each
cut at `u64::MAX`.
-/
import Ramforge.Rust.Grouping
import Ramforge.Rust.Trace
import Ramforge.Runtime.Prediction

namespace Ramforge
namespace PredictionHistory

open Std Rust

inductive Counter where
  | predictions
  | hits
  | misses
  | stagedRequests
  | stagedBytes
  | wastedBytes
deriving DecidableEq, Repr

def total (history : PredictionHistory) : Counter → Nat
  | .predictions => history.totalPredictions
  | .hits => history.hits
  | .misses => history.misses
  | .stagedRequests => history.stagedRequests
  | .stagedBytes => history.stagedBytes
  | .wastedBytes => history.wastedBytes

end PredictionHistory

namespace PredictionFeedbackRecord

open PredictionHistory (Counter)

def counter (record : PredictionFeedbackRecord) : Counter → Nat
  | .predictions => record.predictions
  | .hits => record.hits
  | .misses => record.misses
  | .stagedRequests => record.stagedRequests
  | .stagedBytes => record.stagedBytes
  | .wastedBytes => record.wastedBytes

end PredictionFeedbackRecord

namespace PredictionHistory

open Std Rust Rust.MapSum

/-! ## Entries -/

inductive Entry where
  | predicted (name : String)
  | answered (name : String) (hit : Bool) (staged : Option Nat)

def Entry.name : Entry → String
  | .predicted name => name
  | .answered name _ _ => name

def Entry.amount (c : Counter) : Entry → Nat
  | .predicted _ =>
    match c with
    | .predictions => 1
    | _ => 0
  | .answered _ hit staged =>
    match c with
    | .predictions => 0
    | .hits => if hit then 1 else 0
    | .misses => if hit then 0 else 1
    | .stagedRequests => if staged.isSome then 1 else 0
    | .stagedBytes => staged.getD 0
    | .wastedBytes => if hit then 0 else staged.getD 0

def sumOf (c : Counter) (entries : List Entry) : Nat := (entries.map (Entry.amount c)).sum

def under (name : String) (entries : List Entry) : List Entry :=
  entries.filter fun e => e.name = name

theorem sumOf_concat (c : Counter) (entries : List Entry) (e : Entry) :
    sumOf c (entries ++ [e]) = sumOf c entries + e.amount c := by
  simp [sumOf]

theorem under_concat (name : String) (entries : List Entry) (e : Entry) :
    under name (entries ++ [e]) = under name entries ++ if e.name = name then [e] else [] := by
  rw [under, List.filter_append]
  by_cases h : e.name = name <;> simp [under, h]

theorem sumOf_under_le (c : Counter) (name : String) (entries : List Entry) :
    sumOf c (under name entries) ≤ sumOf c entries :=
  (List.filter_sublist.map _).sum_le_sum fun _ _ => Nat.zero_le _

/-- No entry wastes more than it stages. -/
theorem sumOf_wasted_le (entries : List Entry) :
    sumOf .wastedBytes entries ≤ sumOf .stagedBytes entries := by
  refine List.sum_le_sum fun e _ => ?_
  cases e with
  | predicted name => exact Nat.le_refl 0
  | answered name hit staged =>
    show (if hit then 0 else staged.getD 0) ≤ staged.getD 0
    split
    · exact Nat.zero_le _
    · exact Nat.le_refl _

/-! ## What a history keeps of its entries -/

/-- A counter that has been given `n` in all. -/
def cut (n : Nat) : Nat := min n (u64Bound - 1)

theorem saturatingAdd_cut (n k : Nat) : saturatingAdd (cut n) k = cut (n + k) := by
  simp only [saturatingAdd, cut]
  omega

theorem cut_mono {m n : Nat} (h : m ≤ n) : cut m ≤ cut n := by
  simp only [cut]
  omega

theorem eq_of_cut_lt {n : Nat} (h : cut n < u64Bound - 1) : cut n = n := by
  simp only [cut] at h ⊢
  omega

structure Tallies (entries : List Entry) (history : PredictionHistory) : Prop where
  total : ∀ c, history.total c = cut (sumOf c entries)
  known : ∀ name, history.records[name]?.isSome = true ↔ ∃ e ∈ entries, e.name = name
  counter : ∀ name c, (history.record name).counter c = cut (sumOf c (under name entries))

/-- One entry more, in the totals and in the record of its name. -/
structure Posted (e : Entry) (before after : PredictionHistory) : Prop where
  total : ∀ c, after.total c = saturatingAdd (before.total c) (e.amount c)
  record : ∃ record, after.records = before.records.insert e.name record ∧
    ∀ c, record.counter c = saturatingAdd ((before.record e.name).counter c) (e.amount c)

variable {entries : List Entry} {e : Entry} {history before after : PredictionHistory}

theorem Tallies.start (identity : ProfileIdentity) : Tallies [] (new identity) where
  total c := by cases c <;> rfl
  known name := by simp [new]
  counter name c := by
    have hnone : (new identity).record name = {} := by simp [record, new]
    rw [hnone]
    cases c <;> rfl

theorem Tallies.reset (history : PredictionHistory) : Tallies [] history.reset where
  total c := by cases c <;> rfl
  known name := by simp [PredictionHistory.reset]
  counter name c := by
    have hnone : history.reset.record name = {} := by simp [record, PredictionHistory.reset]
    rw [hnone]
    cases c <;> rfl

/-- The step lemma: a posted entry joins the ledger. -/
theorem Tallies.post (h : Tallies entries before) (hpost : Posted e before after) :
    Tallies (entries ++ [e]) after := by
  obtain ⟨record, hrecords, hrecord⟩ := hpost.record
  have hget : ∀ name, after.records[name]? =
      if name = e.name then some record else before.records[name]? := by
    intro name
    rw [hrecords, getElem?_insert']
  refine ⟨fun c => ?_, fun name => ?_, fun name c => ?_⟩
  · rw [hpost.total, h.total, saturatingAdd_cut, sumOf_concat]
  · rw [hget]
    by_cases hname : name = e.name
    · rw [if_pos hname]
      exact ⟨fun _ => ⟨e, by simp, hname.symm⟩, fun _ => rfl⟩
    · rw [if_neg hname, h.known]
      simp only [List.mem_append, List.mem_singleton, or_and_right, exists_or, exists_eq_left]
      exact ⟨.inl, fun hor => hor.resolve_right fun he => hname he.symm⟩
  · rw [PredictionHistory.record, hget, under_concat]
    by_cases hname : name = e.name
    · subst hname
      rw [if_pos rfl, if_pos rfl, sumOf_concat, Option.getD_some, hrecord, h.counter,
        saturatingAdd_cut]
    · rw [if_neg hname, if_neg (Ne.symm hname), List.append_nil, ← h.counter]
      rfl

/-! ## The rounds of the two loops -/

theorem saturatingAdd_zero_of_cut {n k : Nat} (h : n = cut k) : saturatingAdd n 0 = n := by
  rw [h, saturatingAdd_cut, Nat.add_zero]

theorem Tallies.posted_predicted (h : Tallies entries history) (prediction : PredictedAccess) :
    Posted (.predicted prediction.name) history (history.recordPrediction prediction) where
  total c := by
    have hsame := (saturatingAdd_zero_of_cut (h.total c)).symm
    cases c with
    | predictions => rfl
    | _ => exact hsame
  record := by
    refine ⟨_, rfl, fun c => ?_⟩
    have hsame := (saturatingAdd_zero_of_cut (h.counter prediction.name c)).symm
    cases c with
    | predictions => rfl
    | _ => exact hsame

def answerOf (observed : ExecutionProfile) (stagedBytes : ExtTreeMap String Nat compare)
    (prediction : PredictedAccess) : Entry :=
  .answered prediction.name (observed.access.contains prediction.name) stagedBytes[prediction.name]?

/-- A counter that the round skips is given 0. -/
theorem Tallies.posted_answered (h : Tallies entries history) (observed : ExecutionProfile)
    (stagedBytes : ExtTreeMap String Nat compare) (prediction : PredictedAccess) :
    Posted (answerOf observed stagedBytes prediction) history
      (history.recordAnswer observed stagedBytes prediction) := by
  rw [answerOf, recordAnswer]
  cases stagedBytes[prediction.name]? <;> cases observed.access.contains prediction.name <;>
  · refine ⟨fun c => ?_, _, rfl, fun c => ?_⟩
    · have hsame := (saturatingAdd_zero_of_cut (h.total c)).symm
      cases c <;> first | rfl | exact hsame
    · have hsame := (saturatingAdd_zero_of_cut (h.counter prediction.name c)).symm
      cases c <;> first | rfl | exact hsame

theorem Tallies.foldl {round : PredictionHistory → PredictedAccess → PredictionHistory}
    {entryOf : PredictedAccess → Entry}
    (hround : ∀ {entries history}, Tallies entries history → ∀ prediction,
      Posted (entryOf prediction) history (round history prediction))
    (h : Tallies entries history) (predictions : List PredictedAccess) :
    Tallies (entries ++ predictions.map entryOf) (predictions.foldl round history) := by
  induction predictions generalizing entries history with
  | nil =>
    rw [List.map_nil, List.append_nil]
    exact h
  | cons prediction rest ih =>
    rw [List.map_cons, List.append_cons]
    exact ih (h.post (hround h prediction))

/-! ## Runs -/

inductive Call where
  | recordPredictions (predictions : PredictionSet)
  | recordFeedback (predictions : PredictionSet) (observed : ExecutionProfile)
      (stagedBytes : ExtTreeMap String Nat compare)
  | reset

def call (history : PredictionHistory) : Call → PredictionHistory
  | .recordPredictions predictions => history.recordPredictions predictions
  | .recordFeedback predictions observed stagedBytes =>
    history.recordFeedback predictions observed stagedBytes
  | .reset => history.reset

def run (identity : ProfileIdentity) (calls : List Call) : PredictionHistory :=
  calls.foldl call (new identity)

def isReset : Call → Bool
  | .reset => true
  | _ => false

def Call.posts : Call → List Entry
  | .recordPredictions predictions =>
    predictions.predictions.map fun prediction => .predicted prediction.name
  | .recordFeedback predictions observed stagedBytes =>
    predictions.predictions.map (answerOf observed stagedBytes)
  | .reset => []

/-- The entries since the last reset. -/
def ledger (calls : List Call) : List Entry := (Trace.since isReset calls).flatMap Call.posts

theorem tallies_run (identity : ProfileIdentity) (calls : List Call) :
    Tallies (ledger calls) (run identity calls) := by
  induction calls using List.reverseRecOn with
  | nil =>
    rw [ledger, Trace.since_nil]
    exact .start identity
  | append_singleton calls last ih =>
    rw [run, List.foldl_concat, ledger]
    cases last with
    | recordPredictions predictions =>
      rw [Trace.since_concat_of_neg rfl, List.flatMap_append, List.flatMap_singleton]
      exact ih.foldl Tallies.posted_predicted predictions.predictions
    | recordFeedback predictions observed stagedBytes =>
      rw [Trace.since_concat_of_neg rfl, List.flatMap_append, List.flatMap_singleton]
      exact ih.foldl (fun h => h.posted_answered observed stagedBytes) predictions.predictions
    | reset =>
      rw [Trace.since_concat_of_pos rfl]
      exact .reset _

/-! ## The totals of a run -/

/-- A total that stays below `u64::MAX` is the sum over the records. -/
theorem Tallies.sumOver_counter {c : Counter} (h : Tallies entries history)
    (hmax : history.total c < u64Bound - 1) :
    sumOver (fun _ record => record.counter c) history.records = history.total c := by
  rw [h.total] at hmax
  have hexact := eq_of_cut_lt hmax
  have hrecord : ∀ name record, history.records[name]? = some record →
      record.counter c = sumOf c (under name entries) := by
    intro name record hget
    have hcounter := h.counter name c
    rw [PredictionHistory.record, hget, Option.getD_some] at hcounter
    have hle := sumOf_under_le c name entries
    rw [hcounter]
    simp only [cut] at hmax ⊢
    omega
  rw [Grouping.sumOver_congr hrecord, h.total, hexact]
  exact Grouping.sumOver_totals Entry.name (Entry.amount c) fun e he => (h.known _).mpr ⟨e, he, rfl⟩

theorem Tallies.wasted_le (h : Tallies entries history) :
    history.wastedBytes ≤ history.stagedBytes := by
  have hwasted : history.wastedBytes = _ := h.total .wastedBytes
  have hstaged : history.stagedBytes = _ := h.total .stagedBytes
  rw [hwasted, hstaged]
  exact cut_mono (sumOf_wasted_le entries)

theorem Tallies.record_wasted_le (h : Tallies entries history) (name : String) :
    (history.record name).wastedBytes ≤ (history.record name).stagedBytes := by
  have hwasted : (history.record name).wastedBytes = _ := h.counter name .wastedBytes
  have hstaged : (history.record name).stagedBytes = _ := h.counter name .stagedBytes
  rw [hwasted, hstaged]
  exact cut_mono (sumOf_wasted_le _)

/-! ## How often a tensor was predicted and answered -/

def Entry.predictedName : Entry → Option String
  | .predicted name => some name
  | .answered .. => none

def Entry.answeredName : Entry → Option String
  | .predicted _ => none
  | .answered name _ _ => some name

theorem sumOf_predictions (name : String) (entries : List Entry) :
    sumOf .predictions (under name entries) = (entries.filterMap Entry.predictedName).count name := by
  induction entries with
  | nil => rfl
  | cons e rest ih =>
    have hcons : sumOf .predictions (under name (e :: rest)) =
        (if e.name = name then e.amount .predictions else 0) +
          sumOf .predictions (under name rest) := by
      by_cases hname : e.name = name <;> simp [sumOf, under, hname]
    rw [hcons, ih]
    cases e with
    | predicted other =>
      have hnames : ((Entry.predicted other :: rest).filterMap Entry.predictedName) =
          other :: rest.filterMap Entry.predictedName := rfl
      rw [hnames, List.count_cons, Nat.add_comm]
      by_cases hname : other = name <;> simp [Entry.name, Entry.amount, hname]
    | answered other hit staged =>
      have hnames : ((Entry.answered other hit staged :: rest).filterMap Entry.predictedName) =
          rest.filterMap Entry.predictedName := rfl
      rw [hnames]
      simp [Entry.amount]

/-- Each answer is a hit or a miss. -/
theorem sumOf_hits_misses (name : String) (entries : List Entry) :
    sumOf .hits (under name entries) + sumOf .misses (under name entries) =
      (entries.filterMap Entry.answeredName).count name := by
  induction entries with
  | nil => rfl
  | cons e rest ih =>
    have hcons : ∀ c, sumOf c (under name (e :: rest)) =
        (if e.name = name then e.amount c else 0) + sumOf c (under name rest) := by
      intro c
      by_cases hname : e.name = name <;> simp [sumOf, under, hname]
    rw [hcons, hcons]
    cases e with
    | predicted other =>
      have hnames : ((Entry.predicted other :: rest).filterMap Entry.answeredName) =
          rest.filterMap Entry.answeredName := rfl
      rw [hnames, ← ih]
      simp [Entry.amount]
    | answered other hit staged =>
      have hnames : ((Entry.answered other hit staged :: rest).filterMap Entry.answeredName) =
          other :: rest.filterMap Entry.answeredName := rfl
      rw [hnames, List.count_cons, ← ih]
      by_cases hname : other = name
      · cases hit <;> simp [Entry.name, Entry.amount, hname] <;> omega
      · simp [Entry.name, hname]

def Call.recorded : Call → List String
  | .recordPredictions predictions => predictions.predictions.map PredictedAccess.name
  | _ => []

def Call.answered : Call → List String
  | .recordFeedback predictions _ _ => predictions.predictions.map PredictedAccess.name
  | _ => []

/-- How often the sets recorded since the last reset list a tensor. -/
def timesRecorded (calls : List Call) (name : String) : Nat :=
  ((Trace.since isReset calls).flatMap Call.recorded).count name

/-- How often the sets given to feedback since the last reset list it. -/
def timesAnswered (calls : List Call) (name : String) : Nat :=
  ((Trace.since isReset calls).flatMap Call.answered).count name

theorem filterMap_posts_recorded (c : Call) :
    c.posts.filterMap Entry.predictedName = c.recorded := by
  cases c with
  | recordPredictions predictions =>
    simp [Call.posts, Call.recorded, List.filterMap_map, Function.comp_def, Entry.predictedName]
  | recordFeedback predictions observed stagedBytes =>
    simp [Call.posts, Call.recorded, List.filterMap_map, Function.comp_def, Entry.predictedName,
      answerOf]
  | reset => rfl

theorem filterMap_posts_answered (c : Call) :
    c.posts.filterMap Entry.answeredName = c.answered := by
  cases c with
  | recordPredictions predictions =>
    simp [Call.posts, Call.answered, List.filterMap_map, Function.comp_def, Entry.answeredName]
  | recordFeedback predictions observed stagedBytes =>
    simp [Call.posts, Call.answered, List.filterMap_map, Function.comp_def, Entry.answeredName,
      answerOf]
  | reset => rfl

theorem timesRecorded_eq (calls : List Call) (name : String) :
    timesRecorded calls name = sumOf .predictions (under name (ledger calls)) := by
  rw [sumOf_predictions, ledger, List.filterMap_flatMap, timesRecorded]
  simp only [filterMap_posts_recorded]

theorem timesAnswered_eq (calls : List Call) (name : String) :
    timesAnswered calls name =
      sumOf .hits (under name (ledger calls)) + sumOf .misses (under name (ledger calls)) := by
  rw [sumOf_hits_misses, ledger, List.filterMap_flatMap, timesAnswered]
  simp only [filterMap_posts_answered]

/-- The aggregates of a run whose totals stay below `u64::MAX`: each total is the sum over
the records, nothing is wasted that was not staged, and a tensor's predictions and answers
are counted as often as the sets since the last reset list it. -/
theorem run_aggregates (identity : ProfileIdentity) (calls : List Call)
    (hmax : ∀ c, (run identity calls).total c < u64Bound - 1) :
    (∀ c, (run identity calls).total c =
        sumOver (fun _ record => record.counter c) (run identity calls).records) ∧
      (run identity calls).wastedBytes ≤ (run identity calls).stagedBytes ∧
      (∀ name, ((run identity calls).record name).wastedBytes ≤
        ((run identity calls).record name).stagedBytes) ∧
      ∀ name, ((run identity calls).record name).predictions = timesRecorded calls name ∧
        ((run identity calls).record name).hits + ((run identity calls).record name).misses =
          timesAnswered calls name := by
  have h := tallies_run identity calls
  have hexact : ∀ name c, ((run identity calls).record name).counter c =
      sumOf c (under name (ledger calls)) := by
    intro name c
    have hle := sumOf_under_le c name (ledger calls)
    have hc := hmax c
    rw [h.total] at hc
    rw [h.counter]
    simp only [cut] at hc ⊢
    omega
  refine ⟨fun c => (h.sumOver_counter (hmax c)).symm, h.wasted_le, h.record_wasted_le,
    fun name => ⟨?_, ?_⟩⟩
  · rw [timesRecorded_eq]
    exact hexact name .predictions
  · rw [timesAnswered_eq, ← hexact, ← hexact]
    rfl

/-! ## A run -/

def samplePrediction : PredictedAccess where
  key := ⟨1, 0⟩
  name := "blk.0.attn_q.weight"
  predictedOrder := 0
  expectedDistance := 0
  confidenceBps := 9000
  confidence := .high
  sizeBytes := 4096
  knownSize := true
  reason := "profile order 0"

def sampleSet : PredictionSet :=
  { PredictionSet.empty ⟨"m"⟩ ⟨1⟩ "" with predictions := [samplePrediction] }

def sampleIdentity : ProfileIdentity where
  modelPath := "model.gguf"
  modelSizeBytes := 1024
  modelModifiedUnixNs := none
  inventoryGeneration := 1
  nativeContractVersion := 1

/-- Two recorded sets, one of which gets its feedback. -/
def sampleCalls : List Call :=
  [.recordPredictions sampleSet, .recordPredictions sampleSet,
    .recordFeedback sampleSet (ExecutionProfile.new ⟨"m"⟩ ⟨1⟩) ∅]

theorem run_aggregates_sample :
    (∀ c, (run sampleIdentity sampleCalls).total c < u64Bound - 1) ∧
      ((run sampleIdentity sampleCalls).record "blk.0.attn_q.weight").hits +
        ((run sampleIdentity sampleCalls).record "blk.0.attn_q.weight").misses = 1 := by
  have hmax : ∀ c, (run sampleIdentity sampleCalls).total c < u64Bound - 1 := by
    intro c
    cases c <;> decide +kernel
  refine ⟨hmax, ?_⟩
  rw [((run_aggregates sampleIdentity sampleCalls hmax).2.2.2 "blk.0.attn_q.weight").2]
  decide +kernel

/-- Every feedback follows a recording of its set, somewhere before it. -/
def FeedbackRecorded (calls : List Call) : Prop :=
  ∀ past predictions observed stagedBytes future,
    calls = past ++ .recordFeedback predictions observed stagedBytes :: future →
      .recordPredictions predictions ∈ past

/-- A set that is recorded twice and answered once. -/
theorem recorded_twice : FeedbackRecorded sampleCalls ∧
    ((run sampleIdentity sampleCalls).record "blk.0.attn_q.weight").hits +
        ((run sampleIdentity sampleCalls).record "blk.0.attn_q.weight").misses ≠
      ((run sampleIdentity sampleCalls).record "blk.0.attn_q.weight").predictions := by
  refine ⟨fun past predictions observed stagedBytes future hsplit => ?_, by decide +kernel⟩
  rcases past with _ | ⟨first, _ | ⟨second, _ | ⟨third, rest⟩⟩⟩
  · cases (List.cons.inj hsplit).1
  · cases (List.cons.inj (List.cons.inj hsplit).2).1
  · obtain ⟨hfirst, hrest⟩ := List.cons.inj hsplit
    obtain ⟨-, hrest⟩ := List.cons.inj hrest
    obtain ⟨hlast, -⟩ := List.cons.inj hrest
    cases hlast
    rw [← hfirst]
    exact List.mem_cons_self
  · have hlength := congrArg List.length hsplit
    simp only [sampleCalls, List.length_cons, List.length_append, List.length_nil] at hlength
    omega

end PredictionHistory
end Ramforge
