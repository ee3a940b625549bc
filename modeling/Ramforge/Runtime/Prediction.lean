/-
Predictive residency support: the settings, a set of predictions, and the history
of how predictions turned out.

Counters saturate at `u64::MAX`.
-/
import Ramforge.Rust.Checked
import Ramforge.Runtime.ExecutionProfile

namespace Ramforge

open Std Rust

inductive PredictionConfidence where
  | high
  | medium
  | low
deriving DecidableEq, Repr

inductive PredictionSource where
  | profile
  | none
deriving DecidableEq, Repr

structure PredictionConfig where
  enabled : Bool
  minConfidenceBps : Nat
  stagingWindowBytes : Nat
  speculativeBudgetBytes : Nat
  maxInFlight : Nat
  lookahead : Nat
deriving DecidableEq, Repr

inductive PredictionError where
  | invalidConfig (message : String)
  | io (message : String)
  | json (message : String)
  | tooLarge (bytes limit : Nat)
  | schema (version : Nat)
  | kind (kind : String)
  | identity (message : String)
  | tooManyRecords (records : Nat)
  | incomplete
deriving DecidableEq, Repr

namespace PredictionConfig

def default : PredictionConfig where
  enabled := false
  minConfidenceBps := 6000
  stagingWindowBytes := 64 * 1024 * 1024
  speculativeBudgetBytes := 16 * 1024 * 1024
  maxInFlight := 1
  lookahead := 64

def validate (config : PredictionConfig) : Except PredictionError Unit := do
  if !config.enabled then
    return ()
  if 10000 < config.minConfidenceBps then
    throw (.invalidConfig "min confidence must be between 0 and 10000 basis points")
  if config.stagingWindowBytes = 0 then
    throw (.invalidConfig "staging window must be greater than zero")
  if config.stagingWindowBytes < config.speculativeBudgetBytes then
    throw (.invalidConfig "speculative budget cannot exceed the staging window")
  if config.maxInFlight = 0 ∨ 16 < config.maxInFlight then
    throw (.invalidConfig "max in-flight must be between 1 and 16")
  if config.lookahead = 0 ∨ 4096 < config.lookahead then
    throw (.invalidConfig "lookahead must be between 1 and 4096")
  return ()

/-- The default passes its own check, also when it is switched on. -/
theorem validate_default (enabled : Bool) :
    ({ default with enabled } : PredictionConfig).validate = .ok () := by
  cases enabled <;> rfl

end PredictionConfig

structure PredictedAccess where
  key : ResourceKey
  name : String
  predictedOrder : Nat
  expectedDistance : Nat
  confidenceBps : Nat
  confidence : PredictionConfidence
  sizeBytes : Nat
  knownSize : Bool
  reason : String
deriving DecidableEq, Repr

structure PredictionSet where
  modelId : ModelId
  generation : ModelGeneration
  source : PredictionSource
  profileVersion : Option Nat
  completeObservations : Nat
  predictions : List PredictedAccess
  rejected : ExtTreeMap String Nat compare
  highConfidence : Nat
  mediumConfidence : Nat
  lowConfidence : Nat
  historyValid : Bool
  warnings : List String

def PredictionSet.empty (modelId : ModelId) (generation : ModelGeneration) (reason : String) :
    PredictionSet where
  modelId := modelId
  generation := generation
  source := .none
  profileVersion := none
  completeObservations := 0
  predictions := []
  rejected := (∅ : ExtTreeMap String Nat compare).insert reason 1
  highConfidence := 0
  mediumConfidence := 0
  lowConfidence := 0
  historyValid := false
  warnings := []

structure ProfileIdentity where
  modelPath : String
  modelSizeBytes : Nat
  modelModifiedUnixNs : Option Nat
  inventoryGeneration : Nat
  nativeContractVersion : Nat
deriving DecidableEq, Repr

structure CalibrationCounters where
  predictions : Nat := 0
  hits : Nat := 0
  withinHorizon : Nat := 0
deriving DecidableEq, Repr

structure PredictionFeedbackRecord where
  predictions : Nat := 0
  hits : Nat := 0
  misses : Nat := 0
  withinHorizon : Nat := 0
  stagedRequests : Nat := 0
  stagedBytes : Nat := 0
  wastedBytes : Nat := 0
deriving DecidableEq, Repr

structure PredictionHistory where
  schemaVersion : Nat
  kind : String
  identity : ProfileIdentity
  records : ExtTreeMap String PredictionFeedbackRecord compare
  totalPredictions : Nat
  hits : Nat
  misses : Nat
  stagedRequests : Nat
  stagedBytes : Nat
  wastedBytes : Nat
  matchedWithinHorizon : Nat
  prefetchRequested : Nat
  prefetchAcceptedBytes : Nat
  prefetchAcceptedResources : Nat
  prefetchFollowedByAccess : Nat
  prefetchNotFollowedByAccess : Nat
  prefetchBenefitUnknown : Nat
  duplicateOrOverlapAvoided : Nat
  rejected : Nat
  deferred : Nat
  bucketHigh : CalibrationCounters
  bucketMedium : CalibrationCounters
  bucketLow : CalibrationCounters

namespace PredictionHistory

def predictionHistorySchemaVersion : Nat := 2

def predictionHistoryKind : String := "ramforge.prediction_history"

def new (identity : ProfileIdentity) : PredictionHistory where
  schemaVersion := predictionHistorySchemaVersion
  kind := predictionHistoryKind
  identity := identity
  records := ∅
  totalPredictions := 0
  hits := 0
  misses := 0
  stagedRequests := 0
  stagedBytes := 0
  wastedBytes := 0
  matchedWithinHorizon := 0
  prefetchRequested := 0
  prefetchAcceptedBytes := 0
  prefetchAcceptedResources := 0
  prefetchFollowedByAccess := 0
  prefetchNotFollowedByAccess := 0
  prefetchBenefitUnknown := 0
  duplicateOrOverlapAvoided := 0
  rejected := 0
  deferred := 0
  bucketHigh := {}
  bucketMedium := {}
  bucketLow := {}

def reset (history : PredictionHistory) : PredictionHistory :=
  { history with
    records := ∅
    totalPredictions := 0
    hits := 0
    misses := 0
    stagedRequests := 0
    stagedBytes := 0
    wastedBytes := 0
    matchedWithinHorizon := 0
    prefetchRequested := 0
    prefetchAcceptedBytes := 0
    prefetchAcceptedResources := 0
    prefetchFollowedByAccess := 0
    prefetchNotFollowedByAccess := 0
    prefetchBenefitUnknown := 0
    duplicateOrOverlapAvoided := 0
    rejected := 0
    deferred := 0
    bucketHigh := {}
    bucketMedium := {}
    bucketLow := {} }

/-- `self.records.entry(name).or_default()`. -/
def record (history : PredictionHistory) (name : String) : PredictionFeedbackRecord :=
  history.records[name]?.getD {}

/-- One round of the loop of `record_predictions`. -/
def recordPrediction (history : PredictionHistory) (prediction : PredictedAccess) :
    PredictionHistory :=
  let record := history.record prediction.name
  { history with
    totalPredictions := saturatingAdd history.totalPredictions 1
    records := history.records.insert prediction.name
      { record with predictions := saturatingAdd record.predictions 1 } }

def recordPredictions (history : PredictionHistory) (predictions : PredictionSet) :
    PredictionHistory :=
  predictions.predictions.foldl recordPrediction history

/-- The hit or miss of one prediction, in its record and in the totals. -/
def countHit (hit : Bool) (history : PredictionHistory) (record : PredictionFeedbackRecord) :
    PredictionHistory × PredictionFeedbackRecord :=
  if hit then
    ({ history with hits := saturatingAdd history.hits 1 },
      { record with hits := saturatingAdd record.hits 1 })
  else
    ({ history with misses := saturatingAdd history.misses 1 },
      { record with misses := saturatingAdd record.misses 1 })

def countStaged (hit : Bool) (bytes : Nat) (history : PredictionHistory)
    (record : PredictionFeedbackRecord) : PredictionHistory × PredictionFeedbackRecord :=
  let record :=
    { record with
      stagedRequests := saturatingAdd record.stagedRequests 1
      stagedBytes := saturatingAdd record.stagedBytes bytes }
  let history :=
    { history with
      stagedRequests := saturatingAdd history.stagedRequests 1
      stagedBytes := saturatingAdd history.stagedBytes bytes }
  if !hit then
    ({ history with wastedBytes := saturatingAdd history.wastedBytes bytes },
      { record with wastedBytes := saturatingAdd record.wastedBytes bytes })
  else (history, record)

/-- One round of the loop of `record_feedback`. -/
def recordAnswer (observed : ExecutionProfile) (stagedBytes : ExtTreeMap String Nat compare)
    (history : PredictionHistory) (prediction : PredictedAccess) : PredictionHistory :=
  let hit := observed.access.contains prediction.name
  let (history, record) := countHit hit history (history.record prediction.name)
  let (history, record) :=
    match stagedBytes[prediction.name]? with
    | some bytes => countStaged hit bytes history record
    | none => (history, record)
  { history with records := history.records.insert prediction.name record }

def recordFeedback (history : PredictionHistory) (predictions : PredictionSet)
    (observed : ExecutionProfile) (stagedBytes : ExtTreeMap String Nat compare) :
    PredictionHistory :=
  predictions.predictions.foldl (recordAnswer observed stagedBytes) history

end PredictionHistory
end Ramforge
