/-
The construction of an inference engine over an opened file.

The budget is created here.  A backend or a configuration that cannot be made comes after the
load, so the charges of the model are rolled back.
-/
import Ramforge.Runtime.Generation
import Ramforge.Runtime.ModelLoad

namespace Ramforge

open Rust Rust.Exec GgufDataSource

/-- What an engine gets from outside its file while it is built. -/
structure Surroundings (S : Type) where
  /-- `available_parallelism`, and 1 where it fails. -/
  availableThreads : Nat
  availableThreads_pos : 0 < availableThreads
  avx2 : Bool
  globalPool : Schedule
  /-- What `ThreadPoolBuilder::build` answers for a number of threads. -/
  buildPool : Nat → Except String Schedule
  /-- `Tokenizer::from_gguf`. -/
  tokenizerFrom : GgufModel → Except String (Tokenizer S)

section backend

variable {S : Type} (env : Surroundings S)

/-- `CpuBackend::new`, without a pool of its own. -/
def CpuBackend.new : CpuBackend :=
  { threadCount := env.availableThreads
    threadCount_pos := env.availableThreads_pos
    useSimd := env.avx2
    avx2 := env.avx2
    pool := env.globalPool }

def CpuBackend.tryWithThreads (numThreads : Nat) : Except String CpuBackend :=
  if h : numThreads = 0 then .error "CPU thread count must be greater than zero"
  else
    match if numThreads > 1 then env.buildPool numThreads else .ok env.globalPool with
    | .error error => .error ("failed to construct CPU thread pool: " ++ error)
    | .ok pool =>
      .ok { threadCount := numThreads
            threadCount_pos := Nat.pos_of_ne_zero h
            useSimd := env.avx2
            avx2 := env.avx2
            pool }

def validateRuntimeConfigForHost {σ : Type} (config : RuntimeConfig) : Exec σ String Unit := do
  mapErr (fun error => "invalid runtime configuration: " ++ error.text) (resume config.validate)
  failIf (config.cpuThreadCount > env.availableThreads)
    s!"runtime configuration requests {config.cpuThreadCount} CPU threads but only {env.availableThreads} are available"

end backend

def RuntimeConfig.currentDefaultsWithThreadCount (cpuThreadCount ramBudgetBytes
    layerCacheCapacityBytes : Nat) : Outcome RuntimeConfigError RuntimeConfig :=
  RuntimeConfig.new cpuThreadCount ramBudgetBytes (0 < layerCacheCapacityBytes) layerCacheCapacityBytes
    currentReadCoalescingEnabled currentGroupedReadBufferReuseEnabled

/-- An engine with its budget, its backend and its configuration. -/
structure Built (R S : Type) where
  engine : InferenceEngine R S
  budget : MemoryBudget
  backend : CpuBackend
  config : RuntimeConfig

namespace InferenceEngine

open StreamingLlamaModel

variable (R : Type) {S : Type} [F32 R] [F32Narrow R] [FloatText] [Zero R] [Add R] [Sub R] [Mul R]

/-- A call with a budget of its own. -/
def withBudget {α : Type} (budget : MemoryBudget) (m : Managed α) :
    Exec Host String (α × MemoryBudget) := fun host =>
  let r := m (host, budget)
  (r.1.map fun a => (a, r.2.2), r.2.1)

variable {R}

/-- The loaded model is released, and the construction fails. -/
def rollBackModel {α : Type} (what : String) (model : StreamingLlamaModel R)
    (cache : LayerCache (StreamingLayerWeights R)) (error : String) : Managed α := do
  let _ ← onSnd (withLocal (model, cache) (orPanic releasePersistent
    fun cleanupError => "failed to roll back model allocations after " ++ what ++ " failure: " ++
      cleanupError))
  throw error

variable (R)

/-- The model, the backend and the configuration. -/
def startModel (env : Surroundings S) (ramBudgetBytes : Nat) (requestedConfig : Option RuntimeConfig) :
    Managed ((StreamingLlamaModel R × LayerCache (StreamingLayerWeights R)) × CpuBackend ×
      RuntimeConfig) := do
  let (model, cache) ← mapErr ("failed to load model weights: " ++ ·) <|
    match requestedConfig with
    | some config => StreamingLlamaModel.loadWithRuntimeConfig R config
    | none => StreamingLlamaModel.load R
  match requestedConfig with
  | some config =>
    match CpuBackend.tryWithThreads env config.cpuThreadCount with
    | .error error => rollBackModel "backend construction" model cache error
    | .ok backend => return ((model, cache), backend, config)
  | none =>
    let backend := CpuBackend.new env
    match RuntimeConfig.currentDefaultsWithThreadCount backend.threadCount ramBudgetBytes
        cache.capacityBytes with
    | .err error =>
      rollBackModel "runtime-default construction" model cache
        ("failed to materialize runtime defaults: " ++ error.text)
    | .panic message => panic message
    | .ok config => return ((model, cache), backend, config)

def fromDataSourceInternal (env : Surroundings S) (ramBudgetBytes : Nat)
    (requestedConfig : Option RuntimeConfig) : Exec Host String (Built R S) := do
  let host ← self
  let ggufModel := host.2.2.model
  -- The architecture is validated before anything is charged.
  let _ ← resume (LlamaConfig.fromGguf R ggufModel)
  let tokenizer ← ofResult ((env.tokenizerFrom ggufModel).mapError ("failed to load tokenizer: " ++ ·))
  let budget ← ofResult ((MemoryBudget.new ramBudgetBytes).mapError
    fun error => "invalid RAM budget: " ++ error.display)
  let (((model, cache), backend, config), budget) ←
    withBudget budget (startModel R env ramBudgetBytes requestedConfig)
  let host ← self
  return {
    engine :=
      { host
        tokenizer
        model
        cache
        kvCache := none
        stats := .new
        cacheStats := .new
        heard := [] }
    budget
    backend
    config }

/-- `from_data_source_with_runtime_config`. -/
def fromDataSourceWithRuntimeConfig (env : Surroundings S) (config : RuntimeConfig) :
    Exec Host String (Built R S) := do
  validateRuntimeConfigForHost env config
  fromDataSourceInternal R env config.ramBudgetBytes (some config)

end InferenceEngine
end Ramforge
