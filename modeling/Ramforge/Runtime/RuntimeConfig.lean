/-
The configuration the inference runtime is started with.
-/
import Ramforge.Rust.Call

namespace Ramforge

open Rust Rust.Outcome

inductive RuntimeExecutionDevice where
  | cpu
deriving DecidableEq, Repr

structure RuntimeConfig where
  cpuThreadCount : Nat
  ramBudgetBytes : Nat
  layerCacheEnabled : Bool
  layerCacheCapacityBytes : Nat
  readCoalescingEnabled : Bool
  groupedReadBufferReuseEnabled : Bool
  executionDevice : RuntimeExecutionDevice
deriving DecidableEq, Repr

inductive RuntimeConfigError where
  | zeroThreadCount
  | zeroRamBudget
  | layerCacheEnabledWithoutCapacity
  | layerCacheDisabledWithCapacity
  | layerCacheCapacityExceedsRamBudget (capacityBytes ramBudgetBytes : Nat)
deriving DecidableEq, Repr

def RuntimeConfigError.text : RuntimeConfigError → String
  | .zeroThreadCount => "CPU thread count must be greater than zero"
  | .zeroRamBudget => "RAM budget must be greater than zero"
  | .layerCacheEnabledWithoutCapacity => "enabled layer cache must have non-zero capacity"
  | .layerCacheDisabledWithCapacity => "disabled layer cache must have zero capacity"
  | .layerCacheCapacityExceedsRamBudget capacityBytes ramBudgetBytes =>
    s!"layer cache capacity {capacityBytes} exceeds RAM budget {ramBudgetBytes}"

namespace RuntimeConfig

def currentReadCoalescingEnabled : Bool := true

def currentGroupedReadBufferReuseEnabled : Bool := true

def validate (config : RuntimeConfig) : Outcome RuntimeConfigError Unit := do
  failIf (config.cpuThreadCount = 0) .zeroThreadCount
  failIf (config.ramBudgetBytes = 0) .zeroRamBudget
  failIf (config.layerCacheEnabled ∧ config.layerCacheCapacityBytes = 0)
    .layerCacheEnabledWithoutCapacity
  failIf (¬config.layerCacheEnabled ∧ config.layerCacheCapacityBytes ≠ 0)
    .layerCacheDisabledWithCapacity
  failIf (config.ramBudgetBytes < config.layerCacheCapacityBytes)
    (.layerCacheCapacityExceedsRamBudget config.layerCacheCapacityBytes config.ramBudgetBytes)

def new (cpuThreadCount ramBudgetBytes : Nat) (layerCacheEnabled : Bool)
    (layerCacheCapacityBytes : Nat) (readCoalescingEnabled groupedReadBufferReuseEnabled : Bool) :
    Outcome RuntimeConfigError RuntimeConfig := do
  let config : RuntimeConfig :=
    { cpuThreadCount := cpuThreadCount
      ramBudgetBytes := ramBudgetBytes
      layerCacheEnabled := layerCacheEnabled
      layerCacheCapacityBytes := layerCacheCapacityBytes
      readCoalescingEnabled := readCoalescingEnabled
      groupedReadBufferReuseEnabled := groupedReadBufferReuseEnabled
      executionDevice := .cpu }
  config.validate
  pure config

/-- A configuration that `validate` accepts. -/
structure Valid (config : RuntimeConfig) : Prop where
  threads : config.cpuThreadCount ≠ 0
  budget : config.ramBudgetBytes ≠ 0
  cache : config.layerCacheEnabled = true ↔ config.layerCacheCapacityBytes ≠ 0
  capacity_le : config.layerCacheCapacityBytes ≤ config.ramBudgetBytes

theorem Valid.validate {config : RuntimeConfig} (h : config.Valid) : config.validate = .ok () := by
  have hon : ¬(config.layerCacheEnabled ∧ config.layerCacheCapacityBytes = 0) :=
    fun hc => h.cache.mp hc.1 hc.2
  have hoff : ¬(¬config.layerCacheEnabled ∧ config.layerCacheCapacityBytes ≠ 0) :=
    fun hc => hc.1 (h.cache.mpr hc.2)
  have hle := h.capacity_le
  simp only [RuntimeConfig.validate, failIf_of_not h.threads, failIf_of_not h.budget,
    failIf_of_not hon, failIf_of_not hoff, failIf_of_not (Nat.not_lt.mpr hle), ok_bind]

end RuntimeConfig
end Ramforge
