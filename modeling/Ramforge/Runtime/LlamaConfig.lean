/-
The configuration of a dense transformer, from the metadata of its file, and the
tensors that it needs.
-/
import Ramforge.Core.F32
import Ramforge.Runtime.Support
import Ramforge.Rust.Text

namespace Ramforge

open Rust Rust.Outcome

/-- `as f32` of an `f64`, by its bits. -/
class F32Narrow (R : Type) where
  ofF64Bits : UInt64 → R

/-- The number of a finite bit pattern of an `f64`. -/
def rationalOfBits64 (bits : UInt64) : ℚ :=
  let exponent : Nat := bits.toNat / 2 ^ 52 % 2048
  let fraction : Nat := bits.toNat % 2 ^ 52
  let magnitude : ℚ :=
    if exponent = 2047 then 0
    else if exponent = 0 then fraction / 2 ^ 1074
    else (2 ^ 52 + fraction) * 2 ^ exponent / 2 ^ 1075
  if bits.toNat / 2 ^ 63 = 1 then -magnitude else magnitude

instance : F32Narrow ℚ := ⟨rationalOfBits64⟩

structure LlamaConfig (R : Type) where
  vocabSize : Nat
  contextLength : Nat
  embeddingLength : Nat
  blockCount : Nat
  feedForwardLength : Nat
  headCount : Nat
  headCountKv : Nat
  headDim : Nat
  rmsEps : R
  ropeFreqBase : R

namespace LlamaConfig

/-- The keys tried for a suffix, in this order. -/
def archKeys (arch suffix : String) : List String :=
  [arch ++ "." ++ suffix, "llama." ++ suffix, "qwen2." ++ suffix, "general." ++ suffix]

def getU64Arch (model : GgufModel) (arch suffix : String) : Option Nat :=
  (archKeys arch suffix).findSome? fun key => (model.getMetadata key).bind MetadataValue.asU64

/-- The values that `get_f32_arch` takes for a number. -/
def asF32 {R : Type} [F32 R] [F32Narrow R] : MetadataValue → Option R
  | .float32 bits => some (F32.fromBits bits)
  | .float64 bits => some (F32Narrow.ofF64Bits bits)
  | .uInt32 v => some (F32.ofInt v.toNat)
  | .int32 v => some (F32.ofInt v.toInt)
  | .uInt64 v => some (F32.ofInt v.toNat)
  | .int64 v => some (F32.ofInt v.toInt)
  | _ => none

def getF32Arch {R : Type} [F32 R] [F32Narrow R] (model : GgufModel) (arch suffix : String) :
    Option R :=
  (archKeys arch suffix).findSome? fun key => (model.getMetadata key).bind asF32

/-- The length of `tokenizer.ggml.tokens`. -/
def tokenCount (model : GgufModel) : Option Nat :=
  match model.getMetadata "tokenizer.ggml.tokens" with
  | some (.array _ values) => some values.length
  | _ => none

/-- `1e-5`. -/
def defaultRmsEpsBits : UInt32 := 0x3727C5AC

/-- `10000.0`. -/
def defaultRopeFreqBaseBits : UInt32 := 0x461C4000

/-- What a division of integers by zero says. -/
def divideByZero : String := "attempt to divide by zero"

def fromGguf (R : Type) [F32 R] [F32Narrow R] [FloatText] (model : GgufModel) :
    Outcome String (LlamaConfig R) := do
  let arch := model.architecture.getD "unknown"
  Support.ensureModelExecutionSupported model
  let vocabSize ← okOr ((getU64Arch model arch "vocab_size").or (tokenCount model))
    ("missing vocab_size (tried " ++ arch ++ ".vocab_size)")
  let contextLength ← okOr (getU64Arch model arch "context_length")
    ("missing " ++ arch ++ ".context_length")
  let embeddingLength ← okOr (getU64Arch model arch "embedding_length")
    ("missing " ++ arch ++ ".embedding_length")
  let blockCount ← okOr (getU64Arch model arch "block_count") ("missing " ++ arch ++ ".block_count")
  let feedForwardLength ← okOr
    (((getU64Arch model arch "feed_forward_length").or (getU64Arch model arch "intermediate_size")).or
      ((model.getMetadata "llama.feed_forward_length").bind MetadataValue.asU64))
    ("missing " ++ arch ++ ".feed_forward_length")
  let headCount ← okOr (getU64Arch model arch "attention.head_count")
    ("missing " ++ arch ++ ".attention.head_count")
  let headCountKv := (getU64Arch model arch "attention.head_count_kv").getD headCount
  let rmsEps := ((getF32Arch model arch "attention.layer_norm_rms_epsilon").or
    (getF32Arch model arch "attention.layer_norm_epsilon")).getD (F32.fromBits defaultRmsEpsBits)
  let ropeFreqBase := (getF32Arch model arch "rope.freq_base").getD
    (F32.fromBits defaultRopeFreqBaseBits)
  let headDim ← expect (if headCount = 0 then none else some (embeddingLength / headCount))
    divideByZero
  return {
    vocabSize, contextLength, embeddingLength, blockCount, feedForwardLength, headCount
    headCountKv, headDim, rmsEps, ropeFreqBase }

end LlamaConfig

/-! ## Required tensors -/

/-- The suffixes of the weights that every layer has. -/
def layerTensorSuffixes : List String :=
  ["attn_norm.weight", "attn_q.weight", "attn_k.weight", "attn_v.weight", "attn_output.weight",
    "ffn_norm.weight", "ffn_gate.weight", "ffn_up.weight", "ffn_down.weight"]

/-- `blk.{i}.{suffix}`. -/
def layerTensorName (layer : Nat) (suffix : String) : String :=
  "blk." ++ toString layer ++ "." ++ suffix

def requiredTensors (blockCount : Nat) : List String :=
  ["token_embd.weight", "output_norm.weight"] ++
    (List.range blockCount).flatMap fun i => layerTensorSuffixes.map (layerTensorName i)

def GgufModel.hasTensor (model : GgufModel) (name : String) : Bool :=
  model.tensors.any fun t => t.name = name

/-- The error of `validate_required_tensors`. -/
def incompleteModel (missing : List String) : String :=
  "Unsupported or incomplete model:\n" ++
    String.join ((missing.take 20).map fun m => "missing tensor '" ++ m ++ "'\n") ++
    (if 20 < missing.length then "... and " ++ toString (missing.length - 20) ++ " more\n" else "")

def validateRequiredTensors {R : Type} (model : GgufModel) (config : LlamaConfig R) :
    Outcome String Unit :=
  let missing := (requiredTensors config.blockCount).filter fun name => !model.hasTensor name
  failIf (missing ≠ []) (incompleteModel missing)

/-! ## What an accepted model has -/

section accepted

variable {R : Type} {model : GgufModel} {config : LlamaConfig R}

theorem LlamaConfig.fromGguf_ok [F32 R] [F32Narrow R] [FloatText]
    (h : fromGguf R model = .ok config) :
    config.headCount ≠ 0 ∧ config.headDim = config.embeddingLength / config.headCount ∧
      ∀ tensor ∈ model.tensors, Support.ggmlTypeSupportedForInference tensor.ggmlType = true := by
  unfold fromGguf at h
  obtain ⟨_, hsupported, h⟩ := of_bind_ok h
  obtain ⟨_, -, h⟩ := of_okOr_bind_ok h
  obtain ⟨_, -, h⟩ := of_okOr_bind_ok h
  obtain ⟨embeddingLength, -, h⟩ := of_okOr_bind_ok h
  obtain ⟨_, -, h⟩ := of_okOr_bind_ok h
  obtain ⟨_, -, h⟩ := of_okOr_bind_ok h
  obtain ⟨headCount, -, h⟩ := of_okOr_bind_ok h
  obtain ⟨headDim, hdim, h⟩ := of_bind_ok h
  cases h
  by_cases hzero : headCount = 0
  · rw [if_pos hzero] at hdim
    cases hdim
  · rw [if_neg hzero] at hdim
    cases hdim
    exact ⟨hzero, rfl, Support.of_ensureModelExecutionSupported hsupported⟩

theorem hasTensor_of_validateRequiredTensors {u : Unit} {name : String}
    (h : validateRequiredTensors model config = .ok u)
    (hname : name ∈ requiredTensors config.blockCount) : model.hasTensor name = true := by
  have hnone := not_not.mp (of_failIf_ok h)
  rw [List.filter_eq_nil_iff] at hnone
  simpa using hnone name hname

end accepted
end Ramforge

/-!
The tensors of a model by their part in it: those of each layer, and the
persistent ones.
-/

namespace Ramforge

open Rust

structure LayerDescriptor where
  layerIdx : Nat
  tensors : List TensorDescriptor
deriving DecidableEq

/-- `blk.{i}.`. -/
def layerPrefix (i : Nat) : String := "blk." ++ toString i ++ "."

def layerDescriptor (model : GgufModel) (i : Nat) : LayerDescriptor where
  layerIdx := i
  tensors := model.tensors.filter fun t => Text.startsWith t.name (layerPrefix i)

def groupLayers (model : GgufModel) (blockCount : Nat) : List LayerDescriptor :=
  (List.range blockCount).map (layerDescriptor model)

structure PersistentDescriptors where
  tokenEmbd : Option TensorDescriptor
  outputNorm : Option TensorDescriptor
  output : Option TensorDescriptor
deriving DecidableEq

def GgufModel.findTensor (model : GgufModel) (name : String) : Option TensorDescriptor :=
  model.tensors.find? fun t => t.name = name

namespace PersistentDescriptors

def fromModel (model : GgufModel) : PersistentDescriptors where
  tokenEmbd := model.findTensor "token_embd.weight"
  outputNorm := model.findTensor "output_norm.weight"
  output := model.findTensor "output.weight"

/-- Those that are there, in the order they are loaded in. -/
def present (persistent : PersistentDescriptors) : List TensorDescriptor :=
  [persistent.tokenEmbd, persistent.outputNorm, persistent.output].filterMap id

end PersistentDescriptors

theorem findTensor_eq_some {model : GgufModel} {name : String} {t : TensorDescriptor}
    (h : model.findTensor name = some t) : t ∈ model.tensors ∧ t.name = name :=
  ⟨List.mem_of_find?_eq_some h, by simpa using List.find?_some h⟩

theorem isSome_findTensor {model : GgufModel} {name : String} :
    (model.findTensor name).isSome = model.hasTensor name :=
  List.isSome_find?

end Ramforge
