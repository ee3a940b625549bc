/-
What the legacy executor can run: architectures, and the tensor formats its
kernels decode.

Inspection and planning cover more than this.
-/
import Ramforge.Core.Model
import Ramforge.Rust.Call

namespace Ramforge

open Rust Rust.Outcome

/-- The texts of floats: `Display` of `f32` and of `f64`, by their bits. -/
class FloatText where
  f32 : UInt32 → String
  f64 : UInt64 → String

/-- `Display` of a metadata value. -/
def MetadataValue.display [FloatText] : MetadataValue → String
  | .uInt8 v => toString v.toNat
  | .int8 v => toString v.toInt
  | .uInt16 v => toString v.toNat
  | .int16 v => toString v.toInt
  | .uInt32 v => toString v.toNat
  | .int32 v => toString v.toInt
  | .float32 bits => FloatText.f32 bits
  | .bool v => toString v
  | .string v => "\"" ++ v ++ "\""
  | .array _ values =>
    if 10 < values.length then "[" ++ toString values.length ++ " elements]"
    else "[" ++ String.intercalate ", " (values.map display) ++ "]"
  | .uInt64 v => toString v.toNat
  | .int64 v => toString v.toInt
  | .float64 bits => FloatText.f64 bits

/-- `info().architecture`. -/
def GgufModel.architecture [FloatText] (model : GgufModel) : Option String :=
  ((model.getMetadata "general.architecture").bind MetadataValue.asString).or
    ((model.getMetadata "general.architecture").map MetadataValue.display)

def GgufModel.totalTensorBytes (model : GgufModel) : Option Nat :=
  model.tensors.foldlM (fun total t => t.byteLength.bind (checkedAdd total)) 0

namespace Support

inductive RunSupport where
  | supported
  | notYet
deriving DecidableEq, Repr

def RunSupport.label : RunSupport → String
  | .supported => "yes"
  | .notYet => "not-yet"

def RunSupport.isSupported (support : RunSupport) : Bool := support = .supported

structure ArchitectureCapability where
  name : String
  aliases : List String
  inspect : Bool
  plan : Bool
  legacyRun : RunSupport
  forgecoreRun : RunSupport
  notes : String

def architectures : List ArchitectureCapability :=
  [{ name := "llama"
     aliases := []
     inspect := true
     plan := true
     legacyRun := .supported
     forgecoreRun := .supported
     notes := "dense llama-compatible transformer; validated on both backends" },
    { name := "qwen2"
      aliases := ["qwen2.5"]
      inspect := true
      plan := true
      legacyRun := .supported
      forgecoreRun := .supported
      notes := "dense qwen2 transformer (including qwen2.5), including validated Q/K/V biases" },
    { name := "gptneox"
      aliases := ["gpt_neox"]
      inspect := true
      plan := true
      legacyRun := .notYet
      forgecoreRun := .supported
      notes := "GPT-NeoX/Pythia parallel-residual transformer; executed through forgeCORE/libllama (use --backend forgecore)" },
    { name := "mistral"
      aliases := []
      inspect := true
      plan := true
      legacyRun := .notYet
      forgecoreRun := .notYet
      notes := "Mistral GGUFs normally declare general.architecture=llama; a literal 'mistral' tag has no validated execution path" },
    { name := "qwen3"
      aliases := []
      inspect := true
      plan := true
      legacyRun := .notYet
      forgecoreRun := .notYet
      notes := "inspect/plan only; forgeCORE/libllama execution has not been validated" },
    { name := "qwen35"
      aliases := ["qwen3.5", "qwen3_5"]
      inspect := true
      plan := true
      legacyRun := .notYet
      forgecoreRun := .notYet
      notes := "hybrid attention/SSM architecture; intentionally not aliased to qwen2" },
    { name := "gemma"
      aliases := ["gemma2", "gemma3"]
      inspect := true
      plan := true
      legacyRun := .notYet
      forgecoreRun := .notYet
      notes := "inspect/plan only; forgeCORE/libllama execution has not been validated" },
    { name := "phi"
      aliases := ["phi2", "phi3", "phi4"]
      inspect := true
      plan := true
      legacyRun := .notYet
      forgecoreRun := .notYet
      notes := "inspect/plan only; forgeCORE/libllama execution has not been validated" }]

def architectureCapability (name : String) : Option ArchitectureCapability :=
  let normalized := String.ofList (name.toList.map Char.toLower)
  architectures.find? fun capability =>
    capability.name = normalized || capability.aliases.contains normalized

def executionArchitectures : List String :=
  (architectures.filter (·.legacyRun.isSupported)).map (·.name)

/-- The error for an architecture that the legacy executor does not run. -/
def unsupportedArchitecture (architecture : String) : Option ArchitectureCapability → String
  | none =>
    "unsupported execution architecture '" ++ architecture ++
      "': inspection=true planning=true legacy-execution=not-yet forgecore-execution=not-yet (unknown execution architecture); currently supported legacy execution architectures: [" ++
      String.intercalate ", " executionArchitectures ++
      "]. GGUF inspection and planning remain available even when execution is unsupported"
  | some capability =>
    let detail := s!"inspection={capability.inspect} planning={capability.plan} legacy-execution=" ++
      capability.legacyRun.label ++ " forgecore-execution=" ++ capability.forgecoreRun.label ++
      " (" ++ capability.notes ++ ")"
    if capability.forgecoreRun.isSupported then
      "architecture '" ++ architecture ++
        "' is not supported by RAMforge's legacy executor, but it is validated for execution through the forgeCORE/libllama backend: " ++
        detail ++ "; re-run with \x60--backend forgecore\x60. Legacy execution architectures: [" ++
        String.intercalate ", " executionArchitectures ++
        "]. GGUF inspection and planning remain available"
    else
      "unsupported execution architecture '" ++ architecture ++ "': " ++ detail ++
        "; currently supported legacy execution architectures: [" ++
        String.intercalate ", " executionArchitectures ++
        "]. GGUF inspection and planning remain available even when execution is unsupported"

def ensureExecutionSupported (architecture : String) : Outcome String Unit :=
  let capability := architectureCapability architecture
  failIf (¬capability.any fun capability => capability.legacyRun.isSupported)
    (unsupportedArchitecture architecture capability)

def ggmlTypeSupportedForInference : GgmlType → Bool
  | .f32 | .f16 | .bf16 | .q4_0 | .q5_0 | .q8_0 | .q2_K | .q3_K | .q4_K | .q5_K | .q6_K | .q8_K => true
  | _ => false

def supportedInferenceFormatNames : List String :=
  ["F32", "F16", "BF16", "Q4_0", "Q5_0", "Q8_0", "Q2_K", "Q3_K", "Q4_K", "Q5_K", "Q6_K", "Q8_K"]

/-- A round of `unsupported_inference_tensor_formats`: a format is listed once. -/
def noteUnsupported (unsupported : List String) (tensor : TensorDescriptor) : List String :=
  if ggmlTypeSupportedForInference tensor.ggmlType then unsupported
  else if unsupported.contains tensor.ggmlType.name then unsupported
  else unsupported ++ [tensor.ggmlType.name]

def unsupportedInferenceTensorFormats (model : GgufModel) : List String :=
  model.tensors.foldl noteUnsupported []

def ensureModelExecutionSupported [FloatText] (model : GgufModel) : Outcome String Unit := do
  ensureExecutionSupported (model.architecture.getD "unknown")
  let unsupported := unsupportedInferenceTensorFormats model
  failIf (unsupported ≠ [])
    ("unsupported tensor type(s) for legacy execution: " ++ String.intercalate ", " unsupported ++
      " (supported: " ++ String.intercalate ", " supportedInferenceFormatNames ++ ")")

theorem noteUnsupported_eq_nil {unsupported : List String} {tensor : TensorDescriptor}
    (h : noteUnsupported unsupported tensor = []) :
    unsupported = [] ∧ ggmlTypeSupportedForInference tensor.ggmlType = true := by
  unfold noteUnsupported at h
  split at h
  · rename_i hsupported
    exact ⟨h, hsupported⟩
  · split at h
    · rename_i hseen
      rw [h] at hseen
      cases hseen
    · simp at h

theorem foldl_noteUnsupported_eq_nil {tensors : List TensorDescriptor} {unsupported : List String}
    (h : tensors.foldl noteUnsupported unsupported = []) :
    unsupported = [] ∧ ∀ tensor ∈ tensors, ggmlTypeSupportedForInference tensor.ggmlType = true := by
  induction tensors generalizing unsupported with
  | nil => exact ⟨h, fun _ ht => by cases ht⟩
  | cons tensor rest ih =>
    obtain ⟨hnil, hrest⟩ := ih h
    obtain ⟨hnil, htensor⟩ := noteUnsupported_eq_nil hnil
    exact ⟨hnil, List.forall_mem_cons.mpr ⟨htensor, hrest⟩⟩

theorem of_ensureModelExecutionSupported [FloatText] {model : GgufModel} {u : Unit}
    (h : ensureModelExecutionSupported model = .ok u) :
    ∀ tensor ∈ model.tensors, ggmlTypeSupportedForInference tensor.ggmlType = true := by
  obtain ⟨_, -, h⟩ := of_bind_ok h
  exact (foldl_noteUnsupported_eq_nil (not_not.mp (of_failIf_ok h))).2

end Support
end Ramforge
