/-
Execution profiles as files: the checks on the way out and on the way in.

Both sides check the profile itself.  Only the loader looks at its version.
-/
import Ramforge.Rust.Serde
import Ramforge.Runtime.Prediction

namespace Ramforge

open Std Rust Rust.Outcome

deriving instance DecidableEq for ExecutionProfile

/-- What is stored with a profile. -/
structure ExecutionProfileFile where
  schemaVersion : Nat
  kind : String
  identity : ProfileIdentity
  profile : ExecutionProfile
deriving DecidableEq

inductive ProfileError where
  | io (message : String)
  | json (message : String)
  | tooLarge (bytes limit : Nat)
  | schema (version : Nat)
  | kind (kind : String)
  | profileVersion (version : Nat)
  | nativeContract (version : Nat)
  | modelPath (path : String)
  | modelSize (expected actual : Nat)
  | modelModified (expected actual : Option Nat)
  | inventoryGeneration (expected actual : Nat)
  | incomplete
  | invalidated (reason : String)
  | tooManyEntries (entries : Nat)
  | invalidEntry (entry : String)
deriving DecidableEq, Repr

structure ProfileInspection where
  schemaVersion : Nat
  kind : String
  identity : ProfileIdentity
  profileVersion : Nat
  completeObservations : Nat
  incompleteObservations : Nat
  entries : Nat
  invalidated : Bool
deriving DecidableEq, Repr

namespace ExecutionProfile

def profileSchemaVersion : Nat := 1

def profileKind : String := "ramforge.execution_profile"

def maxProfileBytes : Nat := 16 * 1024 * 1024

def maxProfileEntries : Nat := 100000

/-! ## The checks of a profile -/

def validateEntry (name : String) (pattern : AccessPattern) : Outcome ProfileError Unit := do
  failIf (name.isEmpty ∨ 4096 < name.utf8ByteSize)
    (.invalidEntry s!"tensor name length {name.utf8ByteSize}")
  failIf (pattern.lastOrder < pattern.firstOrder ∨ pattern.observedConsumers = 0)
    (.invalidEntry s!"tensor {name} has inconsistent access range")

def validateForPersistence (profile : ExecutionProfile) : Outcome ProfileError Unit := do
  failIf (profile.invalidatedReason.isSome) (.invalidated (profile.invalidatedReason.getD ""))
  failIf (profile.completeObservations = 0 ∨ profile.access.isEmpty) .incomplete
  failIf (maxProfileEntries < profile.access.size) (.tooManyEntries profile.access.size)
  profile.access.toList.forM fun entry => validateEntry entry.1 entry.2

/-! ## Out -/

def profileFile (profile : ExecutionProfile) (identity : ProfileIdentity) : ExecutionProfileFile where
  schemaVersion := profileSchemaVersion
  kind := profileKind
  identity := identity
  profile := profile

def toJsonFile (json : Json ExecutionProfileFile) (profile : ExecutionProfile)
    (identity : ProfileIdentity) : Outcome ProfileError (List UInt8) := do
  validateForPersistence profile
  failIf (profile.modelId.id ≠ identity.modelPath) (.modelPath profile.modelId.id)
  failIf (profile.generation.generation ≠ identity.inventoryGeneration)
    (.inventoryGeneration identity.inventoryGeneration profile.generation.generation)
  let bytes ← ofExcept .json (json.toVecPretty (profileFile profile identity))
  failIf (maxProfileBytes < bytes.length) (.tooLarge bytes.length maxProfileBytes)
  pure bytes

/-! ## In -/

def profileLoader : Loader ProfileError where
  limit := maxProfileBytes
  metadata error := .io s!"profile metadata: {error}"
  tooLarge := .tooLarge
  read error := .io s!"read profile: {error}"
  json := .json

def checkIdentity (identity expected : ProfileIdentity) : Outcome ProfileError Unit := do
  failIf (identity.nativeContractVersion ≠ expected.nativeContractVersion)
    (.nativeContract identity.nativeContractVersion)
  failIf (identity.modelPath ≠ expected.modelPath) (.modelPath identity.modelPath)
  failIf (identity.modelSizeBytes ≠ expected.modelSizeBytes)
    (.modelSize expected.modelSizeBytes identity.modelSizeBytes)
  failIf (identity.modelModifiedUnixNs ≠ expected.modelModifiedUnixNs)
    (.modelModified expected.modelModifiedUnixNs identity.modelModifiedUnixNs)
  failIf (identity.inventoryGeneration ≠ expected.inventoryGeneration)
    (.inventoryGeneration expected.inventoryGeneration identity.inventoryGeneration)

/-- The checks that loading and inspecting begin with. -/
def checkVersions (file : ExecutionProfileFile) : Outcome ProfileError Unit := do
  failIf (file.schemaVersion ≠ profileSchemaVersion) (.schema file.schemaVersion)
  failIf (file.kind ≠ profileKind) (.kind file.kind)
  failIf (file.profile.version ≠ executionProfileVersion) (.profileVersion file.profile.version)

def loadProfile (json : Json ExecutionProfileFile) (path : FileView) (expected : ProfileIdentity) :
    Outcome ProfileError ExecutionProfile := do
  let file ← profileLoader.load json path
  checkVersions file
  checkIdentity file.identity expected
  failIf (file.profile.modelId.id ≠ file.identity.modelPath) (.modelPath file.profile.modelId.id)
  failIf (file.profile.generation.generation ≠ file.identity.inventoryGeneration)
    (.inventoryGeneration file.identity.inventoryGeneration file.profile.generation.generation)
  validateForPersistence file.profile
  failIf (!file.profile.isValidFor file.profile.modelId file.profile.generation) .incomplete
  pure file.profile

def inspection (file : ExecutionProfileFile) : ProfileInspection where
  schemaVersion := file.schemaVersion
  kind := file.kind
  identity := file.identity
  profileVersion := file.profile.version
  completeObservations := file.profile.completeObservations
  incompleteObservations := file.profile.incompleteObservations
  entries := file.profile.access.size
  invalidated := file.profile.invalidatedReason.isSome

def inspectProfile (json : Json ExecutionProfileFile) (path : FileView) :
    Outcome ProfileError ProfileInspection := do
  let file ← profileLoader.load json path
  checkVersions file
  validateForPersistence file.profile
  pure (inspection file)

variable {json : Json ExecutionProfileFile} {profile : ExecutionProfile}
  {identity expected : ProfileIdentity} {bytes : List UInt8}

/-! ## Each check -/

theorem isValidFor_of_validated {u : Unit} (h : validateForPersistence profile = .ok u) :
    profile.isValidFor profile.modelId profile.generation = true := by
  obtain ⟨hkept, h⟩ := of_failIf_bind_ok h
  obtain ⟨hcomplete, -⟩ := of_failIf_bind_ok h
  rw [Bool.not_eq_true, Option.isSome_eq_false_iff, Option.isNone_iff_eq_none] at hkept
  have hpos : profile.completeObservations ≠ 0 := fun hzero => hcomplete (.inl hzero)
  rw [isValidFor, decide_eq_true_eq]
  exact ⟨rfl, rfl, Nat.pos_of_ne_zero hpos, hkept⟩

theorem checkIdentity_iff : checkIdentity identity expected = .ok () ↔ identity = expected := by
  constructor
  · intro h
    obtain ⟨hcontract, h⟩ := of_failIf_bind_ok h
    obtain ⟨hpath, h⟩ := of_failIf_bind_ok h
    obtain ⟨hsize, h⟩ := of_failIf_bind_ok h
    obtain ⟨hmodified, h⟩ := of_failIf_bind_ok h
    have hgeneration := of_failIf_ok h
    cases identity
    cases expected
    simp only [ne_eq, not_not] at hcontract hpath hsize hmodified hgeneration
    rw [hcontract, hpath, hsize, hmodified, hgeneration]
  · rintro rfl
    simp only [checkIdentity, ne_eq, not_true_eq_false, failIf, if_false, ok_bind]

theorem checkVersions_iff (identity : ProfileIdentity) :
    checkVersions (profileFile profile identity) = .ok () ↔
      profile.version = executionProfileVersion := by
  have hschema : ¬(profileFile profile identity).schemaVersion ≠ profileSchemaVersion :=
    not_not.mpr rfl
  have hkind : ¬(profileFile profile identity).kind ≠ profileKind := not_not.mpr rfl
  rw [checkVersions, failIf_of_not hschema, ok_bind, failIf_of_not hkind, ok_bind]
  exact ⟨fun h => not_not.mp (of_failIf_ok h), fun h => failIf_of_not (not_not.mpr h)⟩

/-! ## What is saved -/

structure Saved (json : Json ExecutionProfileFile) (profile : ExecutionProfile)
    (identity : ProfileIdentity) (bytes : List UInt8) : Prop where
  validated : validateForPersistence profile = .ok ()
  path : profile.modelId.id = identity.modelPath
  generation : profile.generation.generation = identity.inventoryGeneration
  written : json.toVecPretty (profileFile profile identity) = .ok bytes
  length : bytes.length ≤ maxProfileBytes

theorem toJsonFile_ok (h : toJsonFile json profile identity = .ok bytes) :
    Saved json profile identity bytes := by
  obtain ⟨_, hvalidated, h⟩ := of_bind_ok h
  obtain ⟨hpath, h⟩ := of_failIf_bind_ok h
  obtain ⟨hgeneration, h⟩ := of_failIf_bind_ok h
  obtain ⟨written, hwritten, h⟩ := of_bind_ok h
  obtain ⟨hlength, h⟩ := of_failIf_bind_ok h
  cases h
  exact ⟨hvalidated, not_not.mp hpath, not_not.mp hgeneration, of_ofExcept_ok hwritten,
    Nat.not_lt.mp hlength⟩

theorem load_saved (hjson : json.RoundTrips) (h : Saved json profile identity bytes) :
    profileLoader.load json (.holding bytes) = .ok (profileFile profile identity) :=
  Loader.load_holding hjson h.written h.length

/-- Once the versions are checked, only the identity decides whether a saved file loads. -/
theorem loadProfile_saved (hjson : json.RoundTrips) (h : Saved json profile identity bytes) :
    loadProfile json (.holding bytes) expected =
      (checkVersions (profileFile profile identity) >>= fun _ =>
        checkIdentity identity expected >>= fun _ => .ok profile) := by
  have hpath : ¬(profileFile profile identity).profile.modelId.id ≠
      (profileFile profile identity).identity.modelPath := not_not.mpr h.path
  have hgeneration : ¬(profileFile profile identity).profile.generation.generation ≠
      (profileFile profile identity).identity.inventoryGeneration := not_not.mpr h.generation
  have hvalidated : validateForPersistence (profileFile profile identity).profile = .ok () :=
    h.validated
  have hvalid := isValidFor_of_validated hvalidated
  rw [loadProfile, load_saved hjson h, ok_bind]
  simp only [failIf_of_not hpath, failIf_of_not hgeneration, hvalidated, hvalid, ok_bind,
    Bool.not_true, failIf_of_not Bool.false_ne_true]
  rfl

/-- Inspecting a saved file asks for its versions alone. -/
theorem inspectProfile_saved (hjson : json.RoundTrips) (h : Saved json profile identity bytes) :
    inspectProfile json (.holding bytes) =
      (checkVersions (profileFile profile identity) >>= fun _ =>
        .ok (inspection (profileFile profile identity))) := by
  have hvalidated : validateForPersistence (profileFile profile identity).profile = .ok () :=
    h.validated
  rw [inspectProfile, load_saved hjson h, ok_bind]
  simp only [hvalidated, ok_bind]
  rfl

theorem loadProfile_eq_ok_iff (hjson : json.RoundTrips) (h : Saved json profile identity bytes) :
    loadProfile json (.holding bytes) expected = .ok profile ↔
      profile.version = executionProfileVersion ∧ identity = expected := by
  rw [loadProfile_saved hjson h, ← checkVersions_iff identity, ← checkIdentity_iff]
  constructor
  · intro hload
    obtain ⟨_, hversions, hload⟩ := of_bind_ok hload
    obtain ⟨_, hidentity, -⟩ := of_bind_ok hload
    exact ⟨hversions, hidentity⟩
  · rintro ⟨hversions, hidentity⟩
    rw [hversions, ok_bind, hidentity, ok_bind]

theorem total_checkVersions (file : ExecutionProfileFile) : Total (checkVersions file) :=
  total_failIf_bind fun _ => total_failIf_bind fun _ => total_failIf _ _

theorem total_checkIdentity (identity expected : ProfileIdentity) :
    Total (checkIdentity identity expected) :=
  total_failIf_bind fun _ => total_failIf_bind fun _ => total_failIf_bind fun _ =>
    total_failIf_bind fun _ => total_failIf _ _

theorem loadProfile_other (hjson : json.RoundTrips) (h : Saved json profile identity bytes)
    (hother : expected ≠ identity) : ∃ e, loadProfile json (.holding bytes) expected = .err e := by
  have hidentity : checkIdentity identity expected ≠ .ok () :=
    fun hok => hother (checkIdentity_iff.mp hok).symm
  have hversions := total_checkVersions (profileFile profile identity)
  have htotal := total_checkIdentity identity expected
  rw [loadProfile_saved hjson h]
  rcases hrun : checkVersions (profileFile profile identity) with u | e | message
  · rcases hcheck : checkIdentity identity expected with u | e | message
    · exact absurd hcheck hidentity
    · exact ⟨e, rfl⟩
    · exact absurd hcheck (htotal message)
  · exact ⟨e, rfl⟩
  · exact absurd hrun (hversions message)

/-- A saved profile loads again under its own identity and under no other exactly where it has
the version that the loader knows. -/
theorem saved_loads_iff (json : Json ExecutionProfileFile) (hjson : json.RoundTrips)
    (profile : ExecutionProfile) (identity : ProfileIdentity) (bytes : List UInt8)
    (h : toJsonFile json profile identity = .ok bytes) :
    (loadProfile json (.holding bytes) identity = .ok profile ∧
      ∀ other, other ≠ identity → ∃ e, loadProfile json (.holding bytes) other = .err e) ↔
    profile.version = executionProfileVersion := by
  have hsaved := toJsonFile_ok h
  have hloads : loadProfile json (.holding bytes) identity = .ok profile ↔
      profile.version = executionProfileVersion ∧ identity = identity :=
    loadProfile_eq_ok_iff hjson hsaved
  refine ⟨fun hboth => (hloads.mp hboth.1).1, fun hversion => ⟨hloads.mpr ⟨hversion, rfl⟩, ?_⟩⟩
  exact fun other hother => loadProfile_other hjson hsaved hother

/-! ## Two profiles that are saved -/

def sampleIdentity : ProfileIdentity where
  modelPath := "m"
  modelSizeBytes := 22
  modelModifiedUnixNs := none
  inventoryGeneration := 1
  nativeContractVersion := 1

def sampleProfile (version : Nat) : ExecutionProfile where
  version := version
  modelId := ⟨"m"⟩
  generation := ⟨1⟩
  completeObservations := 2
  incompleteObservations := 0
  lastNodeCount := 3
  lastTensorCount := 1
  access := (∅ : ExtTreeMap String AccessPattern compare).insert "blk.0.attn.weight"
    { firstOrder := 0, lastOrder := 2, observedConsumers := 1 }
  invalidatedReason := none

/-- The lines of the text of the sample, as they are printed. -/
def sampleLines (version : Nat) : List String :=
  ["\x7b", "  \"schema_version\": 1,", "  \"kind\": \"ramforge.execution_profile\",",
    "  \"identity\": \x7b", "    \"model_path\": \"m\",", "    \"model_size_bytes\": 22,",
    "    \"model_modified_unix_ns\": null,", "    \"inventory_generation\": 1,",
    "    \"native_contract_version\": 1", "  \x7d,", "  \"profile\": \x7b",
    "    \"version\": " ++ toString version ++ ",", "    \"model_id\": \"m\",",
    "    \"generation\": 1,", "    \"complete_observations\": 2,",
    "    \"incomplete_observations\": 0,", "    \"last_node_count\": 3,",
    "    \"last_tensor_count\": 1,", "    \"access\": \x7b",
    "      \"blk.0.attn.weight\": \x7b", "        \"first_order\": 0,",
    "        \"last_order\": 2,", "        \"observed_consumers\": 1", "      \x7d", "    \x7d,",
    "    \"invalidated_reason\": null", "  \x7d", "\x7d"]

def sampleBytes (version : Nat) : List UInt8 :=
  ("\n".intercalate (sampleLines version)).toUTF8.data.toList

/-- The serializer, as far as the sample in one version goes. -/
def sampleJson (version : Nat) : Json ExecutionProfileFile :=
  .only (profileFile (sampleProfile version) sampleIdentity) (sampleBytes version)

theorem sample_saved (version : Nat) (h : (sampleBytes version).length ≤ maxProfileBytes) :
    toJsonFile (sampleJson version) (sampleProfile version) sampleIdentity =
      .ok (sampleBytes version) := by
  have hvalidated : validateForPersistence (sampleProfile version) = .ok () := by
    show validateForPersistence (sampleProfile 0) = .ok ()
    decide +kernel
  have hwritten : (sampleJson version).toVecPretty
      (profileFile (sampleProfile version) sampleIdentity) = .ok (sampleBytes version) :=
    Json.only_written _ _
  have hpath : ¬(sampleProfile version).modelId.id ≠ sampleIdentity.modelPath := not_not.mpr rfl
  have hgeneration : ¬(sampleProfile version).generation.generation ≠
      sampleIdentity.inventoryGeneration := not_not.mpr rfl
  rw [toJsonFile, hvalidated, ok_bind, failIf_of_not hpath, ok_bind, failIf_of_not hgeneration,
    ok_bind, hwritten, ofExcept_ok, ok_bind, failIf_of_not (Nat.not_lt.mpr h), ok_bind]
  rfl

theorem saved_loads_iff_sample :
    loadProfile (sampleJson 1) (.holding (sampleBytes 1)) sampleIdentity = .ok (sampleProfile 1) ∧
      ∀ other, other ≠ sampleIdentity →
        ∃ e, loadProfile (sampleJson 1) (.holding (sampleBytes 1)) other = .err e :=
  (saved_loads_iff (sampleJson 1) (Json.only_roundTrips _ _) (sampleProfile 1) sampleIdentity
    (sampleBytes 1) (sample_saved 1 (by decide +kernel))).mpr rfl

/-- A profile of another version is saved, and no load takes it back. -/
theorem newer_never_loads : (sampleJson 2).RoundTrips ∧
    toJsonFile (sampleJson 2) (sampleProfile 2) sampleIdentity = .ok (sampleBytes 2) ∧
    loadProfile (sampleJson 2) (.holding (sampleBytes 2)) sampleIdentity =
      .err (.profileVersion 2) := by
  have hsaved := sample_saved 2 (by decide +kernel)
  have hjson : (sampleJson 2).RoundTrips := Json.only_roundTrips _ _
  refine ⟨hjson, hsaved, ?_⟩
  rw [loadProfile_saved hjson (toJsonFile_ok hsaved)]
  rfl

end ExecutionProfile
end Ramforge
