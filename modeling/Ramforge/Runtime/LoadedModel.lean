/-
Loading a model: what it charges, what it gives back, and when it panics.

A model that has been loaded starts with an empty layer cache over the files it was loaded
from, and with read plans that are exact.  Which persistent weights are kept resident depends on
the total of the budget, and on nothing that happens while they are read.
-/
import Ramforge.Core.MemoryScope
import Ramforge.Runtime.ForwardTransparency
import Ramforge.Runtime.StartupAgreement

namespace Rust.Exec

/-- Nothing is asked of the call. -/
theorem ends_any {σ ε α : Type} (m : Exec σ ε α) (s : σ) :
    Ends m s (fun _ _ => True) (fun _ _ => True) fun _ _ => True :=
  Keeps.ends (I := fun _ => True) (fun _ _ => trivial) trivial

end Rust.Exec

namespace Ramforge

open Rust Rust.Exec GgufDataSource MemoryBudget ForwardPass

/-! ## Estimates and read plans -/

section plans

open Outcome

theorem LayerReadPlan.exact_of_buildLayerReadPlan {descriptors : List TensorDescriptor}
    {plan : LayerReadPlan} (h : buildLayerReadPlan descriptors = .ok plan) : plan.Exact descriptors := by
  rcases buildLayerReadPlan_cases descriptors with ⟨⟨hinfile, -, hseparated⟩, hok⟩ | ⟨-, message, herr⟩
  · cases h.symm.trans hok
    exact exact_planOf hinfile hseparated
  · cases h.symm.trans herr

theorem total_buildLayerReadPlan (descriptors : List TensorDescriptor) :
    Total (buildLayerReadPlan descriptors) := by
  rcases LayerReadPlan.buildLayerReadPlan_cases descriptors with ⟨-, hok⟩ | ⟨-, message, herr⟩
  · rw [hok]
    exact total_ok _
  · rw [herr]
    exact total_err _

theorem total_settledBytes (descriptor : TensorDescriptor) (fileBytes : Nat) :
    Total (settledBytes descriptor fileBytes) := by
  refine Total.bind ?_ fun _ => total_ok _
  unfold liftResult
  split
  · exact total_ok _
  · exact total_err _

theorem total_loadIndividually (s : LoadState) (descriptor : TensorDescriptor) :
    Total (loadIndividually s descriptor) :=
  (total_okOr _ _).bind fun _ => (total_okOr _ _).bind fun _ => (total_okOr _ _).bind fun _ =>
    (total_settledBytes _ _).bind fun _ => (total_okOr _ _).bind fun _ => total_ok _

theorem total_estimateLayerMemory (tensors : List TensorDescriptor) :
    Total (estimateLayerMemory tensors) :=
  (total_foldlM (fun desc _ s => total_loadIndividually s desc) _).bind fun _ => total_ok _

/-- Every index of an exact plan is in bounds. -/
theorem total_estimateGroupedLayerMemory {tensors : List TensorDescriptor} {plan : LayerReadPlan}
    (h : plan.Exact tensors) : Total (estimateGroupedLayerMemory tensors plan) := by
  have hfound : ∀ range ∈ plan.ranges, ∀ tensor ∈ range.tensors,
      Total (descriptorAt tensors tensor) := by
    intro range hrange tensor htensor
    obtain ⟨descriptor, -, hget, -⟩ := h.placed range hrange tensor htensor
    unfold descriptorAt
    rw [hget]
    exact total_ok _
  refine (total_foldlM (fun range hrange s => ?_) _).bind fun _ => total_ok _
  unfold loadRange
  split
  next tensor heq =>
    exact (hfound range hrange tensor (by simp [heq])).bind fun _ => total_loadIndividually _ _
  next =>
    refine Total.bind (total_foldlM (fun tensor htensor _ => ?_) _) fun _ =>
      (total_okOr _ _).bind fun _ => (total_okOr _ _).bind fun _ => total_ok _
    exact (hfound range hrange tensor htensor).bind fun _ => (total_okOr _ _).bind fun _ =>
      (total_settledBytes _ _).bind fun _ => total_okOr _ _

/-- The plans are those of the layers. -/
theorem exact_of_readPlans {layers : List LayerDescriptor} {plans : List LayerReadPlan}
    (h : layers.mapM readPlanOf = .ok plans) :
    List.Forall₂ (fun layer plan => plan.Exact layer.tensors) layers plans :=
  (forall₂_of_mapM_ok h).imp fun _ _ hplan =>
    LayerReadPlan.exact_of_buildLayerReadPlan (of_mapErr_ok hplan)

theorem total_layerTables (model : GgufModel) (layers : List LayerDescriptor) :
    Total (layerTables model layers) := by
  refine (total_okOr _ _).bind fun _ => (total_okOr _ _).bind fun _ => ?_
  have hplans : Total (layers.mapM readPlanOf) :=
    total_mapM fun layer _ => (total_buildLayerReadPlan layer.tensors).mapErr _
  show Total (layers.mapM readPlanOf >>= _)
  cases hrun : layers.mapM readPlanOf with
  | panic p => exact absurd hrun (hplans p)
  | err e => exact total_err e
  | ok plans =>
    have hexact := List.forall₂_iff_get.mp (exact_of_readPlans hrun)
    show Total (layers.mapM estimateOf >>= _)
    refine Total.bind (total_mapM fun layer _ => (total_estimateLayerMemory layer.tensors).mapErr _)
      fun _ => Total.bind (total_mapM fun p hp => Total.mapErr ?_ _) fun _ => total_ok _
    obtain ⟨i, hi, hget⟩ := List.mem_iff_getElem.mp hp
    rw [List.length_zip] at hi
    rw [List.getElem_zip] at hget
    rw [← hget]
    exact total_estimateGroupedLayerMemory (hexact.2 i (by omega) (by omega))

end plans

variable {R : Type} [F32 R] {source : GgufDataSource} {b : MemoryBudget} {names : List String}
  {s : Host × MemoryBudget}

theorem settles_loadTensorData (htiled : Tiled source.files) (desc : TensorDescriptor) :
    Settles (OnHost (Serves source)) (loadTensorData (R := R) desc) := by
  unfold loadTensorData
  split
  · exact ((settles_readF32TensorRangeByDescriptor htiled desc _ _).mapErr _).bind fun _ => .ofResult _
  · exact ((settles_readTensorByDescriptor htiled desc).mapErr _).bind fun _ => .ofResult _

/-! ## Persistent weights -/

/-- A load over the files of `source` that owns the charges `names`, from the budget `b`. -/
structure Loads (source : GgufDataSource) (names : List String) (b : MemoryBudget)
    (s : Host × MemoryBudget) : Prop where
  serves : OnHost (Serves source) s.1
  holds : Holds names b s.2
  named : ∀ charge ∈ names, ∃ name, charge = weightCharge name

theorem settles_settlePersistent (htiled : Tiled source.files) {name : String}
    (hmem : weightCharge name ∈ names) (desc : TensorDescriptor) (resident : Nat) :
    Settles (Loads source names b) (settlePersistent (R := R) desc name resident) := by
  refine Settles.bind (fun s hs => ?_) fun tensor => (Settles.failIf _ _).bind fun _ =>
    Settles.bind (Settles.mapErr (fun s hs => ?_) _) fun _ => .pure _
  · refine ends_onFst.mpr ((settles_loadTensorData htiled desc s.1 hs.serves).mono ?_ ?_ fun _ _ hf => hf)
    · exact fun _ host hhost => ⟨hhost, hs.holds, hs.named⟩
    · exact fun _ host hhost => ⟨hhost, hs.holds, hs.named⟩
  · have hleft := hs.holds.resize hmem tensor.residentBytes
    obtain ⟨old, hget⟩ := Option.isSome_iff_exists.mp (hs.holds.held _ hmem)
    have hrun := resize_run hs.holds.accounted (weightCharge name) tensor.residentBytes
    rw [hget] at hrun
    refine ends_onSnd.mpr ?_
    unfold Ends
    rcases hres : resize (weightCharge name) tensor.residentBytes s.2 with ⟨_ | _ | p, b'⟩ <;>
      rw [hres] at hleft hrun
    · exact ⟨hs.serves, hleft, hs.named⟩
    · exact ⟨hs.serves, hleft, hs.named⟩
    · simp only at hrun
      split_ifs at hrun <;> cases hrun

/-- A weight that is kept has its charge; a failed load has given it back. -/
theorem ends_loadPersistentWeight (htiled : Tiled source.files) (h : Loads source names b s)
    (name : String) :
    Ends (loadPersistentWeight (R := R) name) s
      (fun r t => Loads source (names ++ r.2.toList) b t) (fun _ t => Loads source names b t)
      fun _ _ => False := by
  unfold loadPersistentWeight
  refine Ends.bind (Settles.self s h) fun _ t ht => Ends.bind (Settles.ofResult _ t ht) fun desc t ht =>
    Ends.bind (Settles.okOr _ _ t ht) fun fileBytes t ht => Ends.bind (Settles.ofResult _ t ht)
      fun resident t ht => ?_
  split
  · show Loads source (names ++ []) b t
    rwa [List.append_nil]
  refine Ends.bind (Settles.resume (Outcome.total_okOr _ _) t ht) fun charge t ht =>
    Ends.bind (Settles.failIf _ _ t ht) fun _ t ht => ?_
  have hrun := allocate_run ht.holds.accounted (weightCharge name) charge
  rw [ends_bind, ends_mapErr, ends_onSnd]
  split_ifs at hrun with hzero hold hfit
  · exact (ends_of_err hrun).mpr ht
  · exact (ends_of_err hrun).mpr ht
  · rw [ends_of_ok hrun]
    have hnone : t.2.get (weightCharge name) = none := Option.not_isSome_iff_eq_none.mp hold
    have hcharged : Loads source (names ++ [weightCharge name]) b
        (t.1, t.2.charge (weightCharge name) charge) :=
      ⟨ht.serves, ht.holds.charge (Nat.pos_of_ne_zero hzero) hnone hfit, fun other hother => by
        rcases List.mem_append.mp hother with hold | hnew
        · exact ht.named other hold
        · exact ⟨name, List.mem_singleton.mp hnew⟩⟩
    rw [ends_bind, ends_attempt]
    refine (settles_settlePersistent htiled (by simp) desc resident _ hcharged).mono (fun _ _ hu => hu)
      (fun error u hu => ?_) fun _ _ hf => hf
    obtain ⟨bytes, hget⟩ := Option.isSome_iff_exists.mp (hu.holds.held (weightCharge name) (by simp))
    have hrelease := release_run hu.holds.accounted (weightCharge name)
    rw [hget] at hrelease
    rw [ends_bind, ends_orPanic, ends_onSnd, ends_of_ok hrelease]
    exact ⟨hu.serves, hu.holds.discharge hget, ht.named⟩
  · exact (ends_of_err hrun).mpr ht

/-- The load owns the charges it has noted. -/
def Noted (source : GgufDataSource) (b : MemoryBudget) (s : List String × Host × MemoryBudget) : Prop :=
  Loads source s.1 b s.2

theorem settles_loadOwned (htiled : Tiled source.files) (name : String) :
    Settles (Noted source b) (loadOwned (R := R) name) := by
  intro s hs
  unfold loadOwned
  rw [ends_bind, ends_onSnd]
  refine (ends_loadPersistentWeight htiled hs name).mono (fun r t ht => ?_) (fun _ _ ht => ht)
    fun _ _ hf => hf
  exact ht

theorem settles_loadPersistents (htiled : Tiled source.files) (model : GgufModel) :
    Settles (Noted source b) (loadPersistents (R := R) model) := by
  refine (settles_loadOwned htiled _).bind fun _ => (settles_loadOwned htiled _).bind fun _ => ?_
  split
  · exact (settles_loadOwned htiled _).bind fun _ => .pure _
  · exact .pure _

/-! ## The whole load -/

/-- The charges are those of `b` again. -/
structure Restored (source : GgufDataSource) (b : MemoryBudget) (s : Host × MemoryBudget) : Prop where
  serves : OnHost (Serves source) s.1
  accounted : s.2.Accounted
  charges : s.2.allocations = b.allocations

theorem Restored.of_same (hs : OnHost (Serves source) s.1) (h : s.2.Accounted) :
    Restored source s.2 s := ⟨hs, h, rfl⟩

theorem ends_abandonLoad {α : Type} (h : Loads source names b s) (error : String)
    {Q : α → Host × MemoryBudget → Prop} :
    Ends (abandonLoad names error) s Q (fun _ t => Restored source b t) fun _ _ => False := by
  have hrun : (rollBackCharges names : Managed Unit) s =
      (.ok (), (s.1, MemoryBudget.dischargeAll names.reverse s.2)) :=
    LayerCache.releaseNames_run _ h.holds.accounted (List.nodup_reverse.mpr h.holds.nodup)
      fun name hname => h.holds.held name (List.mem_reverse.mp hname)
  obtain ⟨hacc, hcharges⟩ := h.holds.dischargeAll (List.reverse_perm names)
  unfold abandonLoad
  rw [ends_bind, ends_of_ok hrun]
  exact ⟨h.serves, hacc, hcharges⟩

section load

variable [F32Narrow R] [FloatText]

omit [F32 R] [F32Narrow R] [FloatText] in
theorem exact_of_layerTables {model : GgufModel} {layers : List LayerDescriptor} {tables : LayerTables}
    (h : layerTables model layers = .ok tables) :
    List.Forall₂ (fun layer plan => plan.Exact layer.tensors) layers tables.readPlans := by
  obtain ⟨_, -, h⟩ := Outcome.of_okOr_bind_ok h
  obtain ⟨_, -, h⟩ := Outcome.of_okOr_bind_ok h
  obtain ⟨plans, hplans, h⟩ := Outcome.of_bind_ok h
  obtain ⟨_, -, h⟩ := Outcome.of_bind_ok h
  obtain ⟨_, -, h⟩ := Outcome.of_bind_ok h
  cases h
  exact exact_of_readPlans hplans

/-- The charges of the weights are made, and the read plans are exact. -/
def Started (source : GgufDataSource) (b : MemoryBudget) (startup : Startup R) (s : Host × MemoryBudget) :
    Prop :=
  Loads source startup.chargeNames b s ∧
    List.Forall₂ (fun layer plan => plan.Exact layer.tensors) startup.layerDescriptors
      startup.tables.readPlans

theorem ends_startUp (htiled : Tiled source.files) (hserves : OnHost (Serves source) s.1)
    (hacc : s.2.Accounted) (model : GgufModel) :
    Ends (startUp R model) s (fun startup t => Started source s.2 startup t)
      (fun _ t => Restored source s.2 t) fun p t => t = s ∧ LlamaConfig.fromGguf R model = .panic p := by
  have hstart : Restored source s.2 s := .of_same hserves hacc
  unfold startUp
  rw [ends_bind, ends_resume]
  refine ⟨fun config _ => ?_, fun _ _ => hstart, fun p hp => ⟨rfl, hp⟩⟩
  rw [ends_bind, ends_resume]
  refine ⟨fun _ _ => ?_, fun _ _ => hstart, fun p hp => absurd hp (Outcome.total_failIf _ _ p)⟩
  rw [ends_bind, ends_resume]
  refine ⟨fun tables htables => ?_, fun _ _ => hstart, fun p hp => absurd hp (total_layerTables _ _ p)⟩
  rw [ends_bind, ends_withLocal, ends_attempt]
  have hnone : Noted source s.2 ([], s) := ⟨hserves, .refl hacc, nofun⟩
  refine (settles_loadPersistents htiled model _ hnone).mono (fun weights t ht => ?_) (fun error t ht => ?_)
    fun _ _ hf => hf.elim
  · exact ⟨ht, exact_of_layerTables htables⟩
  · exact (ends_abandonLoad ht error).mono (fun _ _ hu => hu) (fun _ _ hu => hu) fun _ _ hf => hf.elim

omit [F32 R] [F32Narrow R] [FloatText] in
theorem ends_cacheCapacity (h : Loads source names b s) (runtimeConfig : Option RuntimeConfig)
    (peak : Nat) :
    Ends (cacheCapacity runtimeConfig names peak) s (fun _ t => t = s) (fun _ t => Restored source b t)
      fun _ _ => False := by
  unfold cacheCapacity
  rw [ends_bind, ends_self]
  cases checkedAdd s.2.used peak with
  | none => exact ends_abandonLoad h _
  | some layerLowerBound =>
    simp only
    cases checkedSub s.2.total (max s.2.peakUsed layerLowerBound) with
    | none => exact ends_abandonLoad h _
    | some maximum =>
      have hchosen : ∀ (capacity : Nat) (error : String), Ends (if capacity > maximum then
          abandonLoad names error else return capacity : Managed Nat) s (fun _ t => t = s)
          (fun _ t => Restored source b t) fun _ _ => False := by
        intro capacity error
        by_cases hgt : capacity > maximum
        · rw [if_pos hgt]
          exact ends_abandonLoad h _
        · rw [if_neg hgt]
          rfl
      exact hchosen _ _

/-- What a load leaves: its charges, over the same files, with exact read plans and an empty layer
cache. -/
structure Loaded (source : GgufDataSource) (b : MemoryBudget) (model : StreamingLlamaModel R)
    (cache : LayerCache (StreamingLayerWeights R)) (s : Host × MemoryBudget) : Prop where
  loads : Loads source model.persistentChargeNames b s
  planned : LayerLoad.Planned model
  empty : ∃ capacity, cache = LayerCache.new capacity

/-- A load that fails restores the charges, and it panics on the configuration only. -/
theorem ends_loadInternal (htiled : Tiled source.files) (hserves : OnHost (Serves source) s.1)
    (hacc : s.2.Accounted) (runtimeConfig : Option RuntimeConfig) :
    Ends (loadInternal R runtimeConfig) s (fun loaded t => Loaded source s.2 loaded.1 loaded.2 t)
      (fun _ t => Restored source s.2 t)
      fun p t => t = s ∧ LlamaConfig.fromGguf R s.1.2.2.model = .panic p := by
  unfold loadInternal
  rw [ends_bind, ends_self]
  refine Ends.bind (ends_startUp htiled hserves hacc _) fun startup t ⟨hloads, hplans⟩ => ?_
  refine Ends.bind ((ends_cacheCapacity hloads runtimeConfig _).mono (fun _ _ hu => hu) (fun _ _ hu => hu)
    fun _ _ hf => hf.elim) fun capacity u hu => ?_
  rw [hu]
  refine ⟨hloads, fun i layer plan hlayer hplan => ?_, capacity, rfl⟩
  obtain ⟨hi, hlayer⟩ := List.getElem?_eq_some_iff.mp hlayer
  obtain ⟨hj, hplan⟩ := List.getElem?_eq_some_iff.mp hplan
  have hexact := (List.forall₂_iff_get.mp hplans).2 i hi hj
  rw [← hlayer, ← hplan]
  exact hexact

theorem ends_load (htiled : Tiled source.files) (hserves : OnHost (Serves source) s.1)
    (hacc : s.2.Accounted) :
    Ends (StreamingLlamaModel.load R) s (fun loaded t => Loaded source s.2 loaded.1 loaded.2 t)
      (fun _ t => Restored source s.2 t)
      fun p t => t = s ∧ LlamaConfig.fromGguf R s.1.2.2.model = .panic p :=
  ends_loadInternal htiled hserves hacc none

/-- A configuration that does not fit the budget is refused before anything is charged. -/
theorem ends_loadWithRuntimeConfig (htiled : Tiled source.files) (hserves : OnHost (Serves source) s.1)
    (hacc : s.2.Accounted) (runtimeConfig : RuntimeConfig) :
    Ends (StreamingLlamaModel.loadWithRuntimeConfig R runtimeConfig) s
      (fun loaded t => Loaded source s.2 loaded.1 loaded.2 t) (fun _ t => Restored source s.2 t)
      fun p t => t = s ∧ LlamaConfig.fromGguf R s.1.2.2.model = .panic p := by
  have hstart : Restored source s.2 s := .of_same hserves hacc
  have htotal : Outcome.Total runtimeConfig.validate :=
    (Outcome.total_failIf _ _).bind fun _ => (Outcome.total_failIf _ _).bind fun _ =>
      (Outcome.total_failIf _ _).bind fun _ => (Outcome.total_failIf _ _).bind fun _ =>
        Outcome.total_failIf _ _
  unfold StreamingLlamaModel.loadWithRuntimeConfig
  simp only [ends_bind, ends_mapErr, ends_resume, ends_self, ends_failIf]
  exact ⟨fun _ _ => ⟨fun _ => hstart, fun _ => ends_loadInternal htiled hserves hacc _⟩,
    fun _ _ => hstart, fun p hp => absurd hp (htotal p)⟩

end load

/-! ## The first call -/

/-- Nothing is charged for a layer. -/
structure NoLayers (b : MemoryBudget) : Prop where
  cached : ∀ name, Text.startsWith name LayerCache.allPrefix = true → b.get name = none
  loaded : ∀ name, Text.startsWith name loadedPrefix = true → b.get name = none

theorem noLayers_new {total : Nat} (h : MemoryBudget.new total = .ok b) : NoLayers b := by
  have hnone : ∀ name, b.get name = none := by
    intro name
    unfold MemoryBudget.new at h
    split at h
    · cases h
    · cases h
      exact Std.ExtTreeMap.getElem?_empty
  exact ⟨fun name _ => hnone name, fun name _ => hnone name⟩

theorem NoLayers.idle (h : NoLayers b) : Idle b := idle_iff.mpr h.loaded

/-- An empty cache owns nothing. -/
theorem NoLayers.coherent {α : Type} (h : NoLayers b) (hacc : b.Accounted) (capacity : Nat) :
    LayerCache.Coherent ((LayerCache.new capacity : LayerCache α), b) := by
  have hnew : MemoryBudget.new 1 = .ok { total := 1, allocations := ∅, used := 0, peakUsed := 0 } := rfl
  refine (LayerCache.coherent_new (by decide) hnew).of_frame rfl hacc fun name hname => ?_
  rw [h.cached name hname]
  exact Std.ExtTreeMap.getElem?_empty.symm

theorem plain_weightCharge (name : String) : Plain (weightCharge name) := by
  have hweight : Text.startsWith (weightCharge name) "weight:" = true := Text.startsWith_append _ _
  refine ⟨?_, ?_⟩ <;> by_contra hunder <;> rw [Bool.not_eq_false] at hunder
  · exact (Text.startsWith_or hweight hunder).elim (absurd · (by decide)) (absurd · (by decide))
  · exact (Text.startsWith_or hweight hunder).elim (absurd · (by decide)) (absurd · (by decide))

theorem Loads.noLayers (h : Loads source names b s) (hb : NoLayers b) : NoLayers s.2 := by
  have hother : ∀ name, ¬Plain name → s.2.get name = b.get name := by
    intro name hname
    refine h.holds.get_eq name fun hmem => hname ?_
    obtain ⟨tensor, rfl⟩ := h.named name hmem
    exact plain_weightCharge tensor
  refine ⟨fun name hunder => ?_, fun name hunder => ?_⟩
  · rw [hother name (fun hp => by rw [hp.cache] at hunder; cases hunder), hb.cached name hunder]
  · rw [hother name (fun hp => by rw [hp.layer] at hunder; cases hunder), hb.loaded name hunder]

/-- A loaded model is sound from the start. -/
theorem Loaded.sound {model : StreamingLlamaModel R} {cache : LayerCache (StreamingLayerWeights R)}
    (h : Loaded source b model cache s) (hb : NoLayers b) {state : ForwardState R}
    (hhost : state.host = s.1) (hcache : state.cache = cache) :
    StreamingLlamaModel.Sound source model (state, s.2) := by
  obtain ⟨capacity, rfl⟩ := h.empty
  have hnone := h.loads.noLayers hb
  refine ⟨?_, hnone.idle, ?_, ?_⟩
  · rw [hcache]
    exact hnone.coherent h.loads.holds.accounted capacity
  · rw [hhost]
    exact h.loads.serves
  · intro i e he
    rw [hcache] at he
    simp [LayerCache.new] at he

/-! ## What a loaded model depends on -/

theorem Except.of_mapError_ok {ε ε' α : Type} {r : Except ε α} {f : ε → ε'} {a : α}
    (h : r.mapError f = .ok a) : r = .ok a := by
  cases r with
  | error e => cases h
  | ok a' =>
    cases h
    rfl

/-! ## Reads leave the metadata alone -/

namespace GgufDataSource

theorem readsKeep_model (model : GgufModel) : ReadsKeep fun s => s.2.model = model := by
  intro fileOffset destination
  unfold readExactInto
  split
  · exact .pure _
  refine .loopOn (fun l => ?_) _ _
  unfold readRound
  split
  · exact .pure _
  refine (Keeps.okOr _ _).bind fun _ => Keeps.self.bind fun _ => (Keeps.okOr _ _).bind fun found => ?_
  refine (Keeps.okOr _ _).bind fun _ => Keeps.bind (fun s hs => ?_) fun _ => .pure _
  unfold withShard
  split
  · exact hs
  · exact hs

/-- The files are those of `source`, and their metadata is `model`. -/
def Describes (source : GgufDataSource) (model : GgufModel) (s : List Answer × GgufDataSource) : Prop :=
  Serves source s ∧ s.2.model = model

theorem readsKeep_describes {source : GgufDataSource} (htiled : Tiled source.files)
    (model : GgufModel) : ReadsKeep (Describes source model) := fun fileOffset destination s hs =>
  ⟨readsKeep_serves htiled fileOffset destination s hs.1,
    readsKeep_model model fileOffset destination s hs.2⟩

end GgufDataSource

variable {R : Type} [F32 R] {source : GgufDataSource} {gguf : GgufModel} {total : Nat}
  {s t : Host × MemoryBudget}

/-! ## One weight -/

/-- The tensor `name` as a load has to hold it under a budget of `total` bytes. -/
def Persisted (files : List (GgufShardLayout × List UInt8)) (gguf : GgufModel) (total : Nat)
    (name : String) (weight : PersistentWeight R) : Prop :=
  ∃ desc fileBytes resident, gguf.tensors.find? (fun t => t.name = name) = some desc ∧
    desc.byteLength = some fileBytes ∧
    TensorData.residentBytesFor desc.ggmlType desc.numElements fileBytes = .ok resident ∧
    if shouldKeepResident resident total then ∃ tensor, weight = .resident tensor ∧ Stored files desc tensor
    else weight = .streamed desc

theorem Persisted.unique {files : List (GgufShardLayout × List UInt8)} {name : String}
    {weight weight' : PersistentWeight R} (h : Persisted files gguf total name weight)
    (h' : Persisted files gguf total name weight') : weight = weight' := by
  obtain ⟨desc, fileBytes, resident, hfind, hbytes, hresident, hw⟩ := h
  obtain ⟨desc', fileBytes', resident', hfind', hbytes', hresident', hw'⟩ := h'
  rw [hfind'] at hfind
  cases hfind
  rw [hbytes'] at hbytes
  cases hbytes
  rw [hresident'] at hresident
  cases hresident
  split at hw
  next hkeep =>
    rw [if_pos hkeep] at hw'
    obtain ⟨tensor, rfl, hstored⟩ := hw
    obtain ⟨tensor', rfl, hstored'⟩ := hw'
    rw [hstored.unique hstored']
  next hkeep =>
    rw [if_neg hkeep] at hw'
    exact hw.trans hw'.symm

/-- A load under a budget of `total` bytes. -/
structure Under (source : GgufDataSource) (gguf : GgufModel) (total : Nat) (s : Host × MemoryBudget) :
    Prop where
  describes : OnHost (Describes source gguf) s.1
  accounted : s.2.Accounted
  total_eq : s.2.total = total

omit [F32 R] in
theorem Under.of_step {host : Host} {b : MemoryBudget} (h : Under source gguf total s)
    (hhost : OnHost (Describes source gguf) host) (hstep : Step s.2 b) :
    Under source gguf total (host, b) :=
  ⟨hhost, hstep.accounted h.accounted, hstep.total_eq.trans h.total_eq⟩

theorem keeps_under_settlePersistent (htiled : Tiled source.files) (desc : TensorDescriptor)
    (name : String) (resident : Nat) :
    Keeps (Under source gguf total) (settlePersistent (R := R) desc name resident) := by
  refine Keeps.bind (fun s hs => ?_) fun tensor => (Keeps.failIf _ _).bind fun _ =>
    Keeps.bind (Keeps.mapErr (fun s hs => ?_) _) fun _ => .pure _
  · exact ⟨(readsKeep_describes htiled gguf).loadTensorData desc s.1 hs.describes, hs.accounted,
      hs.total_eq⟩
  · exact hs.of_step hs.describes (resize_step hs.accounted _ _)

/-- A weight that a load has settled is the tensor of the file. -/
theorem stored_of_settlePersistent (htiled : Tiled source.files) {desc : TensorDescriptor}
    {name : String} {resident : Nat} {tensor : TensorData R} (hs : Under source gguf total s)
    (hrun : settlePersistent desc name resident s = (.ok tensor, t)) :
    Stored source.files desc tensor := by
  obtain ⟨loaded, u, hload, hrest⟩ := of_bind_ok hrun
  obtain ⟨hload, -⟩ := of_onFst_ok hload
  obtain ⟨_, v, -, hrest⟩ := of_bind_ok hrest
  obtain ⟨_, w, -, hrest⟩ := of_bind_ok hrest
  cases hrest
  exact stored_of_loadTensorData htiled hs.describes.1 hload

theorem ends_loadPersistentWeight_persisted (htiled : Tiled source.files)
    (hs : Under source gguf total s) (name : String) :
    Ends (loadPersistentWeight (R := R) name) s
      (fun r t => Under source gguf total t ∧ Persisted source.files gguf total name r.1)
      (fun _ _ => True) fun _ _ => True := by
  unfold loadPersistentWeight
  simp only [ends_bind, ends_self, ends_ofResult, ends_okOr]
  refine ⟨fun _ _ => trivial, fun desc hdesc => ⟨fun _ => trivial, fun fileBytes hbytes =>
    ⟨fun _ _ => trivial, fun resident hresident => ?_⟩⟩⟩
  have hfind : gguf.tensors.find? (fun t => t.name = name) = some desc := by
    have hmodel : s.1.2.2.model = gguf := hs.describes.2
    rw [← hmodel]
    have hget := Except.of_mapError_ok hdesc
    unfold GgufDataSource.getDescriptor at hget
    split at hget
    next found hfound =>
      cases hget
      exact hfound
    next => cases hget
  have hresident := Except.of_mapError_ok hresident
  have hplace : ∀ weight : PersistentWeight R, (if shouldKeepResident resident total then
      ∃ tensor, weight = .resident tensor ∧ Stored source.files desc tensor else weight = .streamed desc) →
      Persisted source.files gguf total name weight := fun weight hweight =>
    ⟨desc, fileBytes, resident, hfind, hbytes, hresident, hweight⟩
  rw [hs.total_eq]
  by_cases hkeep : shouldKeepResident resident total = true
  · have hallocate : ∀ charge (f : MemoryError → String), Keeps (Under source gguf total)
        (mapErr f (onSnd (MemoryBudget.allocate (weightCharge name) charge))) := fun charge f =>
      Keeps.mapErr (fun u hu => hu.of_step hu.describes (allocate_step hu.accounted _ _)) f
    simp only [hkeep, Bool.not_true, Bool.false_eq_true, if_false, ends_bind, ends_resume, ends_failIf]
    refine ⟨fun charge _ => ⟨fun _ => trivial, fun _ => ?_⟩, fun _ _ => trivial, fun _ _ => trivial⟩
    refine ((hallocate charge _).ends hs).mono (fun _ t ht => ?_) (fun _ _ _ => trivial)
      fun _ _ _ => trivial
    rw [ends_attempt]
    refine ((keeps_under_settlePersistent htiled desc name resident).ends_value ht
      fun tensor u hrun => stored_of_settlePersistent htiled ht hrun).mono (fun tensor u hu => ?_)
      (fun error u hu => ?_) fun _ _ _ => trivial
    · refine ⟨hu.1, hplace _ ?_⟩
      rw [if_pos hkeep]
      exact ⟨tensor, rfl, hu.2⟩
    · exact Ends.bind (ends_any _ u) fun _ _ _ => trivial
  · rw [Bool.not_eq_true] at hkeep
    simp only [hkeep, Bool.not_false, if_true]
    refine ⟨hs, hplace _ ?_⟩
    simp [hkeep]

/-! ## All weights -/

/-- The weights that a load of the metadata `gguf` has to find. -/
structure PersistentWeights.Of (files : List (GgufShardLayout × List UInt8)) (gguf : GgufModel)
    (total : Nat) (weights : PersistentWeights R) : Prop where
  tokenEmbd : Persisted files gguf total "token_embd.weight" weights.tokenEmbd
  outputNorm : Persisted files gguf total "output_norm.weight" weights.outputNorm
  output : if gguf.hasTensor "output.weight" then
      ∃ weight, weights.output = some weight ∧ Persisted files gguf total "output.weight" weight
    else weights.output = none

theorem PersistentWeights.Of.unique {files : List (GgufShardLayout × List UInt8)}
    {weights weights' : PersistentWeights R} (h : weights.Of files gguf total)
    (h' : weights'.Of files gguf total) : weights = weights' := by
  have houtput := h.output
  have houtput' := h'.output
  have hsame : weights.output = weights'.output := by
    split at houtput
    next hhas =>
      rw [if_pos hhas] at houtput'
      obtain ⟨weight, hweight, hpersisted⟩ := houtput
      obtain ⟨weight', hweight', hpersisted'⟩ := houtput'
      rw [hweight, hweight', hpersisted.unique hpersisted']
    next hhas =>
      rw [if_neg hhas] at houtput'
      exact houtput.trans houtput'.symm
  cases weights
  cases weights'
  cases h.tokenEmbd.unique h'.tokenEmbd
  cases h.outputNorm.unique h'.outputNorm
  cases hsame
  rfl

theorem ends_loadOwned_persisted (htiled : Tiled source.files)
    {s : List String × Host × MemoryBudget} (hs : Under source gguf total s.2) (name : String) :
    Ends (loadOwned (R := R) name) s
      (fun weight t => Under source gguf total t.2 ∧ Persisted source.files gguf total name weight)
      (fun _ _ => True) fun _ _ => True := by
  unfold loadOwned
  rw [ends_bind, ends_onSnd]
  exact (ends_loadPersistentWeight_persisted htiled hs name).mono (fun _ _ ht => ht)
    (fun _ _ _ => trivial) fun _ _ _ => trivial

theorem ends_loadPersistents_of (htiled : Tiled source.files) {s : List String × Host × MemoryBudget}
    (hs : Under source gguf total s.2) :
    Ends (loadPersistents (R := R) gguf) s (fun weights _ => weights.Of source.files gguf total)
      (fun _ _ => True) fun _ _ => True := by
  unfold loadPersistents
  refine (ends_loadOwned_persisted htiled hs _).bind fun tokenEmbd t hleft => ?_
  obtain ⟨ht, htoken⟩ := hleft
  refine (ends_loadOwned_persisted htiled ht _).bind fun outputNorm u hleft => ?_
  obtain ⟨hu, hnorm⟩ := hleft
  split
  next hhas =>
    refine (ends_loadOwned_persisted htiled hu _).bind fun output v hleft => ⟨htoken, hnorm, ?_⟩
    obtain ⟨-, houtput⟩ := hleft
    rw [if_pos hhas]
    exact ⟨output, rfl, houtput⟩
  next hhas =>
    refine ⟨htoken, hnorm, ?_⟩
    rw [if_neg hhas]

/-! ## The model -/

section loaded

variable [F32Narrow R] [FloatText]

/-- The model that a load of the metadata `gguf` under a budget of `total` bytes has to make. -/
structure StreamingLlamaModel.Of (files : List (GgufShardLayout × List UInt8)) (gguf : GgufModel)
    (total : Nat) (model : StreamingLlamaModel R) : Prop where
  config : LlamaConfig.fromGguf R gguf = .ok model.config
  weights : PersistentWeights.Of files gguf total
    { tokenEmbd := model.tokenEmbd, outputNorm := model.outputNorm, output := model.output }
  layerDescriptors : model.layerDescriptors = groupLayers gguf model.config.blockCount
  attnBiasPresent : model.attnBiasPresent = gguf.tensors.any fun t => Text.endsWith t.name ".attn_q.bias"

theorem ends_startUp_of (htiled : Tiled source.files) (hs : Under source gguf total s) :
    Ends (startUp R gguf) s (fun startup _ => LlamaConfig.fromGguf R gguf = .ok startup.config ∧
        startup.weights.Of source.files gguf total ∧
        startup.layerDescriptors = groupLayers gguf startup.config.blockCount)
      (fun _ _ => True) fun _ _ => True := by
  unfold startUp
  simp only [ends_bind, ends_resume, ends_withLocal, ends_attempt]
  refine ⟨fun config hconfig => ⟨fun _ _ => ⟨fun tables _ => ?_, fun _ _ => trivial, fun _ _ => trivial⟩,
    fun _ _ => trivial, fun _ _ => trivial⟩, fun _ _ => trivial, fun _ _ => trivial⟩
  refine (ends_loadPersistents_of htiled (s := ([], s)) hs).mono (fun weights t ht => ?_)
    (fun error t _ => ?_) fun _ _ _ => trivial
  · exact ⟨hconfig, ht, rfl⟩
  · exact Ends.bind (ends_any _ _) fun _ _ _ => trivial

theorem ends_loadInternal_of (htiled : Tiled source.files) (hs : Under source gguf total s)
    (runtimeConfig : Option RuntimeConfig) :
    Ends (loadInternal R runtimeConfig) s (fun loaded _ => loaded.1.Of source.files gguf total)
      (fun _ _ => True) fun _ _ => True := by
  unfold loadInternal
  rw [ends_bind, ends_self]
  simp only [show s.1.2.2.model = gguf from hs.describes.2]
  refine (ends_startUp_of htiled hs).bind fun startup t hstarted => ?_
  obtain ⟨hconfig, hweights, hlayers⟩ := hstarted
  exact (ends_any _ t).bind fun _ _ _ => ⟨hconfig, hweights, hlayers, rfl⟩

end loaded

/-! ## Calls on a loaded model -/

namespace StreamingLlamaModel

open Planner LayerLoad

theorem tiled_sampleHost {gguf : GgufModel} : Tiled (sampleHost gguf).2.2.files :=
  ⟨3168, .cons rfl (Nat.zero_le _) (.nil _)⟩

theorem serves_sampleHost {gguf : GgufModel} :
    OnHost (Serves (sampleHost gguf).2.2) (sampleHost gguf) := by
  refine .refl fun shard hshard p hp => ?_
  rw [List.mem_singleton.mp hshard] at hp ⊢
  exact Option.some.inj hp

theorem planned_of_loadSample {source : GgufDataSource} {model : StreamingLlamaModel ℚ}
    {s t : ResidencyStats × Host × MemoryBudget} (htiled : Tiled source.files)
    (hserves : OnHost (Serves source) s.2.1) (hacc : s.2.2.Accounted)
    (hmodel : loadSample s = (.ok model, t)) : Planned model := by
  obtain ⟨loaded, u, hload, hrest⟩ := of_bind_ok hmodel
  cases hrest
  exact ((@ends_loadInternal ℚ _ source s.2 _ sampleText htiled hserves hacc none).of_ok
    (of_onSnd_ok hload).1).planned

/-- The loaded sample, and a state that a first call may find. -/
theorem sound_sample {model : StreamingLlamaModel ℚ} {s : ResidencyStats × Host × MemoryBudget}
    (state : ForwardState ℚ) (capacity : Nat) (hmodel : loadSample (opened 10000) = (.ok model, s))
    (hhost : state.host = sampleHost sampleGguf) (hcache : state.cache = LayerCache.new capacity) :
    Planned model ∧ Sound (sampleHost sampleGguf).2.2 model (state, started.2) := by
  have hnew : MemoryBudget.new 10000 = .ok started.2 := rfl
  have hacc := (accounted_new (by decide) hnew).1
  refine ⟨planned_of_loadSample tiled_sampleHost serves_sampleHost hacc hmodel, ?_, idle_started, ?_,
    fun i e he => ?_⟩
  · rw [hcache]
    exact (noLayers_new hnew).coherent hacc capacity
  · rw [hhost]
    exact serves_sampleHost
  · rw [hcache] at he
    simp [LayerCache.new] at he

/-- The same state without a layer cache. -/
def uncached : ForwardState ℚ × MemoryBudget :=
  ({ started.1 with cache := LayerCache.new 0 }, started.2)

theorem exists_sampleForwardUncached : ∃ model s row t,
    loadSample (opened 10000) = (.ok model, s) ∧ sampleForward model uncached = (.ok row, t) :=
  exists_of_loadSample sampleForward (by decide +kernel)

/-- The model that reads every tensor on its own. -/
def individually (model : StreamingLlamaModel ℚ) : StreamingLlamaModel ℚ :=
  { model with
    readCoalescingEnabled := false
    groupedReadBufferReuseEnabled := false }

/-- The layer is loaded in one read. -/
theorem exists_coalescedLoad : ∃ model s weights t, loadSample (opened 10000) = (.ok model, s) ∧
    model.loadLayer 0 (opened 10000) = (.ok weights, t) :=
  exists_of_loadSample (fun model => model.loadLayer 0) (by decide +kernel)

theorem exists_individualLoad : ∃ model s weights t, loadSample (opened 10000) = (.ok model, s) ∧
    (individually model).loadLayer 0 (opened 5000) = (.ok weights, t) :=
  exists_of_loadSample (fun model => (individually model).loadLayer 0) (by decide +kernel)

variable {R : Type} [Zero R] [One R] [Add R] [Sub R] [Neg R] [Mul R] [Div R] [F32 R] [F32Math R]
  [F32Rotation R] {source : GgufDataSource} {machine : Machine} {model : StreamingLlamaModel R}
  {s s' t t' : ForwardState R × MemoryBudget} {hist : KvHistory R} {tokenId : UInt32} {pos : Nat}
  {out row row' : List R}

/-- Every layer that a call leaves in the cache is the one of the files. -/
theorem forward_sound (htiled : Tiled source.files) (hplanned : Planned model)
    (h : Sound source model s) (hst : KvCache.Stores s.1.kv hist) :
    Ends (model.forwardSingleStreaming machine tokenId pos out) s (fun _ => Sound source model)
      (fun _ => Sound source model) fun _ _ => True :=
  (ends_forward_known htiled hplanned h hst).mono (fun _ _ ht => .of_at rfl rfl ht.1)
    (fun _ _ ht => .of_at rfl rfl ht.1) fun _ _ hp => hp

theorem forward_sound_small : ∃ model s row t, loadSample (opened 10000) = (.ok model, s) ∧
    sampleForward model started = (.ok row, t) ∧ Sound (sampleHost sampleGguf).2.2 model t := by
  obtain ⟨model, s, row, t, hmodel, hrun⟩ := exists_sampleForward
  obtain ⟨hplanned, hsound⟩ := sound_sample started.1 4096 hmodel rfl rfl
  have hends := @forward_sound ℚ _ _ _ _ _ _ _ _ levelMath levelRotation (sampleHost sampleGguf).2.2
    sampleMachine model started .empty 3 0 (List.replicate 8 0) tiled_sampleHost hplanned hsound
    stores_started
  exact ⟨model, s, row, t, hmodel, hrun, hends.of_ok hrun⟩

/-- Two passes over the same files and the same K/V cache that both return have one result. -/
theorem forward_transparent (htiled : Tiled source.files) (hplanned : Planned model)
    (h : Sound source model s) (h' : Sound source model s') (hkv : s'.1.kv = s.1.kv)
    (hst : KvCache.Stores s.1.kv hist)
    (hrun : model.forwardSingleStreaming machine tokenId pos out s = (.ok row, t))
    (hrun' : model.forwardSingleStreaming machine tokenId pos out s' = (.ok row', t')) :
    row = row' ∧ t.1.kv = t'.1.kv := by
  have hends := (ends_forward_known htiled hplanned h hst).of_ok hrun
  have hends' := (ends_forward_known htiled hplanned h' (hkv ▸ hst)).of_ok hrun'
  rw [hkv] at hends'
  exact Completed.unique htiled hends.2 hends'.2.rebase

theorem forward_transparent_small : ∃ model s row t row' t',
    loadSample (opened 10000) = (.ok model, s) ∧ sampleForward model started = (.ok row, t) ∧
      sampleForward model uncached = (.ok row', t') ∧ row = row' ∧ t.1.kv = t'.1.kv := by
  obtain ⟨model, s, row, t, hmodel, hrun⟩ := exists_sampleForward
  obtain ⟨model', s', row', t', hmodel', hrun'⟩ := exists_sampleForwardUncached
  obtain rfl := loadSample_unique hmodel hmodel'
  obtain ⟨hplanned, hsound⟩ := sound_sample started.1 4096 hmodel rfl rfl
  obtain ⟨-, hsound'⟩ := sound_sample uncached.1 0 hmodel rfl rfl
  have hsame := @forward_transparent ℚ _ _ _ _ _ _ _ _ levelMath levelRotation
    (sampleHost sampleGguf).2.2 sampleMachine model started uncached t t' .empty 3 0
    (List.replicate 8 0) row row' tiled_sampleHost hplanned hsound hsound' rfl stores_started hrun hrun'
  exact ⟨model, s, row, t, row', t', hmodel, hrun, hrun', hsame⟩

end StreamingLlamaModel
end Ramforge
