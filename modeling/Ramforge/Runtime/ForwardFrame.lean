/-
What holds of the file, the caches and the charges at every step of a call on a model.

`Standing` says what is known, and `At` is the invariant.  Loading a layer makes it live;
keeping or releasing it ends that.  All other steps leave the invariant as it is.
-/
import Ramforge.Runtime.ForwardPass
import Ramforge.Runtime.HostInvariant
import Ramforge.Runtime.LayerCacheOwnership
import Ramforge.Runtime.LayerLoadAtomic

namespace Ramforge

open Rust Rust.Exec GgufDataSource MemoryBudget

/-! ## Names -/

/-- The prefix of the charges of layers that are loaded and not cached. -/
def loadedPrefix : String := "layer:"

/-- The charge is neither one of the layer cache nor one of a loaded layer. -/
structure Plain (name : String) : Prop where
  cache : Text.startsWith name LayerCache.allPrefix = false
  layer : Text.startsWith name loadedPrefix = false

theorem loadedPrefix_of_active {name : String} {i : Nat}
    (h : Text.startsWith name (LayerCache.activePrefix i) = true) :
    Text.startsWith name loadedPrefix = true := by
  refine Text.startsWith_trans h ?_
  rw [LayerCache.activePrefix, String.append_assoc]
  exact Text.startsWith_append _ _

theorem not_cache_of_layer {name : String} (h : Text.startsWith name loadedPrefix = true) :
    Text.startsWith name LayerCache.allPrefix = false := by
  by_contra hall
  rw [Bool.not_eq_false] at hall
  rcases Text.startsWith_or h hall with hor | hor
  · exact absurd hor (by decide)
  · exact absurd hor (by decide)

/-- What is known while calls on a model run. -/
structure Standing (R : Type) where
  /-- Of the file. -/
  file : List Answer × GgufDataSource → Prop
  /-- Of the weights of a layer. -/
  weights : Nat → StreamingLayerWeights R → Prop
  /-- Of the embedding of a token. -/
  embedding : Nat → List R → Prop
  /-- Of the output norm. -/
  norm : List R → Prop
  /-- Of the logits of a hidden state, in a buffer that holds others. -/
  logits : List R → List R → List R → Prop
  /-- Of the K/V cache. -/
  history : KvCache R → Prop
  /-- The budget whose charges stay. -/
  base : MemoryBudget

namespace Standing

variable {R : Type}

/-- `own` are the charges that the caller has opened, and `live` is the loaded layer. -/
structure At (f : Standing R) (own : List String) (live : Option Nat)
    (s : ForwardState R × MemoryBudget) : Prop where
  coherent : LayerCache.Coherent (s.1.cache, s.2)
  file : OnHost f.file s.1.host
  weights : ∀ (i : Nat) e, s.1.cache.entries[i]? = some e → f.weights i e.value
  history : f.history s.1.kv
  live : ∀ name, (s.2.get name).isSome → Text.startsWith name loadedPrefix = true →
    ∃ i, live = some i ∧ Text.startsWith name (LayerCache.activePrefix i) = true
  held : ∀ name ∈ own, Plain name ∧ (s.2.get name).isSome
  charges : ∀ name, Plain name → name ∉ own → s.2.get name = f.base.get name

variable {f : Standing R} {own : List String} {live : Option Nat}
  {s t : ForwardState R × MemoryBudget}

namespace At

theorem accounted (h : f.At own live s) : s.2.Accounted := h.coherent.accounted

theorem congr (h : f.At own live s) (hcache : t.1.cache = s.1.cache) (hhost : t.1.host = s.1.host)
    (hkv : t.1.kv = s.1.kv) (hb : t.2 = s.2) : f.At own live t := by
  obtain ⟨hcoherent, hfile, hweights, hhistory, hlive, hheld, hcharges⟩ := h
  exact ⟨by rw [hcache, hb]; exact hcoherent, by rw [hhost]; exact hfile,
    by rw [hcache]; exact hweights, by rw [hkv]; exact hhistory, by rw [hb]; exact hlive,
    by rw [hb]; exact hheld, by rw [hb]; exact hcharges⟩

/-- The charges are the same, and the file has been read. -/
theorem of_same (h : f.At own live s) (hcache : t.1.cache = s.1.cache)
    (hhost : OnHost f.file t.1.host) (hkv : t.1.kv = s.1.kv) (hb : Apart (fun _ => False) s.2 t.2) :
    f.At own live t := by
  have hget : ∀ name, t.2.get name = s.2.get name := fun name => hb.get_eq name (fun hf => hf)
  refine ⟨?_, hhost, ?_, ?_, fun name => ?_, fun name hname => ?_, fun name hplain hname => ?_⟩
  · exact h.coherent.of_frame hcache hb.accounted fun name _ => hget name
  · rw [hcache]
    exact h.weights
  · rw [hkv]
    exact h.history
  · rw [hget]
    exact h.live name
  · rw [hget]
    exact h.held name hname
  · rw [hget]
    exact h.charges name hplain hname

/-- The layer cache and its charges have changed. -/
theorem of_cache (h : f.At own live s) {c : LayerCache (StreamingLayerWeights R)} {b : MemoryBudget}
    (hcoherent : LayerCache.Coherent (c, b))
    (hweights : ∀ (i : Nat) e, c.entries[i]? = some e → f.weights i e.value)
    (hget : ∀ name, Text.startsWith name LayerCache.allPrefix = false → b.get name = s.2.get name) :
    f.At own live ({ s.1 with cache := c }, b) := by
  refine ⟨hcoherent, h.file, hweights, h.history, fun name hsome hlayer => ?_, fun name hname => ?_,
    fun name hplain hname => ?_⟩
  · refine h.live name ?_ hlayer
    rw [← hget name (not_cache_of_layer hlayer)]
    exact hsome
  · obtain ⟨hplain, hsome⟩ := h.held name hname
    refine ⟨hplain, ?_⟩
    show (b.get name).isSome
    rw [hget name hplain.cache]
    exact hsome
  · exact (hget name hplain.cache).trans (h.charges name hplain hname)

/-- One charge of the caller has changed. -/
theorem of_name (h : f.At own live s) {own' : List String} {name : String} {b : MemoryBudget}
    (hplain : Plain name) (hb : Apart (· = name) s.2 b)
    (hown : ∀ other, other ≠ name → (other ∈ own' ↔ other ∈ own))
    (hheld : name ∈ own' → (b.get name).isSome)
    (hcharges : name ∉ own' → b.get name = f.base.get name) : f.At own' live (s.1, b) := by
  have hcache : ∀ other, Text.startsWith other LayerCache.allPrefix = true → other ≠ name := by
    intro other hall he
    rw [he, hplain.cache] at hall
    cases hall
  have hlayer : ∀ other, Text.startsWith other loadedPrefix = true → other ≠ name := by
    intro other hunder he
    rw [he, hplain.layer] at hunder
    cases hunder
  refine ⟨h.coherent.of_frame rfl hb.accounted fun other hall => hb.get_eq other (hcache other hall),
    h.file, h.weights, h.history, fun other hsome hunder => h.live other ?_ hunder,
    fun other hmem => ?_, fun other hplain' hmem => ?_⟩
  · rw [← hb.get_eq other (hlayer other hunder)]
    exact hsome
  · by_cases he : other = name
    · rw [he] at hmem ⊢
      exact ⟨hplain, hheld hmem⟩
    · have hold := h.held other ((hown other he).mp hmem)
      rw [← hb.get_eq other he] at hold
      exact hold
  · by_cases he : other = name
    · rw [he] at hmem ⊢
      exact hcharges hmem
    · exact (hb.get_eq other he).trans (h.charges other hplain' fun hin => hmem ((hown other he).mpr hin))

theorem enter (h : f.At own live s) {name : String} {bytes : Nat} (hplain : Plain name)
    (hcharged : (s.2.charge name bytes).Accounted) :
    f.At (name :: own) live (s.1, s.2.charge name bytes) := by
  refine h.of_name hplain ⟨hcharged, fun other he => by rw [get_charge, if_neg he]⟩
    (fun other he => by simp [he]) (fun _ => ?_) fun hmem => absurd List.mem_cons_self hmem
  rw [get_charge, if_pos rfl]
  rfl

theorem leave {name : String} {n : Nat} (h : f.At (name :: own) live s) (hname : name ∉ own)
    (hbase : f.base.get name = none) (hget : s.2.get name = some n) :
    f.At own live (s.1, s.2.discharge name n) := by
  refine h.of_name (h.held name List.mem_cons_self).1
    ⟨accounted_discharge h.accounted hget, fun other he => by rw [get_discharge, if_neg he]⟩
    (fun other he => by simp [he]) (fun hmem => absurd hmem hname) fun _ => ?_
  rw [get_discharge, if_pos rfl, hbase]

theorem dropLayers (h : f.At own live s) (l : List Nat) :
    f.At own live
      ({ s.1 with cache := (LayerCache.dropLayers l (s.1.cache, s.2)).1 },
        (LayerCache.dropLayers l (s.1.cache, s.2)).2) := by
  refine h.of_cache (LayerCache.dropLayers_coherent h.coherent l) (fun i e he => ?_) fun name hname =>
    LayerCache.dropLayers_get h.coherent l hname
  rw [LayerCache.dropLayers_entries] at he
  split at he
  · cases he
  · exact h.weights i e he

end At

/-! ## Steps that keep the invariant -/

section keeps

open Running

variable {α : Type}

theorem keeps_onHost {m : Exec Host String α} (hm : Keeps (OnHost f.file) m) :
    Keeps (f.At own live) (onHost m : Running R α) := fun s hs =>
  hs.of_same rfl (hm s.1.host hs.file) rfl (.refl hs.accounted)

theorem keeps_onManaged {m : Managed α} (hm : ∀ b, Keeps (ReadsKeep.Neutral f.file b) m) :
    Keeps (f.At own live) (onManaged m : Running R α) := fun s hs =>
  have hleft := hm s.2 (s.1.host, s.2) ⟨hs.file, .refl hs.accounted⟩
  hs.of_same rfl hleft.1 rfl hleft.2

theorem keeps_count (g : LayerCacheStats → LayerCacheStats) : Keeps (f.At own live) (count g) :=
  fun _ hs => hs.congr rfl rfl rfl rfl

theorem keeps_recordCacheState : Keeps (f.At own live) recordCacheState :=
  fun _ hs => hs.congr rfl rfl rfl rfl

section recorded

variable {E : String → ForwardState R × MemoryBudget → Prop}
  {P : String → ForwardState R × MemoryBudget → Prop}

theorem ends_count (h : f.At own live s) (g : LayerCacheStats → LayerCacheStats) :
    Ends (count g) s (fun _ t => f.At own live t) E P :=
  h.congr rfl rfl rfl rfl

theorem ends_recordCacheState (h : f.At own live s) :
    Ends recordCacheState s (fun _ t => f.At own live t) E P :=
  h.congr rfl rfl rfl rfl

end recorded

theorem keeps_zeroedBuffer [Zero R] (len : Nat) (label : String) :
    Keeps (f.At own live) (zeroedBuffer (R := R) len label) :=
  (keeps_onHost (ReadsKeep.reserveBuffer label)).bind fun _ => .pure _

theorem keeps_clonedBuffer (source : List R) (label : String) :
    Keeps (f.At own live) (clonedBuffer source label) :=
  (keeps_onHost (ReadsKeep.reserveBuffer label)).bind fun _ => .pure _

theorem keeps_ensureLayerCacheHeadroom (requiredBytes : Nat) :
    Keeps (f.At own live) (StreamingLlamaModel.ensureLayerCacheHeadroom (R := R) requiredBytes) := by
  refine Keeps.bind (fun s hs => ?_) fun _ => (keeps_count _).bind fun _ => keeps_recordCacheState
  obtain ⟨k, hrun, -⟩ := LayerCache.evictUntilAvailable_run hs.coherent requiredBytes
  rw [onCache, onPart_run, hrun]
  exact hs.dropLayers _

/-- A call that acts on a charge of the caller only, and leaves it open. -/
theorem keeps_onOwn {m : Exec MemoryBudget String α} {name : String} (hname : name ∈ own)
    (hm : ∀ b, b.Accounted → (b.get name).isSome →
      Apart (· = name) b (m b).2 ∧ ((m b).2.get name).isSome) :
    Keeps (f.At own live) (onBudget m : Running R α) := by
  intro s hs
  obtain ⟨hplain, hsome⟩ := hs.held name hname
  obtain ⟨hapart, hleft⟩ := hm s.2 hs.accounted hsome
  exact hs.of_name hplain hapart (fun _ _ => Iff.rfl) (fun _ => hleft) fun hmem => absurd hname hmem

end keeps

/-- A temporary scope whose body may change its own charge. -/
theorem ends_withTemp {α : Type} {m : Running R α} {name : String} {bytes : Nat}
    {Q : α → ForwardState R → Prop} {E : String → ForwardState R → Prop}
    (h : f.At own live s) (hplain : Plain name) (hname : name ∉ own) (hpos : 0 < bytes)
    (hrefused : ∀ error, E error s.1)
    (hbody : ∀ t, t.1 = s.1 → f.At (name :: own) live t →
      Ends m t (fun a t => f.At (name :: own) live t ∧ Q a t.1)
        (fun e t => f.At (name :: own) live t ∧ E e t.1) fun _ _ => True) :
    Ends (MemoryBudget.withTemp MemoryError.display name bytes m) s
      (fun a t => f.At own live t ∧ Q a t.1) (fun e t => f.At own live t ∧ E e t.1)
      fun _ _ => True := by
  refine MemoryBudget.ends_withTemp h.accounted hpos (fun _ => ⟨h, hrefused _⟩) fun hnone hcharged => ?_
  have hbase : f.base.get name = none := (h.charges name hplain hname).symm.trans hnone
  have hleave : ∀ t : ForwardState R × MemoryBudget, f.At (name :: own) live t → t.2.Accounted ∧
      ∃ n, t.2.get name = some n ∧ f.At own live (t.1, t.2.discharge name n) := by
    intro t ht
    obtain ⟨n, hget⟩ := Option.isSome_iff_exists.mp (ht.held name List.mem_cons_self).2
    exact ⟨ht.accounted, n, hget, ht.leave hname hbase hget⟩
  refine (hbody (s.1, s.2.charge name bytes) rfl (h.enter hplain hcharged)).mono ?_ ?_
    fun _ _ _ => Or.inl fun _ _ => trivial
  · intro a t ⟨ht, hQ⟩
    obtain ⟨hacc, n, hget, hleft⟩ := hleave t ht
    exact ⟨hacc, n, hget, hleft, hQ⟩
  · intro e t ⟨ht, hE⟩
    obtain ⟨hacc, n, hget, hleft⟩ := hleave t ht
    exact ⟨hacc, n, hget, hleft, hE⟩

/-! ## Layers -/

section layers

open Running StreamingLlamaModel LayerCache

variable {i : Nat}

/-- The charges of the loaded layer are given back. -/
theorem At.released (h : f.At own (some i) s) {b : MemoryBudget}
    (hb : b = dischargeAll (s.2.namesUnder (activePrefix i)) s.2) (hacc : b.Accounted) :
    f.At own none (s.1, b) := by
  have hget : ∀ name, b.get name =
      if Text.startsWith name (activePrefix i) then none else s.2.get name := fun name => by
    rw [hb, get_dischargeUnder]
  have hother : ∀ name, Text.startsWith name (activePrefix i) = false → b.get name = s.2.get name :=
    fun name hname => by rw [hget, hname]; rfl
  have hplain : ∀ name, Plain name → Text.startsWith name (activePrefix i) = false := fun name hp =>
    Bool.eq_false_iff.mpr fun hactive => by
      have := hp.layer
      rw [loadedPrefix_of_active hactive] at this
      cases this
  refine ⟨h.coherent.of_frame rfl hacc fun name hall => hother name ?_, h.file, h.weights, h.history,
    fun name hsome hunder => ?_, fun name hname => ?_, fun name hp hname => ?_⟩
  · refine Bool.eq_false_iff.mpr fun hactive => ?_
    rw [allPrefix_of_active hactive] at hall
    cases hall
  · rw [hget] at hsome
    split at hsome
    next => cases hsome
    next hactive =>
      obtain ⟨j, hj, hunder⟩ := h.live name hsome hunder
      cases hj
      exact absurd hunder hactive
  · have hold := h.held name hname
    rw [← hother name (hplain name hold.1)] at hold
    exact hold
  · exact (hother name (hplain name hp)).trans (h.charges name hp hname)

theorem ends_releaseLayer {E : String → ForwardState R × MemoryBudget → Prop}
    {P : String → ForwardState R × MemoryBudget → Prop} (h : f.At own (some i) s) :
    Ends (onLayer (releaseLayer i)) s (fun _ t => f.At own none t) E P := by
  have hrun := releaseLayer_run (ε := String) (s := (s.1.stats, s.1.host, s.2)) i h.accounted
  rw [onLayer, ends_onPart, ends_of_ok hrun]
  refine (h.released rfl ?_).congr rfl rfl rfl rfl
  exact dischargeAll_accounted h.accounted (nodup_namesUnder _ _) fun _ hn => isSome_of_mem_namesUnder hn

/-- Charges of one layer have been added to none. -/
theorem At.loaded (h : f.At own none s) {b : MemoryBudget} (hb : Outside (activePrefix i) s.2 b) :
    f.At own (some i) (s.1, b) := by
  have hplain : ∀ name, Plain name → Text.startsWith name (activePrefix i) = false := fun name hp =>
    Bool.eq_false_iff.mpr fun hactive => by
      have := hp.layer
      rw [loadedPrefix_of_active hactive] at this
      cases this
  refine ⟨h.coherent.of_frame rfl hb.accounted fun name hall => hb.get_eq name ?_, h.file, h.weights,
    h.history, fun name hsome hunder => ⟨i, rfl, ?_⟩, fun name hname => ?_, fun name hp hname => ?_⟩
  · refine Bool.eq_false_iff.mpr fun hactive => ?_
    rw [allPrefix_of_active hactive] at hall
    cases hall
  · by_contra hactive
    have hsome' : (s.2.get name).isSome := by
      rw [← hb.get_eq name (Bool.eq_false_iff.mpr hactive)]
      exact hsome
    obtain ⟨j, hj, -⟩ := h.live name hsome' hunder
    cases hj
  · have hold := h.held name hname
    rw [← hb.get_eq name (hplain name hold.1)] at hold
    exact hold
  · exact (hb.get_eq name (hplain name hp)).trans (h.charges name hp hname)

variable [F32 R] [Zero R] [Sub R] [Mul R] {model : StreamingLlamaModel R}

variable (model) in
/-- A load leaves the charges outside its prefix as they were. -/
theorem loadLayer_outside (i : Nat) (b : MemoryBudget) :
    Keeps (fun s : ResidencyStats × Host × MemoryBudget => Outside (activePrefix i) b s.2.2)
      (model.loadLayer i) := by
  have hrelease : Keeps (fun s : ResidencyStats × Host × MemoryBudget =>
      Outside (activePrefix i) b s.2.2) (releaseLayer (ε := String) i) := by
    intro s hs
    rw [releaseLayer_run i hs.accounted]
    refine ⟨dischargeAll_accounted hs.accounted (nodup_namesUnder _ _)
      fun _ hn => isSome_of_mem_namesUnder hn, fun name hname => ?_⟩
    show (dischargeAll (s.2.2.namesUnder (activePrefix i)) s.2.2).get name = b.get name
    rw [get_dischargeUnder, hname]
    exact hs.get_eq name hname
  refine (Keeps.okOr _ _).bind fun layer => (Keeps.expect _ _).bind fun plan =>
    (ReadsKeep.readPath (I := fun s => Outside (activePrefix i) b s.2) i model plan).onSnd.bind fun path =>
      (Keeps.attempt ((LayerLoad.loadTensors_confined i layer plan path) b).onSnd).bind fun r => ?_
  cases r with
  | error error => exact hrelease.bind fun _ => .throw _
  | ok l =>
    refine Keeps.bind (fun _ hs => hs) fun _ => (Keeps.attempt (Keeps.resume _)).bind fun r => ?_
    cases r with
    | error error => exact hrelease.bind fun _ => .throw _
    | ok weights => exact .pure _

theorem ends_loadLayer (h : f.At own none s) (hreads : ReadsKeep f.file)
    (hloads : ∀ s w t, OnHost f.file s.2.1 → s.2.2.Accounted → model.loadLayer i s = (.ok w, t) →
      f.weights i w) :
    Ends (onLayer (model.loadLayer i)) s (fun w t => f.weights i w ∧ f.At own (some i) t)
      (fun _ t => f.At own none t) fun _ _ => True := by
  let s' : ResidencyStats × Host × MemoryBudget := (s.1.stats, s.1.host, s.2)
  rw [onLayer, ends_onPart]
  have hfile := hreads.loadLayer i model s' h.file
  have hout := loadLayer_outside model i s.2 s' ⟨h.accounted, fun _ _ => rfl⟩
  have hplace : ∀ (t : ResidencyStats × Host × MemoryBudget) live, OnHost f.file t.2.1 →
      f.At own live (s.1, t.2.2) → f.At own live ({ s.1 with stats := t.1, host := t.2.1 }, t.2.2) :=
    fun t live hhost ht => ⟨ht.coherent, hhost, ht.weights, ht.history, ht.live, ht.held, ht.charges⟩
  unfold Ends
  rcases hrun : model.loadLayer i s' with ⟨w | error | p, t⟩ <;> rw [hrun] at hfile hout
  · exact ⟨hloads s' w t h.file h.accounted hrun, hplace t _ hfile (h.loaded hout)⟩
  · refine hplace t _ hfile ?_
    rcases Nat.lt_or_ge i model.layerDescriptors.length with hlt | hge
    · obtain ⟨b, houtside, hb⟩ := (loadLayer_ends model h.accounted hlt).of_err hrun
      exact (h.loaded houtside).released hb (hb ▸ hout.accounted)
    · unfold loadLayer at hrun
      rw [List.getElem?_eq_none hge, okOr_none, throw_bind_run] at hrun
      cases hrun
      exact h
  · trivial

end layers

section retain

open Running LayerCache

variable {i : Nat}

/-- A layer that is taken over has no charges of its own left. -/
theorem get_adopted {α : Type} {c : LayerCache α × MemoryBudget} (h : Coherent c)
    (hnew : c.1.entries[i]? = none) (value : α) (bytes : Nat) (name : String)
    (hall : Text.startsWith name allPrefix = false) :
    (LayerCache.adopted i value bytes c).2.get name =
      if Text.startsWith name (activePrefix i) then none else c.2.get name := by
  have hm := takeover_movable h hnew
  have htarget : name ∉ (takeover c.2 i).map Prod.snd := by
    intro hmem
    obtain ⟨p, hp, rfl⟩ := List.mem_map.mp hmem
    rw [startsWith_allPrefix (under_of_takeover hp).2] at hall
    cases hall
  by_cases hactive : Text.startsWith name (activePrefix i) = true
  · rw [if_pos hactive]
    by_cases hsome : (c.2.get name).isSome
    · exact get_move_source hm (p := (name, renamed (activePrefix i) (cachePrefix i) name))
        (List.mem_map.mpr ⟨name, mem_namesUnder.mpr ⟨hsome, hactive⟩, rfl⟩)
    · refine (get_move_other hm (fun hmem => hsome ?_) htarget).trans
        (Option.not_isSome_iff_eq_none.mp hsome)
      rw [takeover, map_fst_renames] at hmem
      exact (mem_namesUnder.mp hmem).1
  · rw [if_neg hactive]
    refine get_move_other hm (fun hmem => hactive ?_) htarget
    obtain ⟨p, hp, rfl⟩ := List.mem_map.mp hmem
    exact (under_of_takeover hp).1

theorem At.adopted (h : f.At own (some i) s) {w : StreamingLayerWeights R} {bytes : Nat}
    (hw : f.weights i w) (hnew : s.1.cache.entries[i]? = none)
    (hbytes : s.2.sumUnder (activePrefix i) = bytes)
    (hfit : s.1.cache.usedBytes + bytes ≤ s.1.cache.capacityBytes) :
    f.At own none ({ s.1 with cache := (LayerCache.adopted i w bytes (s.1.cache, s.2)).1 },
      (LayerCache.adopted i w bytes (s.1.cache, s.2)).2) := by
  have hget := fun name hall => get_adopted h.coherent hnew w bytes name hall
  have hplain : ∀ name, Plain name →
      (LayerCache.adopted i w bytes (s.1.cache, s.2)).2.get name = s.2.get name := by
    intro name hp
    rw [hget name hp.cache, if_neg fun hactive => ?_]
    have := hp.layer
    rw [loadedPrefix_of_active hactive] at this
    cases this
  refine ⟨adopted_coherent h.coherent hnew w hbytes hfit, h.file, fun j e he => ?_, h.history,
    fun name hsome hunder => ?_, fun name hname => ?_, fun name hp hname => ?_⟩
  · have he' : (s.1.cache.entries.insert i _)[j]? = some e := he
    rw [MapSum.getElem?_insert'] at he'
    split at he'
    next heq =>
      cases he'
      rw [heq]
      exact hw
    next => exact h.weights j e he'
  · rw [hget name (not_cache_of_layer hunder)] at hsome
    split at hsome
    next => cases hsome
    next hactive =>
      obtain ⟨j, hj, hunder⟩ := h.live name hsome hunder
      cases hj
      exact absurd hunder hactive
  · have hold := h.held name hname
    rw [← hplain name hold.1] at hold
    exact hold
  · exact (hplain name hp).trans (h.charges name hp hname)

/-- An insertion takes the layer over, or leaves everything as it was. -/
theorem ends_insertLoaded (h : f.At own (some i) s) {w : StreamingLayerWeights R} (hw : f.weights i w)
    (bytes : Nat) :
    Ends (onCache (insertLoaded i w bytes)) s
      (fun r t => match r with
        | .cached _ => f.At own none t
        | .skipped _ _ => f.At own (some i) t) (fun _ _ => False) fun _ _ => False := by
  rw [onCache, ends_onPart]
  rcases insertLoaded_run h.coherent i w bytes with ⟨hskip, -⟩ | ⟨-, -, hbytes, k, -, hfit, hrun⟩
  · exact (ends_of_ok hskip).mpr h
  · rw [← dropLayers_evictedBy] at hrun hfit
    refine (ends_of_ok hrun).mpr ((h.dropLayers (evictedBy (s.1.cache, s.2) i k)).adopted hw ?_ ?_ ?_)
    · show (LayerCache.dropLayers (evictedBy (s.1.cache, s.2) i k) (s.1.cache, s.2)).1.entries[i]? = none
      rw [dropLayers_evictedBy]
      exact evicted_gone i k
    · show (LayerCache.dropLayers (evictedBy (s.1.cache, s.2) i k) (s.1.cache, s.2)).2.sumUnder _ = _
      rw [dropLayers_evictedBy, evicted_sumUnder h.coherent, hbytes]
    · show (LayerCache.dropLayers (evictedBy (s.1.cache, s.2) i k) (s.1.cache, s.2)).1.usedBytes + _ ≤ _
      rw [dropLayers_capacity]
      exact hfit

/-- A look at an entry gives what its weights give, and moves the entry to the front. -/
theorem ends_withEntry {ρ : Type} (h : f.At own live s) (i : Nat) (use : StreamingLayerWeights R → ρ)
    {E : String → ForwardState R × MemoryBudget → Prop}
    {P : String → ForwardState R × MemoryBudget → Prop} :
    Ends (onCache (onFst (LayerCache.withEntry i use))) s
      (fun r t => f.At own live t ∧ ∀ x, r = some x → ∃ w, f.weights i w ∧ x = use w) E P := by
  obtain ⟨r, t, hrun, hcoherent, -⟩ := withEntry_coherent h.coherent i
  rw [onFst_run, LayerCache.withEntry, self_bind_run, Std.ExtTreeMap.contains_eq_isSome_getElem?]
    at hrun
  rw [onCache, ends_onPart, ends_onFst, LayerCache.withEntry, ends_bind, ends_self,
    Std.ExtTreeMap.contains_eq_isSome_getElem?]
  cases he : s.1.cache.entries[i]? with
  | none => exact ⟨h.congr rfl rfl rfl rfl, fun x hx => by cases hx⟩
  | some e =>
    have hsome : (s.1.cache.entries[i]?).isSome = true := by rw [he]; rfl
    rw [if_pos hsome] at hrun
    rw [← (Prod.mk.inj hrun).2] at hcoherent
    refine ⟨h.of_cache hcoherent h.weights fun _ _ => rfl, fun x hx => ⟨e.value, h.weights i e he, ?_⟩⟩
    exact (Option.some.inj hx).symm

end retain

end Standing
end Ramforge
