/-
The fingerprint of a model, and the bytes that are hashed for it.

The strings are hashed behind their lengths and the numbers in eight bytes each, but the
dimensions of a tensor stand without their count before the next tensor.
-/
import Ramforge.Core.Gguf
import Ramforge.Runtime.LlamaConfig
import Ramforge.Runtime.PlannerCalibration

namespace Ramforge

open Rust

/-- The part of `ModelInfo` that is hashed. -/
structure ModelInfo where
  architecture : Option String
  contextLength : Option Nat
  embeddingLength : Option Nat
  blockCount : Option Nat
  headCount : Option Nat
  headCountKv : Option Nat
  expertCount : Option Nat
  expertUsedCount : Option Nat
  fileType : Option Nat
  tokenizerModel : Option String
  vocabSize : Option Nat
  name : Option String
deriving DecidableEq, Repr

namespace GgufModel

def getU64 (model : GgufModel) (key : String) : Option Nat :=
  (model.getMetadata key).bind MetadataValue.asU64

def getString (model : GgufModel) (key : String) : Option String :=
  (model.getMetadata key).bind MetadataValue.asString

def info [FloatText] (model : GgufModel) : ModelInfo :=
  let arch := model.architecture.getD "unknown"
  let tryArchKey := fun suffix => model.getU64 (arch ++ "." ++ suffix)
  { architecture := model.architecture
    contextLength := ((tryArchKey "context_length").or (model.getU64 "general.context_length")).or
      (model.getU64 "llama.context_length")
    embeddingLength := ((tryArchKey "embedding_length").or
      (model.getU64 "general.embedding_length")).or (model.getU64 "llama.embedding_length")
    blockCount := ((tryArchKey "block_count").or (model.getU64 "general.block_count")).or
      (model.getU64 "llama.block_count")
    headCount := ((tryArchKey "attention.head_count").or
      (model.getU64 "llama.attention.head_count")).or (model.getU64 "general.attention.head_count")
    headCountKv := (tryArchKey "attention.head_count_kv").or
      (model.getU64 "llama.attention.head_count_kv")
    expertCount := ((tryArchKey "expert_count").or (model.getU64 "llama.expert_count")).or
      (tryArchKey "experts_count")
    expertUsedCount := (tryArchKey "expert_used_count").or (model.getU64 "llama.expert_used_count")
    fileType := (model.getU64 "general.file_type").map (· % 2 ^ 32)
    tokenizerModel := (model.getString "tokenizer.ggml.model").or
      (model.getString "general.tokenizer_model")
    vocabSize := LlamaConfig.tokenCount model
    name := model.getString "general.name" }

end GgufModel

namespace ModelInfo

/-- The strings that are hashed, in their order. -/
def strings (info : ModelInfo) : List String :=
  [info.architecture.getD "", info.name.getD "", info.tokenizerModel.getD ""]

/-- The numbers that are hashed, in their order. -/
def numbers (info : ModelInfo) : List Nat :=
  [info.contextLength, info.embeddingLength, info.blockCount, info.headCount, info.headCountKv,
    info.expertCount, info.expertUsedCount, info.fileType, info.vocabSize].map
      fun value => value.getD (u64Bound - 1)

end ModelInfo

namespace Planner

def fingerprintTensor (hash : UInt64) (tensor : TensorDescriptor) : UInt64 :=
  let hash := fingerprintStr hash tensor.name
  let hash := fingerprintU64 hash tensor.ggmlType.asU32
  let hash := fingerprintU64 hash tensor.offset
  let hash := fingerprintU64 hash (tensor.byteLength.getD (u64Bound - 1))
  let hash := fingerprintU64 hash tensor.numElements
  tensor.dimensions.foldl fingerprintU64 hash

def modelDescriptorFingerprint [FloatText] (model : GgufModel) : UInt64 :=
  let hash := fingerprintU64 fingerprintStart model.version
  let hash := fingerprintU64 hash model.fileSize
  let hash := fingerprintU64 hash model.alignment
  let hash := model.info.strings.foldl fingerprintStr hash
  let hash := model.info.numbers.foldl fingerprintU64 hash
  model.tensors.foldl fingerprintTensor hash

/-! ## What is hashed -/

def strBytes (value : String) : List UInt8 :=
  LittleEndian.toBytes 8 value.utf8ByteSize ++ value.toByteArray.data.toList

def tensorBytes (tensor : TensorDescriptor) : List UInt8 :=
  strBytes tensor.name ++
    ([tensor.ggmlType.asU32, tensor.offset, tensor.byteLength.getD (u64Bound - 1),
      tensor.numElements].flatMap (LittleEndian.toBytes 8) ++
    tensor.dimensions.flatMap (LittleEndian.toBytes 8))

/-- The bytes that go through the hasher, in their order. -/
def fingerprintInput [FloatText] (model : GgufModel) : List UInt8 :=
  [model.version, model.fileSize, model.alignment].flatMap (LittleEndian.toBytes 8) ++
    (model.info.strings.flatMap strBytes ++
      (model.info.numbers.flatMap (LittleEndian.toBytes 8) ++ model.tensors.flatMap tensorBytes))

theorem fingerprintStr_eq (hash : UInt64) (value : String) :
    fingerprintStr hash value = (strBytes value).foldl fingerprintByte hash := by
  rw [fingerprintStr, fingerprintU64, strBytes, List.foldl_append]

theorem foldl_fingerprintU64 (hash : UInt64) (values : List Nat) :
    values.foldl fingerprintU64 hash =
      (values.flatMap (LittleEndian.toBytes 8)).foldl fingerprintByte hash := by
  rw [List.foldl_flatMap]
  rfl

theorem fingerprintTensor_eq (hash : UInt64) (tensor : TensorDescriptor) :
    fingerprintTensor hash tensor = (tensorBytes tensor).foldl fingerprintByte hash := by
  rw [tensorBytes, List.foldl_append, List.foldl_append, ← fingerprintStr_eq, ← foldl_fingerprintU64,
    ← foldl_fingerprintU64]
  simp only [List.foldl_cons, List.foldl_nil, fingerprintTensor]

/-- The fingerprint is the hash of these bytes and of nothing else. -/
theorem modelDescriptorFingerprint_eq [FloatText] (model : GgufModel) :
    modelDescriptorFingerprint model =
      (fingerprintInput model).foldl fingerprintByte fingerprintStart := by
  have hstrings : ∀ hash, model.info.strings.foldl fingerprintStr hash =
      (model.info.strings.flatMap strBytes).foldl fingerprintByte hash := by
    intro hash
    rw [List.foldl_flatMap]
    exact congrArg (fun f => List.foldl f hash _) (funext₂ fingerprintStr_eq)
  have htensors : ∀ hash, model.tensors.foldl fingerprintTensor hash =
      (model.tensors.flatMap tensorBytes).foldl fingerprintByte hash := by
    intro hash
    rw [List.foldl_flatMap]
    exact congrArg (fun f => List.foldl f hash _) (funext₂ fingerprintTensor_eq)
  rw [fingerprintInput, List.foldl_append, List.foldl_append, List.foldl_append, ← htensors,
    ← foldl_fingerprintU64, ← hstrings, ← foldl_fingerprintU64]
  simp only [List.foldl_cons, List.foldl_nil, modelDescriptorFingerprint]

/-! ## Reading it back -/

/-- The descriptor has values of its fields' types, and an element type that is read from a file. -/
structure TypedTensor (tensor : TensorDescriptor) : Prop where
  name : tensor.name.utf8ByteSize < 256 ^ 8
  element : GgmlType.fromU32 tensor.ggmlType.asU32 = tensor.ggmlType
  asU32 : tensor.ggmlType.asU32 < 256 ^ 8
  offset : tensor.offset < 256 ^ 8
  byteLength : tensor.byteLength.getD (u64Bound - 1) < 256 ^ 8
  numElements : tensor.numElements < 256 ^ 8
  dimensions : ∀ d ∈ tensor.dimensions, d < 256 ^ 8

theorem strBytes_append_inj {s t : String} {xs ys : List UInt8} (hs : s.utf8ByteSize < 256 ^ 8)
    (ht : t.utf8ByteSize < 256 ^ 8) (h : strBytes s ++ xs = strBytes t ++ ys) : s = t ∧ xs = ys := by
  rw [strBytes, strBytes, List.append_assoc, List.append_assoc] at h
  obtain ⟨hlen, h⟩ := LittleEndian.toBytes_append_inj hs ht h
  obtain ⟨hbytes, hrest⟩ := List.append_inj h hlen
  exact ⟨String.toByteArray_inj.mp (ByteArray.ext (Array.toList_inj.mp hbytes)), hrest⟩

/-- All of a descriptor but its dimensions is read off the front. -/
theorem tensorBytes_append_inj {t t' : TensorDescriptor} {xs ys : List UInt8} (ht : TypedTensor t)
    (ht' : TypedTensor t') (h : tensorBytes t ++ xs = tensorBytes t' ++ ys) :
    t.name = t'.name ∧ t.ggmlType = t'.ggmlType ∧ t.offset = t'.offset ∧
      t.numElements = t'.numElements ∧
      t.dimensions.flatMap (LittleEndian.toBytes 8) ++ xs =
        t'.dimensions.flatMap (LittleEndian.toBytes 8) ++ ys := by
  rw [tensorBytes, tensorBytes, List.append_assoc, List.append_assoc, List.append_assoc,
    List.append_assoc] at h
  obtain ⟨hname, h⟩ := strBytes_append_inj ht.name ht'.name h
  have hbound : ∀ {t : TensorDescriptor}, TypedTensor t → ∀ m ∈ [t.ggmlType.asU32, t.offset,
      t.byteLength.getD (u64Bound - 1), t.numElements], m < 256 ^ 8 := by
    intro t ht m hm
    simp only [List.mem_cons, List.not_mem_nil, or_false] at hm
    rcases hm with rfl | rfl | rfl | rfl
    · exact ht.asU32
    · exact ht.offset
    · exact ht.byteLength
    · exact ht.numElements
  obtain ⟨hnumbers, hrest⟩ := LittleEndian.flatMap_toBytes_append_inj (hbound ht) (hbound ht') rfl h
  simp only [List.cons.injEq, and_true] at hnumbers
  obtain ⟨htype, hoffset, -, hnum⟩ := hnumbers
  exact ⟨hname, by rw [← ht.element, htype, ht'.element], hoffset, hnum, hrest⟩

end Planner

namespace GgufModel

/-- What a descriptor says of a tensor in the file. -/
def descriptors (model : GgufModel) : List (String × List Nat × GgmlType × Nat) :=
  model.tensors.map fun tensor => (tensor.name, tensor.dimensions, tensor.ggmlType, tensor.offset)

/-- The numbers of dimensions of the tensors. -/
def ranks (model : GgufModel) : List Nat := model.tensors.map fun tensor => tensor.dimensions.length

/-- Every number and string that is hashed is of its type. -/
structure TypedModel [FloatText] (model : GgufModel) : Prop where
  header : ∀ n ∈ [model.version, model.fileSize, model.alignment], n < 256 ^ 8
  strings : ∀ s ∈ model.info.strings, s.utf8ByteSize < 256 ^ 8
  numbers : ∀ n ∈ model.info.numbers, n < 256 ^ 8
  tensors : ∀ tensor ∈ model.tensors, Planner.TypedTensor tensor

/-- No dimension can be added or taken away without notice: the element counts are the
products of the dimensions and neither zero nor the mark of an overflow, and no name is
one byte long. -/
structure CountsTell (tensor : TensorDescriptor) : Prop where
  product : tensor.numElements = Gguf.numElementsOf tensor.dimensions
  ne_zero : tensor.numElements ≠ 0
  ne_max : tensor.numElements ≠ u64Bound - 1
  name : tensor.name.utf8ByteSize ≠ 1

open Planner

theorem strings_append_inj {ss ts : List String} {xs ys : List UInt8}
    (hs : ∀ s ∈ ss, s.utf8ByteSize < 256 ^ 8) (ht : ∀ t ∈ ts, t.utf8ByteSize < 256 ^ 8)
    (hlen : ss.length = ts.length) (h : ss.flatMap strBytes ++ xs = ts.flatMap strBytes ++ ys) :
    xs = ys := by
  induction ss generalizing ts with
  | nil =>
    rw [List.length_nil, eq_comm, List.length_eq_zero_iff] at hlen
    subst hlen
    exact h
  | cons s ss ih =>
    cases ts with
    | nil => cases hlen
    | cons t ts =>
      rw [List.flatMap_cons, List.flatMap_cons, List.append_assoc, List.append_assoc] at h
      obtain ⟨-, hrest⟩ := strBytes_append_inj (hs s List.mem_cons_self) (ht t List.mem_cons_self) h
      exact ih (fun k hk => hs k (List.mem_cons_of_mem _ hk))
        (fun k hk => ht k (List.mem_cons_of_mem _ hk)) (Nat.succ.inj hlen) hrest

/-- What is hashed of the tensors is found behind the metadata. -/
theorem tensors_of_input [FloatText] {model model' : GgufModel} (h : model.TypedModel)
    (h' : model'.TypedModel) (hinput : fingerprintInput model = fingerprintInput model') :
    model.tensors.flatMap tensorBytes = model'.tensors.flatMap tensorBytes := by
  rw [fingerprintInput, fingerprintInput] at hinput
  obtain ⟨-, hinput⟩ := LittleEndian.flatMap_toBytes_append_inj h.header h'.header rfl hinput
  have hinput := strings_append_inj h.strings h'.strings rfl hinput
  exact (LittleEndian.flatMap_toBytes_append_inj h.numbers h'.numbers rfl hinput).2

/-! ## Where the numbers of dimensions agree -/

section lists

variable {tensors tensors' : List TensorDescriptor}

theorem descriptors_of_ranks (h : ∀ t ∈ tensors, TypedTensor t) (h' : ∀ t ∈ tensors', TypedTensor t)
    (hranks : tensors.map (fun t => t.dimensions.length) = tensors'.map fun t => t.dimensions.length)
    (hbytes : tensors.flatMap tensorBytes = tensors'.flatMap tensorBytes) :
    tensors.map (fun t => (t.name, t.dimensions, t.ggmlType, t.offset)) =
      tensors'.map fun t => (t.name, t.dimensions, t.ggmlType, t.offset) := by
  induction tensors generalizing tensors' with
  | nil =>
    cases tensors' with
    | nil => rfl
    | cons t' tensors' => cases hranks
  | cons t tensors ih =>
    cases tensors' with
    | nil => cases hranks
    | cons t' tensors' =>
      have ht := h t List.mem_cons_self
      have ht' := h' t' List.mem_cons_self
      rw [List.map_cons, List.map_cons] at hranks ⊢
      obtain ⟨hrank, hranks⟩ := List.cons.inj hranks
      rw [List.flatMap_cons, List.flatMap_cons] at hbytes
      obtain ⟨hname, htype, hoffset, -, hrest⟩ := tensorBytes_append_inj ht ht' hbytes
      obtain ⟨hdims, hrest⟩ :=
        LittleEndian.flatMap_toBytes_append_inj ht.dimensions ht'.dimensions hrank hrest
      rw [hname, hdims, htype, hoffset]
      exact congrArg _ (ih (fun k hk => h k (List.mem_cons_of_mem _ hk))
        (fun k hk => h' k (List.mem_cons_of_mem _ hk)) hranks hrest)

/-! ## Where the counts tell the numbers of dimensions -/

theorem foldlM_checkedMul {ds : List Nat} {a n : Nat}
    (h : ds.foldlM (fun acc d => checkedMul acc d) a = some n) : n = a * ds.prod := by
  induction ds generalizing a with
  | nil =>
    rw [List.prod_nil, Nat.mul_one]
    exact (Option.some.inj h).symm
  | cons d ds ih =>
    rw [List.foldlM_cons] at h
    obtain ⟨b, hb, h⟩ := Option.bind_eq_some_iff.mp h
    rw [List.prod_cons, ← Nat.mul_assoc, ← (checkedMul_eq_some.mp hb).2]
    exact ih h

theorem prod_of_numElementsOf {ds : List Nat} (h : Gguf.numElementsOf ds ≠ u64Bound - 1) :
    Gguf.numElementsOf ds = ds.prod := by
  rw [Gguf.numElementsOf] at h ⊢
  split
  next hnil => rw [hnil, List.prod_nil]
  next hne =>
    rw [if_neg hne] at h
    cases hfold : ds.foldlM (fun acc d => checkedMul acc d) 1 with
    | none =>
      rw [hfold] at h
      exact absurd rfl h
    | some n =>
      rw [foldlM_checkedMul hfold, Nat.one_mul]
      rfl

/-- A tensor whose dimensions go on is followed by a name of one byte. -/
theorem ranks_of_longer {t t' next : TensorDescriptor} {extra : List Nat} {xs ys : List UInt8}
    (hcount : CountsTell t) (hcount' : CountsTell t') (hnum : t.numElements = t'.numElements)
    (hextra : t'.dimensions = t.dimensions ++ extra) (hbound : ∀ d ∈ extra, d < 256 ^ 8)
    (hne : extra ≠ []) (hnext : next.name.utf8ByteSize < 256 ^ 8)
    (h : tensorBytes next ++ xs = extra.flatMap (LittleEndian.toBytes 8) ++ ys) :
    next.name.utf8ByteSize = 1 := by
  obtain ⟨d, extra, rfl⟩ := List.exists_cons_of_ne_nil hne
  rw [tensorBytes, strBytes, List.append_assoc, List.append_assoc, List.flatMap_cons,
    List.append_assoc] at h
  obtain ⟨hd, -⟩ := LittleEndian.toBytes_append_inj hnext (hbound d List.mem_cons_self) h
  have hprod : t.dimensions.prod = t.dimensions.prod * (d * extra.prod) := by
    have ht := prod_of_numElementsOf (hcount.product ▸ hcount.ne_max)
    have ht' := prod_of_numElementsOf (hcount'.product ▸ hcount'.ne_max)
    rw [← hcount.product] at ht
    rw [← hcount'.product, ← hnum, hextra, List.prod_append, List.prod_cons] at ht'
    rw [← ht', ht]
  have hpos : 0 < t.dimensions.prod := by
    have ht := prod_of_numElementsOf (hcount.product ▸ hcount.ne_max)
    rw [← ht, ← hcount.product]
    exact Nat.pos_of_ne_zero hcount.ne_zero
  have hone : d * extra.prod = 1 :=
    Nat.eq_of_mul_eq_mul_left hpos (by rw [← hprod, Nat.mul_one])
  rw [hd]
  exact Nat.eq_one_of_mul_eq_one_right hone

/-- No dimensions are left over against the descriptors that follow. -/
theorem rank_le {t t' : TensorDescriptor} {ys : List UInt8} (ht : TypedTensor t)
    (ht' : TypedTensor t') (hcount : CountsTell t) (hcount' : CountsTell t')
    (hnum : t.numElements = t'.numElements) (hrest : ∀ k ∈ tensors, TypedTensor k ∧ CountsTell k)
    (h : t.dimensions.flatMap (LittleEndian.toBytes 8) ++ tensors.flatMap tensorBytes =
      t'.dimensions.flatMap (LittleEndian.toBytes 8) ++ ys) :
    t'.dimensions.length ≤ t.dimensions.length := by
  by_contra hlt
  rw [Nat.not_le] at hlt
  set extra := t'.dimensions.drop t.dimensions.length with hdrop
  have hne : extra ≠ [] := by
    rw [hdrop, Ne, List.drop_eq_nil_iff]
    omega
  have hbound : ∀ d ∈ extra, d < 256 ^ 8 := fun d hd => ht'.dimensions d (List.mem_of_mem_drop hd)
  have hsplit := List.take_append_drop t.dimensions.length t'.dimensions
  rw [← hsplit, List.flatMap_append, List.append_assoc] at h
  obtain ⟨htake, h⟩ := LittleEndian.flatMap_toBytes_append_inj ht.dimensions
    (fun d hd => ht'.dimensions d (List.mem_of_mem_take hd))
    (by rw [List.length_take, Nat.min_eq_left hlt.le]) h
  rw [← htake] at hsplit
  cases tensors with
  | nil =>
    obtain ⟨d, ds, hd⟩ := List.exists_cons_of_ne_nil hne
    have hlen := congrArg List.length h
    rw [← hdrop, hd, List.flatMap_cons, List.append_assoc, List.length_append,
      LittleEndian.length_toBytes, List.flatMap_nil, List.length_nil] at hlen
    omega
  | cons next tensors =>
    obtain ⟨hnext, hcountNext⟩ := hrest next List.mem_cons_self
    rw [List.flatMap_cons] at h
    exact hcountNext.name
      (ranks_of_longer hcount hcount' hnum hsplit.symm hbound hne hnext.name h)

theorem tensorBytes_append_ne_nil (t : TensorDescriptor) (xs : List UInt8) :
    tensorBytes t ++ xs ≠ [] := by
  intro h
  have hlen := congrArg List.length h
  rw [tensorBytes, strBytes, List.append_assoc, List.append_assoc, List.length_append,
    LittleEndian.length_toBytes, List.length_nil] at hlen
  omega

theorem ranks_of_countsTell (h : ∀ t ∈ tensors, TypedTensor t ∧ CountsTell t)
    (h' : ∀ t ∈ tensors', TypedTensor t ∧ CountsTell t)
    (hbytes : tensors.flatMap tensorBytes = tensors'.flatMap tensorBytes) :
    tensors.map (fun t => t.dimensions.length) = tensors'.map fun t => t.dimensions.length := by
  induction tensors generalizing tensors' with
  | nil =>
    cases tensors' with
    | nil => rfl
    | cons t' tensors' => exact absurd hbytes.symm (tensorBytes_append_ne_nil t' _)
  | cons t tensors ih =>
    cases tensors' with
    | nil => exact absurd hbytes (tensorBytes_append_ne_nil t _)
    | cons t' tensors' =>
      obtain ⟨ht, hcount⟩ := h t List.mem_cons_self
      obtain ⟨ht', hcount'⟩ := h' t' List.mem_cons_self
      have htail : ∀ k ∈ tensors, TypedTensor k ∧ CountsTell k :=
        fun k hk => h k (List.mem_cons_of_mem _ hk)
      have htail' : ∀ k ∈ tensors', TypedTensor k ∧ CountsTell k :=
        fun k hk => h' k (List.mem_cons_of_mem _ hk)
      rw [List.flatMap_cons, List.flatMap_cons] at hbytes
      obtain ⟨-, -, -, hnum, hrest⟩ := tensorBytes_append_inj ht ht' hbytes
      -- neither list of dimensions goes on where the other has ended
      have hrank : t.dimensions.length = t'.dimensions.length :=
        Nat.le_antisymm (rank_le ht' ht hcount' hcount hnum.symm htail' hrest.symm)
          (rank_le ht ht' hcount hcount' hnum htail hrest)
      obtain ⟨-, hrest⟩ :=
        LittleEndian.flatMap_toBytes_append_inj ht.dimensions ht'.dimensions hrank hrest
      rw [List.map_cons, List.map_cons, hrank, ih htail htail' hrest]

end lists

/-- Equal bytes are of equal descriptors exactly when the tensors have as many dimensions,
and they do where the counts tell. -/
theorem descriptors_eq_iff [FloatText] {model model' : GgufModel} (h : model.TypedModel)
    (h' : model'.TypedModel) (hinput : fingerprintInput model = fingerprintInput model') :
    (model.descriptors = model'.descriptors ↔ model.ranks = model'.ranks) ∧
      ((∀ t ∈ model.tensors, CountsTell t) → (∀ t ∈ model'.tensors, CountsTell t) →
        model.descriptors = model'.descriptors) := by
  have hbytes := tensors_of_input h h' hinput
  have hof : model.ranks = model'.ranks → model.descriptors = model'.descriptors :=
    fun hranks => descriptors_of_ranks h.tensors h'.tensors hranks hbytes
  refine ⟨⟨?_, hof⟩, ?_⟩
  · intro hdescriptors
    have hmap := congrArg (List.map fun d => d.2.1.length) hdescriptors
    rw [descriptors, descriptors, List.map_map, List.map_map] at hmap
    exact hmap
  · intro hcounts hcounts'
    exact hof (ranks_of_countsTell (fun t ht => ⟨h.tensors t ht, hcounts t ht⟩)
      (fun t ht => ⟨h'.tensors t ht, hcounts' t ht⟩) hbytes)

/-- A header without metadata. -/
def headerOf (tensors : List Gguf.TensorInfo) : Gguf.RawHeader :=
  { version := 3
    metadata := []
    tensors }

@[reducible] def bitsText : FloatText := ⟨fun bits => toString bits, fun bits => toString bits⟩

/-- A matrix and a scalar. -/
def plainHeader : Gguf.RawHeader := headerOf [⟨"embed", [4, 2], 0, 0⟩, ⟨"scale", [], 0, 32⟩]

theorem plainHeader_typed (tensor : TensorDescriptor)
    (h : tensor ∈ (Gguf.modelOf "plain.gguf" 1000 plainHeader 200).tensors) :
    TypedTensor tensor ∧ CountsTell tensor := by
  have htensors : (Gguf.modelOf "plain.gguf" 1000 plainHeader 200).tensors =
      [⟨"embed", [4, 2], .f32, 0, 224, some 32, 8⟩, ⟨"scale", [], .f32, 32, 256, some 4, 1⟩] := by
    decide +kernel
  rw [htensors, List.mem_pair] at h
  rcases h with rfl | rfl
  · exact ⟨⟨by decide, rfl, by decide, by decide, by decide, by decide, by decide⟩,
      ⟨by decide +kernel, by decide, by decide, by decide⟩⟩
  · exact ⟨⟨by decide, rfl, by decide, by decide, by decide, by decide, by decide⟩,
      ⟨by decide +kernel, by decide, by decide, by decide⟩⟩

theorem descriptors_eq_iff_plain :
    (Gguf.modelOf "plain.gguf" 1000 plainHeader 200).descriptors =
      { Gguf.modelOf "plain.gguf" 1000 plainHeader 200 with path := "copy.gguf" }.descriptors := by
  let _ := bitsText
  have hplain : (Gguf.modelOf "plain.gguf" 1000 plainHeader 200).TypedModel :=
    ⟨by decide +kernel, by decide +kernel, by decide +kernel, fun t ht => (plainHeader_typed t ht).1⟩
  have hcopy : { Gguf.modelOf "plain.gguf" 1000 plainHeader 200 with
      path := "copy.gguf" }.TypedModel :=
    ⟨hplain.header, hplain.strings, hplain.numbers, hplain.tensors⟩
  exact (descriptors_eq_iff hplain hcopy rfl).2 (fun t ht => (plainHeader_typed t ht).2)
    fun t ht => (plainHeader_typed t ht).2

/-- A tensor without elements, and a scalar behind it. -/
def scalarBehind : GgufModel :=
  Gguf.modelOf "model.gguf" 1000 (headerOf [⟨"empty", [0], 0, 0⟩, ⟨"ramforge", [], 0, 0⟩]) 200

/-- The tensor without elements, with the scalar's descriptor for dimensions. -/
def scalarInside : GgufModel :=
  Gguf.modelOf "model.gguf" 1000
    (headerOf [⟨"empty", [0, 8, 7306934743217299826, 0, 0, 4, 1], 0, 0⟩]) 200

theorem not_descriptors_eq :
    ∃ text : FloatText, @fingerprintInput text scalarBehind = @fingerprintInput text scalarInside ∧
      scalarBehind.descriptors ≠ scalarInside.descriptors :=
  ⟨bitsText, by decide +kernel, by decide +kernel⟩

end GgufModel
end Ramforge
