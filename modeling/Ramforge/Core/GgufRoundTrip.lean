/-
The parser reads an encoded header back, and no part of one.

Every reader of `Gguf` gets two lemmas under its name: `*_decodes`, that it takes
exactly the bytes of its encoding and returns the encoded value, and `*_streams`,
that it looks no further.  The theorem about a whole file is assembled from the
pair for `readHeader`.
-/
import Ramforge.Core.Gguf
import Ramforge.Rust.MapSum

namespace Ramforge
namespace Gguf

open Rust Rust.Reader LittleEndian

/-! ## Numbers -/

theorem readLe_decodes (width : Nat) (name : String) {n : Nat} (h : n < 256 ^ width) :
    Decodes (readLe width name) (toBytes width n) n := by
  have hr := Decodes.readExact (toBytes width n)
    (GgufError.truncated ("unexpected EOF while reading " ++ name))
  rw [length_toBytes] at hr
  have hm := hr.map ofBytes
  rw [ofBytes_toBytes h] at hm
  exact hm

theorem readU8_decodes (v : UInt8) : Decodes readU8 (toBytes 1 v.toNat) v := by
  have h := (readLe_decodes 1 "u8" v.toNat_lt).map UInt8.ofNat
  rw [UInt8.ofNat_toNat] at h
  exact h

theorem readU16Le_decodes (v : UInt16) : Decodes readU16Le (toBytes 2 v.toNat) v := by
  have h := (readLe_decodes 2 "u16" v.toNat_lt).map UInt16.ofNat
  rw [UInt16.ofNat_toNat] at h
  exact h

theorem readU32Le_decodes (v : UInt32) : Decodes readU32Le (toBytes 4 v.toNat) v := by
  have h := (readLe_decodes 4 "u32" v.toNat_lt).map UInt32.ofNat
  rw [UInt32.ofNat_toNat] at h
  exact h

theorem readU64Le_decodes (v : UInt64) : Decodes readU64Le (toBytes 8 v.toNat) v := by
  have h := (readLe_decodes 8 "u64" v.toNat_lt).map UInt64.ofNat
  rw [UInt64.ofNat_toNat] at h
  exact h

/-- A count, as the encoding writes it. -/
theorem readU32Le_decodes_nat {n : Nat} (h : n < 2 ^ 32) :
    Decodes readU32Le (toBytes 4 n) (UInt32.ofNat n) := by
  have hd := readU32Le_decodes (UInt32.ofNat n)
  rw [UInt32.toNat_ofNat_of_lt' h] at hd
  exact hd

theorem readU64Le_decodes_nat {n : Nat} (h : n < 2 ^ 64) :
    Decodes readU64Le (toBytes 8 n) (UInt64.ofNat n) := by
  have hd := readU64Le_decodes (UInt64.ofNat n)
  rw [UInt64.toNat_ofNat_of_lt' h] at hd
  exact hd

theorem readI8_decodes (v : Int8) : Decodes readI8 (toBytes 1 v.toUInt8.toNat) v :=
  (readU8_decodes v.toUInt8).map UInt8.toInt8

theorem readI16Le_decodes (v : Int16) : Decodes readI16Le (toBytes 2 v.toUInt16.toNat) v :=
  (readU16Le_decodes v.toUInt16).map UInt16.toInt16

theorem readI32Le_decodes (v : Int32) : Decodes readI32Le (toBytes 4 v.toUInt32.toNat) v :=
  (readU32Le_decodes v.toUInt32).map UInt32.toInt32

theorem readI64Le_decodes (v : Int64) : Decodes readI64Le (toBytes 8 v.toUInt64.toNat) v :=
  (readU64Le_decodes v.toUInt64).map UInt64.toInt64

theorem readBool_decodes (v : Bool) :
    Decodes readBool (toBytes 1 (if v then 1 else 0)) v := by
  cases v with
  | false => exact (readU8_decodes 0).map (· != 0)
  | true => exact (readU8_decodes 1).map (· != 0)

theorem readLe_streams (width : Nat) (name : String) : Streams (readLe width name) :=
  Streams.bind (Streams.readExact _ _) fun _ => Streams.pure _

theorem readU8_streams : Streams readU8 :=
  Streams.bind (readLe_streams _ _) fun _ => Streams.pure _

theorem readU16Le_streams : Streams readU16Le :=
  Streams.bind (readLe_streams _ _) fun _ => Streams.pure _

theorem readU32Le_streams : Streams readU32Le :=
  Streams.bind (readLe_streams _ _) fun _ => Streams.pure _

theorem readU64Le_streams : Streams readU64Le :=
  Streams.bind (readLe_streams _ _) fun _ => Streams.pure _

/-! ## Strings -/

theorem fromUTF8?_toByteArray (s : String) :
    String.fromUTF8? ⟨s.toByteArray.data.toList.toArray⟩ = some s := by
  have h : (⟨s.toByteArray.data.toList.toArray⟩ : ByteArray) = s.toByteArray := by
    rw [Array.toArray_toList]
  rw [h]
  exact dif_pos s.isValidUTF8

theorem length_toByteArray (s : String) : s.toByteArray.data.toList.length = s.utf8ByteSize := rfl

theorem readString_decodes {s : String} (h : StringFits s) :
    Decodes readString (encodeString s) s := by
  have hlt : s.utf8ByteSize < 2 ^ 64 := Nat.lt_of_le_of_lt h (by decide)
  have hlen : (UInt64.ofNat s.utf8ByteSize).toNat = s.utf8ByteSize :=
    UInt64.toNat_ofNat_of_lt' hlt
  refine Decodes.bind (readU64Le_decodes_nat hlt) (Decodes.bind_nil (Decodes.failIf ?_ _) ?_)
  · rw [hlen]
    exact Nat.not_lt.mpr h
  · rw [hlen]
    have hread : Decodes (readExactBytes s.utf8ByteSize) s.toByteArray.data.toList
        s.toByteArray.data.toList := by
      have hr := Decodes.readExact s.toByteArray.data.toList
        (GgufError.truncated s!"expected {s.utf8ByteSize} bytes, got EOF")
      rw [length_toByteArray] at hr
      exact hr
    exact Decodes.bind_end hread (Decodes.okOr (fromUTF8?_toByteArray s) _)

theorem readString_streams : Streams readString :=
  Streams.bind readU64Le_streams fun _ =>
    Streams.bind (Streams.failIf _ _) fun _ =>
      Streams.bind (Streams.readExact _ _) fun _ => Streams.okOr _ _

/-! ## Metadata values -/

theorem readMetadataValue_decodes {v : MetadataValue} (h : ScalarFits v) :
    Decodes (readMetadataValue v.valueType) (encodeScalar v) v := by
  cases v with
  | uInt8 v => exact (readU8_decodes v).map MetadataValue.uInt8
  | int8 v => exact (readI8_decodes v).map MetadataValue.int8
  | uInt16 v => exact (readU16Le_decodes v).map MetadataValue.uInt16
  | int16 v => exact (readI16Le_decodes v).map MetadataValue.int16
  | uInt32 v => exact (readU32Le_decodes v).map MetadataValue.uInt32
  | int32 v => exact (readI32Le_decodes v).map MetadataValue.int32
  | float32 bits => exact (readU32Le_decodes bits).map MetadataValue.float32
  | bool v => exact (readBool_decodes v).map MetadataValue.bool
  | string s => exact (readString_decodes h).map MetadataValue.string
  | array elementType values => exact h.elim
  | uInt64 v => exact (readU64Le_decodes v).map MetadataValue.uInt64
  | int64 v => exact (readI64Le_decodes v).map MetadataValue.int64
  | float64 bits => exact (readU64Le_decodes bits).map MetadataValue.float64

theorem readMetadataValue_streams (t : GgufValueType) : Streams (readMetadataValue t) := by
  have hu8 := readU8_streams
  have hu16 := readU16Le_streams
  have hu32 := readU32Le_streams
  have hu64 := readU64Le_streams
  cases t with
  | array => exact Streams.throw _
  | string => exact Streams.bind readString_streams fun _ => Streams.pure _
  | int8 | bool => exact Streams.bind (Streams.bind hu8 fun _ => Streams.pure _) fun _ => Streams.pure _
  | int16 => exact Streams.bind (Streams.bind hu16 fun _ => Streams.pure _) fun _ => Streams.pure _
  | int32 => exact Streams.bind (Streams.bind hu32 fun _ => Streams.pure _) fun _ => Streams.pure _
  | int64 => exact Streams.bind (Streams.bind hu64 fun _ => Streams.pure _) fun _ => Streams.pure _
  | uInt8 => exact Streams.bind hu8 fun _ => Streams.pure _
  | uInt16 => exact Streams.bind hu16 fun _ => Streams.pure _
  | uInt32 | float32 => exact Streams.bind hu32 fun _ => Streams.pure _
  | uInt64 | float64 => exact Streams.bind hu64 fun _ => Streams.pure _

theorem readValueType_decodes (t : GgufValueType) :
    Decodes readValueType (encodeValueType t) t := by
  have hlt : t.toU32 < 2 ^ 32 := t.toU32_lt
  have hok : GgufValueType.fromU32 (UInt32.ofNat t.toU32).toNat = some t := by
    rw [UInt32.toNat_ofNat_of_lt' hlt]
    exact t.fromU32_toU32
  exact Decodes.bind_end (readU32Le_decodes_nat hlt) (Decodes.okOr hok _)

theorem readValueType_streams : Streams readValueType :=
  Streams.bind readU32Le_streams fun _ => Streams.okOr _ _

/-- An element of an array is read like a value of its type. -/
theorem element_eq (t : GgufValueType) :
    (if t = .string then do return .string (← readString) else readMetadataValue t) =
      readMetadataValue t := by
  by_cases h : t = .string
  · subst h
    rfl
  · rw [if_neg h]

theorem readArrayValue_decodes {elementType : GgufValueType} {values : List MetadataValue}
    (h : ValueFits (.array elementType values)) :
    Decodes readArrayValue (encodeValue (.array elementType values))
      (.array elementType values) := by
  obtain ⟨hne, hlen, helems⟩ := h
  have hlt : values.length < 2 ^ 64 := Nat.lt_of_le_of_lt hlen (by decide)
  have hcount : (UInt64.ofNat values.length).toNat = values.length :=
    UInt64.toNat_ofNat_of_lt' hlt
  refine Decodes.bind (readValueType_decodes elementType)
    (Decodes.bind_nil (Decodes.failIf hne _)
      (Decodes.bind (readU64Le_decodes_nat hlt) (Decodes.bind_nil (Decodes.failIf ?_ _) ?_)))
  · rw [hcount]
    exact Nat.not_lt.mpr hlen
  · rw [hcount, element_eq]
    have htimes : Decodes (Reader.times (readMetadataValue elementType) values.length)
        (values.flatMap encodeScalar) values := by
      have h := Decodes.times (m := readMetadataValue elementType) id encodeScalar values (by
          intro v hv
          obtain ⟨htype, hfits⟩ := helems v hv
          rw [← htype]
          exact readMetadataValue_decodes hfits)
      rw [List.map_id] at h
      exact h
    exact htimes.map (MetadataValue.array elementType)

theorem readArrayValue_streams : Streams readArrayValue := by
  refine Streams.bind readValueType_streams fun t =>
    Streams.bind (Streams.failIf _ _) fun _ =>
      Streams.bind readU64Le_streams fun _ => Streams.bind (Streams.failIf _ _) fun _ =>
        Streams.bind (Streams.times ?_ _) fun _ => Streams.pure _
  rw [element_eq]
  exact readMetadataValue_streams t

theorem readValue_of_ne {t : GgufValueType} (h : t ≠ .array) :
    readValue t = readMetadataValue t := by
  rw [readValue, if_neg h, element_eq]

theorem readValue_decodes {v : MetadataValue} (h : ValueFits v) :
    Decodes (readValue v.valueType) (encodeValue v) v := by
  cases v with
  | array elementType values => exact readArrayValue_decodes h
  | _ =>
    rw [readValue_of_ne (by intro hc; cases hc)]
    exact readMetadataValue_decodes h

theorem readValue_streams (t : GgufValueType) : Streams (readValue t) := by
  by_cases h : t = .array
  · subst h
    exact readArrayValue_streams
  · rw [readValue_of_ne h]
    exact readMetadataValue_streams t

theorem readKv_decodes {kv : String × MetadataValue} (hkey : StringFits kv.1)
    (hvalue : ValueFits kv.2) : Decodes readKv (encodeKv kv) kv :=
  Decodes.bind (readString_decodes hkey) (Decodes.bind (readValueType_decodes _)
    ((readValue_decodes hvalue).map fun value => (kv.1, value)))

theorem readKv_streams : Streams readKv :=
  Streams.bind readString_streams fun _ =>
    Streams.bind readValueType_streams fun t =>
      Streams.bind (readValue_streams t) fun _ => Streams.pure _

/-! ## Tensor infos -/

theorem readTensorInfo_decodes {t : TensorInfo} (h : TensorFits t) :
    Decodes readTensorInfo (encodeTensorInfo t) t := by
  have hlt : t.dims.length < 2 ^ 32 := Nat.lt_of_le_of_lt h.dims_le (by decide)
  have hcount : (UInt32.ofNat t.dims.length).toNat = t.dims.length :=
    UInt32.toNat_ofNat_of_lt' hlt
  refine Decodes.bind (readString_decodes h.name_fits)
    (Decodes.bind (readU32Le_decodes_nat hlt) (Decodes.bind_nil (Decodes.failIf ?_ _) ?_))
  · rw [hcount]
    exact Nat.not_lt.mpr h.dims_le
  · rw [hcount]
    have hdims : Decodes (Reader.times readU64Le t.dims.length) (t.dims.flatMap encodeDim)
        t.dims := by
      have h := Decodes.times (m := readU64Le) id encodeDim t.dims
        (fun d _ => readU64Le_decodes d)
      rw [List.map_id] at h
      exact h
    exact hdims.bind ((readU32Le_decodes t.ty).bind
      ((readU64Le_decodes t.offset).map fun offset => { t with offset }))

theorem readTensorInfo_streams : Streams readTensorInfo :=
  Streams.bind readString_streams fun _ =>
    Streams.bind readU32Le_streams fun _ => Streams.bind (Streams.failIf _ _) fun _ =>
      Streams.bind (Streams.times readU64Le_streams _) fun _ =>
        Streams.bind readU32Le_streams fun _ =>
          Streams.bind readU64Le_streams fun _ => Streams.pure _

/-! ## The header -/

theorem readHeader_decodes (h : Header) : Decodes readHeader h.encode h.toRawHeader := by
  obtain ⟨⟨version, metadata, tensors⟩, hversion, hkvs, _, hkeys, hvalues, htensors, hfits⟩ := h
  change version = 1 ∨ version = 2 ∨ version = 3 at hversion
  have hv : version < 2 ^ 32 := by omega
  have hk : metadata.length < 2 ^ 64 := Nat.lt_of_le_of_lt hkvs (by decide)
  have ht : tensors.length < 2 ^ 64 := Nat.lt_of_le_of_lt htensors (by decide)
  have hmagic : Decodes (readExactBytes 4) ggufMagic ggufMagic :=
    Decodes.readExact ggufMagic _
  refine hmagic.bind (Decodes.bind_nil (Decodes.failIf (not_not.mpr rfl) _)
    ((readU32Le_decodes_nat hv).bind (Decodes.bind_nil (Decodes.failIf ?_ _)
      ((readU64Le_decodes_nat ht).bind ((readU64Le_decodes_nat hk).bind
        (Decodes.bind_nil (Decodes.failIf ?_ _) (Decodes.bind_nil (Decodes.failIf ?_ _) ?_)))))))
  · rcases hversion with rfl | rfl | rfl <;> decide
  · rw [UInt64.toNat_ofNat_of_lt' ht]
    exact Nat.not_lt.mpr htensors
  · rw [UInt64.toNat_ofNat_of_lt' hk]
    exact Nat.not_lt.mpr hkvs
  · rw [UInt64.toNat_ofNat_of_lt' ht, UInt64.toNat_ofNat_of_lt' hk, UInt32.toNat_ofNat_of_lt' hv]
    have hmetadata := Decodes.times (m := readKv) id encodeKv metadata
      fun kv hkv => readKv_decodes (hkeys kv hkv) (hvalues kv hkv)
    have hinfos := Decodes.times (m := readTensorInfo) id encodeTensorInfo tensors
      fun t ht => readTensorInfo_decodes (hfits t ht)
    rw [List.map_id] at hmetadata hinfos
    exact hmetadata.bind (hinfos.map (RawHeader.mk version metadata))

theorem readHeader_streams : Streams readHeader :=
  Streams.bind (Streams.readExact _ _) fun _ => Streams.bind (Streams.failIf _ _) fun _ =>
    Streams.bind readU32Le_streams fun _ => Streams.bind (Streams.failIf _ _) fun _ =>
      Streams.bind readU64Le_streams fun _ => Streams.bind readU64Le_streams fun _ =>
        Streams.bind (Streams.failIf _ _) fun _ => Streams.bind (Streams.failIf _ _) fun _ =>
          Streams.bind (Streams.times readKv_streams _) fun _ =>
            Streams.bind (Streams.times readTensorInfo_streams _) fun _ => Streams.pure _

/-! ## The model of a header -/

theorem getElem?_foldl_insert {kvs : List (String × MetadataValue)} (m : Metadata)
    (hnodup : (kvs.map Prod.fst).Nodup) (key : String) (v : MetadataValue) :
    (kvs.foldl (fun metadata kv => metadata.insert kv.1 kv.2) m)[key]? = some v ↔
      (key, v) ∈ kvs ∨ key ∉ kvs.map Prod.fst ∧ m[key]? = some v := by
  induction kvs generalizing m with
  | nil => simp
  | cons kv kvs ih =>
    obtain ⟨k, w⟩ := kv
    rw [List.map_cons, List.nodup_cons] at hnodup
    rw [List.foldl_cons, ih _ hnodup.2, MapSum.getElem?_insert']
    by_cases hk : key = k
    · subst hk
      have hnot : (key, v) ∉ kvs := fun hmem => hnodup.1 (List.mem_map.mpr ⟨_, hmem, rfl⟩)
      have hmap : key ∉ kvs.map Prod.fst := hnodup.1
      simp only [hnot, hmap, not_false_eq_true, true_and, false_or, if_true, List.mem_cons,
        Prod.mk.injEq, List.map_cons, not_true_eq_false, false_and, or_false,
        Option.some.injEq]
      exact eq_comm
    · simp [hk]

theorem metadataOf_getElem? {kvs : List (String × MetadataValue)}
    (hnodup : (kvs.map Prod.fst).Nodup) (key : String) (v : MetadataValue) :
    (metadataOf kvs)[key]? = some v ↔ (key, v) ∈ kvs := by
  rw [metadataOf, getElem?_foldl_insert _ hnodup]
  simp

theorem alignmentOf_lt (metadata : Metadata) : alignmentOf metadata < 2 ^ 64 := by
  unfold alignmentOf
  cases h : (metadata["general.alignment"]?).bind MetadataValue.asU64 with
  | none => decide
  | some n =>
    obtain ⟨v, _, hv⟩ := Option.bind_eq_some_iff.mp h
    exact MetadataValue.asU64_lt hv

/-- `m` holds what `h` says, entry by entry and tensor by tensor. -/
structure HoldsHeader (h : RawHeader) (m : GgufModel) : Prop where
  version : m.version = h.version
  metadata : ∀ (key : String) (v : MetadataValue),
    m.metadata[key]? = some v ↔ (key, v) ∈ h.metadata
  tensors : List.Forall₂ (fun (t : TensorDescriptor) (info : TensorInfo) =>
    t.name = info.name ∧ t.dimensions = info.dims.map UInt64.toNat ∧
      t.ggmlType = GgmlType.fromU32 info.ty.toNat ∧ t.ggmlType.asU32 = info.ty.toNat ∧
        t.offset = info.offset.toNat) m.tensors h.tensors
  alignment : m.alignment = alignmentOf m.metadata
  dataStart : IsAlignedEnd h.encode.length m.alignment m.dataStartOffset

theorem modelOf_holdsHeader (h : Header) (path : String) (fileSize : Nat)
    (hlen : h.encode.length < 2 ^ 63) :
    HoldsHeader h.toRawHeader (modelOf path fileSize h.toRawHeader h.encode.length) := by
  refine ⟨rfl, metadataOf_getElem? h.keys_nodup, ?_, rfl,
    alignOffset_isAlignedEnd hlen (alignmentOf_lt _)⟩
  refine List.forall₂_map_left_iff.mpr (List.forall₂_same.mpr fun info _ => ?_)
  exact ⟨rfl, rfl, rfl, GgmlType.asU32_fromU32 _, rfl⟩

theorem parseGgufFile_of_encode {h : Header} {file : FileBytes} {rest : List UInt8}
    (path : String) (hfile : file.bytes = h.encode ++ rest) :
    parseGgufFile path file =
      .ok (modelOf path file.bytes.length h.toRawHeader h.encode.length) := by
  have hread := readHeader_decodes h rest 0
  rw [← hfile] at hread
  rw [parseGgufFile, hread, Nat.zero_add]

theorem parseGgufFile_of_prefix {h : Header} {file : FileBytes} {rest : List UInt8}
    (path : String) (hfile : h.encode = file.bytes ++ rest) (hrest : rest ≠ []) :
    ∃ e, parseGgufFile path file = .err e := by
  obtain ⟨e, he⟩ := readHeader_streams.rejects_prefix (readHeader_decodes h) hfile hrest 0
  refine ⟨e, ?_⟩
  rcases hrun : readHeader { inner := file.bytes, position := 0 } with ⟨o, r⟩
  rw [hrun] at he
  rw [parseGgufFile, hrun, show o = .err e from he]

/-- What a parsed file has in front of its payload. -/
theorem parseGgufFile_cases {path : String} {file : FileBytes} {m : GgufModel}
    (h : parseGgufFile path file = .ok m) :
    ∃ header used rest, file.bytes = used ++ rest ∧ Decodes readHeader used header ∧
      m = modelOf path file.bytes.length header used.length := by
  have hstream := readHeader_streams { inner := file.bytes, position := 0 }
  unfold parseGgufFile at h
  rcases hrun : readHeader { inner := file.bytes, position := 0 } with ⟨header | e | p, r⟩ <;>
    rw [hrun] at h hstream
  · obtain ⟨used, hsplit, hdecodes⟩ := hstream
    have hagain := hdecodes r.inner 0
    rw [← hsplit, Nat.zero_add] at hagain
    have hr : r = ⟨r.inner, used.length⟩ := congrArg Prod.snd (hrun.symm.trans hagain)
    refine ⟨header, used, r.inner, hsplit, hdecodes, ?_⟩
    rw [hr] at h
    exact (Outcome.ok.inj h).symm
  · cases h
  · cases h

/-- A file with the same header and as many bytes parses to the same model. -/
theorem parseGgufFile_set {path : String} {file file' : FileBytes} {m : GgufModel} {p : Nat}
    {b : UInt8} (h : parseGgufFile path file = .ok m) (hp : m.dataStartOffset ≤ p)
    (hfile' : file'.bytes = file.bytes.set p b) : parseGgufFile path file' = .ok m := by
  obtain ⟨header, used, rest, hsplit, hdecodes, rfl⟩ := parseGgufFile_cases h
  have hlength := file.length_lt
  rw [hsplit, List.length_append] at hlength
  have hused : used.length ≤ p :=
    Nat.le_trans (alignOffset_isAlignedEnd (by omega) (alignmentOf_lt _)).le hp
  have hsplit' : file'.bytes = used ++ rest.set (p - used.length) b := by
    rw [hfile', hsplit, List.set_append_right _ _ hused]
  have hsame : file'.bytes.length = file.bytes.length := by
    rw [hfile', List.length_set]
  have hread := hdecodes (rest.set (p - used.length) b) 0
  rw [← hsplit'] at hread
  rw [parseGgufFile, hread, Nat.zero_add, hsame]

/-- A file that starts with an encoded header parses to that header, and a file
cut short of its end is refused. -/
theorem parseGgufFile_encode (h : Header) (path : String) (file : FileBytes) :
    (h.encode <+: file.bytes →
      ∃ m, parseGgufFile path file = .ok m ∧ HoldsHeader h.toRawHeader m) ∧
    (file.bytes <+: h.encode → file.bytes ≠ h.encode →
      ∃ e, parseGgufFile path file = .err e) := by
  constructor
  · rintro ⟨rest, hrest⟩
    refine ⟨_, parseGgufFile_of_encode path hrest.symm, modelOf_holdsHeader h path _ ?_⟩
    have hlen := file.length_lt
    rw [← hrest, List.length_append] at hlen
    omega
  · rintro ⟨rest, hrest⟩ hne
    apply parseGgufFile_of_prefix path hrest.symm
    rintro rfl
    rw [List.append_nil] at hrest
    exact hne hrest

/-- Two keys, an array and a two-dimensional tensor. -/
def smallHeader : Header where
  version := 3
  metadata := [("general.alignment", .uInt32 64), ("bias", .array .int8 [.int8 (-1), .int8 7])]
  tensors := [{ name := "test.weight", dims := [4, 2], ty := 8, offset := 32 }]
  version_supported := three_supported
  kvCount_le := by decide
  keys_nodup := by decide
  keys_fit := by decide +kernel
  values_fit := by decide +kernel
  tensorCount_le := by decide
  tensors_fit := by decide +kernel

/-- The header and no payload. -/
def smallFile : FileBytes where
  bytes := smallHeader.encode
  length_lt := by decide +kernel

def cutFile : FileBytes where
  bytes := smallHeader.encode.dropLast
  length_lt := by decide +kernel

theorem parseGgufFile_encode_small :
    (∃ m, parseGgufFile "test.gguf" smallFile = .ok m ∧ HoldsHeader smallHeader.toRawHeader m) ∧
      ∃ e, parseGgufFile "test.gguf" cutFile = .err e := by
  constructor
  · exact (parseGgufFile_encode smallHeader "test.gguf" smallFile).1 (List.prefix_refl _)
  · have hcut : cutFile.bytes ≠ smallHeader.encode := by decide +kernel
    exact (parseGgufFile_encode smallHeader "test.gguf" cutFile).2 (List.dropLast_prefix _) hcut

end Gguf
end Ramforge
