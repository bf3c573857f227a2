import Tntpp.Base.MsgPack.Codec
import Tntpp.Detail.Iproto.Typedefs

/-!
# Message headers

`MessageHeader` with its two msgpack adaptors.  `convert` reads a header out of an
object: every key of the map has to be a number the client knows, four of them
set a field, and a later entry overrides an earlier one.  `pack` writes a header
out, declaring the number of entries before it writes them.

`convert` is the source's loop over the entries, `convertEntry` its body; `none`
stands for the `msgpack::type_error` it throws.
-/

namespace Tntpp

open MsgPack (Object Codec)

/-- The header of a message. -/
structure MessageHeader where
  /-- The type of the request or of the response. -/
  requestType : MpUint := RequestType.unknown.value
  /-- The request the message belongs to. -/
  sync : MpUint := 0
  /-- The schema version of the server. -/
  schemaVersion : MpUint := 0
  /-- The stream the request belongs to. -/
  streamId : Option MpUint := none
deriving DecidableEq, Repr

namespace MessageHeader

/-- `set_request_type`. -/
def setRequestType (h : MessageHeader) (type : RequestType) : MessageHeader :=
  { h with requestType := type.value }

/-- `is_error`. -/
def isError (h : MessageHeader) : Bool := isErrorReqType h.requestType

/-- `get_error_code`: the error number is the distance from the first error type. -/
def getErrorCode (h : MessageHeader) : ErrorCode :=
  if h.isError then
    let code := h.requestType - RequestType.typeErrorBegin.value
    ⟨(intToTarantoolError code).value.toNat, .tarantool⟩
  else {}

end MessageHeader

/-! ## Decoding -/

/-- The conversion of an object to an unsigned integer. -/
def asMpUint : Object → Option MpUint
  | .uint n => some n
  | _ => none

/-- One entry of a header map. -/
def convertEntry (v : MessageHeader) (kv : Object × Object) : Option MessageHeader :=
  match kv.1 with
  | .uint key =>
      match intToFieldType key with
      | none => none
      | some .requestType => (asMpUint kv.2).map fun n ↦ { v with requestType := n }
      | some .sync => (asMpUint kv.2).map fun n ↦ { v with sync := n }
      | some .schemaVersion => (asMpUint kv.2).map fun n ↦ { v with schemaVersion := n }
      -- this case falls through to the default one, which does nothing
      | some .streamId => (asMpUint kv.2).map fun n ↦ { v with streamId := some n }
      | some _ => some v
  | _ => none

/-- `convert<MessageHeader>`. -/
def convertHeader : Object → Option MessageHeader
  | .map kvs => kvs.foldlM convertEntry {}
  | _ => none

/-- A key as it is packed. -/
def FieldType.object (f : FieldType) : Object := .uint f.value

/-! ## The maps that are headers -/

/-- The fields of a header. -/
def FieldType.headerFields : List FieldType := [.requestType, .sync, .schemaVersion, .streamId]

/-- An entry of a header map: the key is known, and the fields of a header are numbers. -/
def HeaderEntry (kv : Object × Object) : Prop :=
  ∃ f : FieldType, kv.1 = f.object ∧ (f ∈ FieldType.headerFields → ∃ n, kv.2 = .uint n)

/-- The number an entry gives to a field. -/
def numberUnder (f : FieldType) : Object × Object → Option MpUint
  | (.uint key, .uint n) => if key = f.value then some n else none
  | _ => none

/-- The number a map gives to a field, which is that of the last entry. -/
def lastNumber (f : FieldType) (kvs : List (Object × Object)) : Option MpUint :=
  kvs.reverse.findSome? (numberUnder f)

/-- The header a map describes. -/
def headerOf (kvs : List (Object × Object)) : MessageHeader where
  requestType := (lastNumber .requestType kvs).getD RequestType.unknown.value
  sync := (lastNumber .sync kvs).getD 0
  schemaVersion := (lastNumber .schemaVersion kvs).getD 0
  streamId := lastNumber .streamId kvs

theorem lastNumber_append (f : FieldType) (kvs : List (Object × Object)) (kv : Object × Object) :
    lastNumber f (kvs ++ [kv]) = (numberUnder f kv).or (lastNumber f kvs) := by
  rw [lastNumber, List.reverse_append, List.reverse_singleton, List.singleton_append,
    List.findSome?_cons]
  cases numberUnder f kv <;> rfl

theorem numberUnder_object (f g : FieldType) (n : MpUint) :
    numberUnder g (f.object, .uint n) = if f = g then some n else none := by
  by_cases h : f = g
  · rw [if_pos h]
    exact if_pos (congrArg FieldType.value h)
  · rw [if_neg h]
    exact if_neg fun hv ↦ h (FieldType.value_injective hv)

/-- A field that is not one of the header gives it no number. -/
theorem numberUnder_of_not_mem {f g : FieldType} (hf : f ∉ FieldType.headerFields)
    (hg : g ∈ FieldType.headerFields) (val : Object) : numberUnder g (f.object, val) = none := by
  have hne : f.value ≠ g.value := by
    intro hv
    rw [FieldType.value_injective hv] at hf
    exact hf hg
  cases val with
  | uint n => exact if_neg hne
  | _ => rfl

/-- Converting an entry of a header map adds what it describes. -/
theorem convertEntry_headerOf {kv : Object × Object} (h : HeaderEntry kv)
    (kvs : List (Object × Object)) :
    convertEntry (headerOf kvs) kv = some (headerOf (kvs ++ [kv])) := by
  obtain ⟨key, val⟩ := kv
  obtain ⟨f, hkey, hval⟩ := h
  obtain rfl : key = f.object := hkey
  by_cases hf : f ∈ FieldType.headerFields
  · obtain ⟨n, hn⟩ := hval hf
    obtain rfl : val = .uint n := hn
    simp only [headerOf, lastNumber_append, numberUnder_object]
    simp only [FieldType.headerFields, List.mem_cons, List.not_mem_nil, or_false] at hf
    rcases hf with rfl | rfl | rfl | rfl
    all_goals simp [convertEntry, FieldType.object, asMpUint]
  · have hnone := fun g hg ↦ numberUnder_of_not_mem (g := g) hf hg val
    have hof : headerOf (kvs ++ [(f.object, val)]) = headerOf kvs := by
      simp only [headerOf, lastNumber_append]
      rw [hnone .requestType (by decide), hnone .sync (by decide), hnone .schemaVersion (by decide),
        hnone .streamId (by decide)]
      simp only [Option.none_or]
    rw [hof]
    cases f with
    | requestType => exact absurd (by decide) hf
    | sync => exact absurd (by decide) hf
    | schemaVersion => exact absurd (by decide) hf
    | streamId => exact absurd (by decide) hf
    | _ => rfl

/-- Only the entries of a header map are converted. -/
theorem headerEntry_of_convertEntry {v v' : MessageHeader} {kv : Object × Object}
    (h : convertEntry v kv = some v') : HeaderEntry kv := by
  obtain ⟨key, val⟩ := kv
  cases key with
  | uint key =>
      rw [convertEntry] at h
      dsimp only at h
      cases hf : intToFieldType key with
      | none =>
          rw [hf] at h
          cases h
      | some f =>
          refine ⟨f, congrArg Object.uint (intToFieldType_eq_some_iff.mp hf), ?_⟩
          intro hmem
          simp only [FieldType.headerFields, List.mem_cons, List.not_mem_nil, or_false] at hmem
          rw [hf] at h
          rcases hmem with rfl | rfl | rfl | rfl
          all_goals
            obtain ⟨n, hn, -⟩ := Option.map_eq_some_iff.mp h
            cases val with
            | uint n => exact ⟨n, rfl⟩
            | _ => cases hn
  | _ => cases h

theorem foldlM_convertEntry {kvs : List (Object × Object)} (h : ∀ kv ∈ kvs, HeaderEntry kv)
    (done : List (Object × Object)) :
    kvs.foldlM convertEntry (headerOf done) = some (headerOf (done ++ kvs)) := by
  induction kvs generalizing done with
  | nil => rw [List.append_nil, List.foldlM_nil, Option.pure_def]
  | cons kv kvs ih =>
      have hkv := convertEntry_headerOf (h kv List.mem_cons_self) done
      have hkvs := ih (fun x hx ↦ h x (List.mem_cons_of_mem kv hx)) (done ++ [kv])
      rw [List.foldlM_cons, hkv, Option.bind_eq_bind, Option.bind_some, hkvs, List.append_assoc,
        List.singleton_append]

theorem headerEntry_of_foldlM {kvs : List (Object × Object)} {v v' : MessageHeader}
    (h : kvs.foldlM convertEntry v = some v') : ∀ kv ∈ kvs, HeaderEntry kv := by
  induction kvs generalizing v with
  | nil => exact fun kv hkv ↦ absurd hkv List.not_mem_nil
  | cons kv kvs ih =>
      rw [List.foldlM_cons, Option.bind_eq_bind] at h
      obtain ⟨w, hw, h⟩ := Option.bind_eq_some_iff.mp h
      exact List.forall_mem_cons.mpr ⟨headerEntry_of_convertEntry hw, ih h⟩

/-- What is converted is the header the map describes, and it is converted if and only if
all its entries are those of a header map. -/
theorem convertHeader_map_eq_some_iff {kvs : List (Object × Object)} {header : MessageHeader} :
    convertHeader (.map kvs) = some header ↔
      (∀ kv ∈ kvs, HeaderEntry kv) ∧ header = headerOf kvs := by
  constructor
  · intro h
    have hentries := headerEntry_of_foldlM h
    have hof : convertHeader (.map kvs) = some (headerOf kvs) := foldlM_convertEntry hentries []
    exact ⟨hentries, Option.some.inj (h.symm.trans hof)⟩
  · rintro ⟨hentries, rfl⟩
    exact foldlM_convertEntry hentries []

/-! ## Encoding -/

/-- `pack<MessageHeader>`. -/
def packHeader (mp : Codec) (v : MessageHeader) : List UInt8 :=
  mp.packMap (if v.streamId.isSome then 3 else 2)
    ++ mp.pack FieldType.sync.object ++ mp.pack (.uint v.sync)
    ++ mp.pack FieldType.requestType.object ++ mp.pack (.uint v.requestType)
    ++ match v.streamId with
      | some id => mp.pack FieldType.streamId.object ++ mp.pack (.uint id)
      | none => []

/-- The map a header is packed as. -/
def MessageHeader.entries (v : MessageHeader) : List (Object × Object) :=
  (FieldType.sync.object, .uint v.sync) :: (FieldType.requestType.object, .uint v.requestType) ::
    match v.streamId with
    | some id => [(FieldType.streamId.object, .uint id)]
    | none => []

theorem MessageHeader.length_entries (v : MessageHeader) :
    v.entries.length = if v.streamId.isSome then 3 else 2 := by
  cases h : v.streamId <;> simp [entries, h]

/-- Piece by piece, packing a header writes the one object its entries make: the
declared count is the number of entries. -/
theorem packHeader_eq {mp : Codec} (hmp : mp.Lawful) (v : MessageHeader) :
    packHeader mp v = mp.pack (.map v.entries) := by
  have hlen : v.entries.length < 2 ^ 32 := by
    rw [v.length_entries]
    split_ifs <;> decide
  rw [hmp.pack_map _ hlen, v.length_entries]
  cases h : v.streamId <;> simp [packHeader, MessageHeader.entries, h]

/-- A header is recovered from the map it is packed as, except for the schema
version, which only the server sends. -/
theorem convertHeader_entries (v : MessageHeader) :
    convertHeader (.map v.entries) = some { v with schemaVersion := 0 } := by
  obtain ⟨type, sync, version, stream⟩ := v
  cases stream <;>
    simp [convertHeader, MessageHeader.entries, convertEntry, FieldType.object, asMpUint]

/-- A packed header is short. -/
theorem length_packHeader_le {mp : Codec} (hmp : mp.Lawful) (v : MessageHeader) :
    (packHeader mp v).length ≤ 59 := by
  have hmap := hmp.length_packMap_le (if v.streamId.isSome then 3 else 2)
  have huint := fun n ↦ hmp.length_pack_uint_le n
  have hkey := fun f : FieldType ↦ huint f.value
  have h₁ := hkey .sync
  have h₂ := huint v.sync
  have h₃ := hkey .requestType
  have h₄ := huint v.requestType
  cases h : v.streamId with
  | none =>
      simp only [packHeader, h, FieldType.object, List.length_append, List.length_nil] at *
      omega
  | some id =>
      have h₅ := hkey .streamId
      have h₆ := huint id
      simp only [packHeader, h, FieldType.object, List.length_append] at *
      omega

/-- A packed header is unpacked from the front of any byte string. -/
theorem unpack_packHeader {mp : Codec} (hmp : mp.Lawful) (v : MessageHeader) (rest : List UInt8) :
    mp.unpack (packHeader mp v ++ rest) = some (.map v.entries, (packHeader mp v).length) := by
  have hlen := length_packHeader_le hmp v
  rw [packHeader_eq hmp] at hlen ⊢
  exact hmp.unpack_pack _ _ (by omega)

/-! ## Error codes of responses -/

theorem MessageHeader.isError_iff (h : MessageHeader) :
    h.isError = true ↔ 0x8000 ≤ h.requestType.toNat ∧ h.requestType.toNat ≤ 0x8999 := by
  simp [isError, isErrorReqType, RequestType.value, UInt64.le_iff_toNat_le]

/-- The value of the error code of an error response: the error number while the
client knows it, and zero beyond. -/
theorem MessageHeader.value_getErrorCode {h : MessageHeader} (he : h.isError = true) :
    h.getErrorCode.value =
      if h.requestType.toNat - 0x8000 ≤ 280 then ↑(h.requestType.toNat - 0x8000) else 0 := by
  have hlo := ((h.isError_iff).mp he).1
  have hle : (0x8000 : UInt64) ≤ h.requestType := by
    rw [UInt64.le_iff_toNat_le]
    exact hlo
  have hsub : (h.requestType - 0x8000).toNat = h.requestType.toNat - 0x8000 :=
    UInt64.toNat_sub_of_le _ _ hle
  simp only [getErrorCode, he, if_true, RequestType.value, intToTarantoolError,
    TarantoolError.fieldValueOutOfRange, TarantoolError.unknown, UInt64.le_iff_toNat_le, hsub]
  split_ifs with h₁ h₂ h₂
  · exact congrArg _ hsub
  · exact absurd h₁ h₂
  · exact absurd h₂ h₁
  · rfl

/-- The error code of an error response tests true exactly for the error numbers
from `1` to the last one the client knows. -/
theorem MessageHeader.failed_getErrorCode_iff {h : MessageHeader} (he : h.isError = true) :
    h.getErrorCode.failed = true ↔
      1 ≤ h.requestType.toNat - 0x8000 ∧ h.requestType.toNat - 0x8000 ≤ 280 := by
  rw [ErrorCode.failed_iff, value_getErrorCode he]
  split_ifs with h₁
  · omega
  · simp only [ne_eq, not_true_eq_false, false_iff]
    omega

end Tntpp
