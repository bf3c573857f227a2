import Tntpp.Detail.Decoders

/-!
# The header codec

`pack` and `convert` of a `MessageHeader` are written apart from each other.  A header
that is packed is converted back, and for any object at all it is told from the entries
alone whether `convert` accepts it and which header it returns: the number of a field is
that of the last entry with its key, whatever the other entries are.
-/

namespace Tntpp

open MsgPack (Object Codec)

/-- The number in a field of a header. -/
def MessageHeader.number (h : MessageHeader) : FieldType → Option MpUint
  | .requestType => some h.requestType
  | .sync => some h.sync
  | .schemaVersion => some h.schemaVersion
  | .streamId => h.streamId
  | _ => none

/-- An object is a map of known keys, and what stands in the fields of a header is an
unsigned 64-bit integer. -/
def HeaderMap (o : Object) : Prop :=
  ∃ kvs : List (Object × Object), o = .map kvs ∧ ∀ kv ∈ kvs, ∃ key f, kv.1 = .uint key ∧
    intToFieldType key = some f ∧ (f ∈ FieldType.headerFields → ∃ n, kv.2 = .uint n)

/-- The number of the last entry with the key of a field, or a default. -/
inductive LastOccurrence (f : FieldType) (default : Option MpUint) :
    List (Object × Object) → Option MpUint → Prop
  /-- No entry has the key. -/
  | absent {kvs : List (Object × Object)} (h : ∀ kv ∈ kvs, kv.1 ≠ f.object) :
      LastOccurrence f default kvs default
  /-- No later entry has the key. -/
  | last {before after : List (Object × Object)} {n : MpUint}
      (h : ∀ kv ∈ after, kv.1 ≠ f.object) :
      LastOccurrence f default (before ++ (f.object, .uint n) :: after) (some n)

/-! ## The last entry with a key -/

section

variable {f : FieldType} {default v : Option MpUint} {kvs : List (Object × Object)}
variable {kv : Object × Object}

/-- An entry with another key does not count. -/
theorem LastOccurrence.append (h : LastOccurrence f default kvs v) (hkv : kv.1 ≠ f.object) :
    LastOccurrence f default (kvs ++ [kv]) v := by
  cases h with
  | absent h =>
      apply LastOccurrence.absent
      intro kv' hmem
      rcases List.mem_append.mp hmem with hmem | hmem
      · exact h kv' hmem
      · rw [List.mem_singleton.mp hmem]
        exact hkv
  | @last before after n h =>
      rw [List.append_assoc, List.cons_append]
      apply LastOccurrence.last
      intro kv' hmem
      rcases List.mem_append.mp hmem with hmem | hmem
      · exact h kv' hmem
      · rw [List.mem_singleton.mp hmem]
        exact hkv

theorem numberUnder_of_ne (hkv : kv.1 ≠ f.object) : numberUnder f kv = none := by
  obtain ⟨key, val⟩ := kv
  cases key with
  | uint key =>
      cases val with
      | uint n => exact if_neg fun hkey ↦ hkv (congrArg Object.uint hkey)
      | _ => rfl
  | _ => rfl

/-- The loop over the entries finds the last one. -/
theorem lastOccurrence_lastNumber (hf : f ∈ FieldType.headerFields) (default : Option MpUint)
    (h : ∀ kv ∈ kvs, HeaderEntry kv) :
    LastOccurrence f default kvs ((lastNumber f kvs).or default) := by
  induction kvs using List.reverseRecOn with
  | nil => exact LastOccurrence.absent fun kv hkv ↦ absurd hkv List.not_mem_nil
  | append_singleton kvs kv ih =>
      have hkv : HeaderEntry kv := h kv (List.mem_append_right kvs List.mem_cons_self)
      have hkvs := ih fun x hx ↦ h x (List.mem_append_left [kv] hx)
      rw [lastNumber_append]
      by_cases hkey : kv.1 = f.object
      · obtain ⟨key, val⟩ := kv
        obtain ⟨g, hg, hval⟩ := hkv
        obtain rfl : key = f.object := hkey
        obtain rfl : f = g := FieldType.value_injective (Object.uint.inj hg)
        obtain ⟨n, hn⟩ := hval hf
        obtain rfl : val = .uint n := hn
        rw [numberUnder_object, if_pos rfl, Option.some_or, Option.some_or]
        exact LastOccurrence.last fun kv hkv ↦ absurd hkv List.not_mem_nil
      · rw [numberUnder_of_ne hkey, Option.none_or]
        exact hkvs.append hkey

/-- Only the entries with the key of a field have a say in its number. -/
theorem lastNumber_filter (f : FieldType) (kvs : List (Object × Object)) :
    lastNumber f (kvs.filter (isField f)) = lastNumber f kvs := by
  induction kvs using List.reverseRecOn with
  | nil => rfl
  | append_singleton kvs kv ih =>
      rw [List.filter_append, lastNumber_append, ← ih]
      cases hkv : isField f kv with
      | true => rw [List.filter_cons_of_pos hkv, List.filter_nil, lastNumber_append]
      | false =>
          have hne : kv.1 ≠ f.object := by
            intro hkey
            obtain ⟨key, val⟩ := kv
            obtain rfl : key = f.object := hkey
            simp [isField, FieldType.object] at hkv
          rw [List.filter_cons_of_neg (by simp [hkv]), List.filter_nil, List.append_nil,
            numberUnder_of_ne hne, Option.none_or]

end

/-! ## What is accepted and what is returned -/

theorem headerMap_map_iff {kvs : List (Object × Object)} :
    HeaderMap (.map kvs) ↔ ∀ kv ∈ kvs, HeaderEntry kv := by
  constructor
  · rintro ⟨kvs', hmap, h⟩ kv hkv
    obtain rfl := Object.map.inj hmap
    obtain ⟨key, f, hkey, hf, hval⟩ := h kv hkv
    refine ⟨f, ?_, hval⟩
    rw [hkey, intToFieldType_eq_some_iff.mp hf]
    rfl
  · intro h
    refine ⟨kvs, rfl, ?_⟩
    intro kv hkv
    obtain ⟨f, hkey, hval⟩ := h kv hkv
    exact ⟨f.value, f, hkey, intToFieldType_value f, hval⟩

theorem convertHeader_isSome_iff {o : Object} : (∃ h, convertHeader o = some h) ↔ HeaderMap o := by
  constructor
  · rintro ⟨h, hconv⟩
    cases o with
    | map kvs => exact headerMap_map_iff.mpr (convertHeader_map_eq_some_iff.mp hconv).1
    | _ => cases hconv
  · rintro ⟨kvs, rfl, hentries⟩
    have hmap := headerMap_map_iff.mp ⟨kvs, rfl, hentries⟩
    exact ⟨headerOf kvs, convertHeader_map_eq_some_iff.mpr ⟨hmap, rfl⟩⟩

/-- The number in a field of a converted header. -/
theorem number_headerOf {f : FieldType} (hf : f ∈ FieldType.headerFields)
    (kvs : List (Object × Object)) :
    (headerOf kvs).number f = (lastNumber f kvs).or (({} : MessageHeader).number f) := by
  simp only [FieldType.headerFields, List.mem_cons, List.not_mem_nil, or_false] at hf
  rcases hf with rfl | rfl | rfl | rfl
  · cases h : lastNumber .requestType kvs <;> simp [headerOf, MessageHeader.number, h]
  · cases h : lastNumber .sync kvs <;> simp [headerOf, MessageHeader.number, h]
  · cases h : lastNumber .schemaVersion kvs <;> simp [headerOf, MessageHeader.number, h]
  · cases h : lastNumber .streamId kvs <;> simp [headerOf, MessageHeader.number, h]

/-- A header that is packed is converted back without its schema version; an object is
converted if and only if it is a map of known keys with numbers in the fields of a header;
and each of these fields has the number of the last entry with its key, so maps with the
same entries under the key give the same number. -/
theorem header_codec {mp : Codec} (hmp : mp.Lawful) :
    (∀ (h : MessageHeader) (rest : List UInt8), ∃ o,
      mp.unpack (packHeader mp h ++ rest) = some (o, (packHeader mp h).length) ∧
        convertHeader o = some { h with schemaVersion := 0 }) ∧
    (∀ o, (∃ h, convertHeader o = some h) ↔ HeaderMap o) ∧
    (∀ kvs h, convertHeader (.map kvs) = some h → ∀ f ∈ FieldType.headerFields,
      LastOccurrence f (({} : MessageHeader).number f) kvs (h.number f)) ∧
    (∀ kvs kvs' h h', convertHeader (.map kvs) = some h → convertHeader (.map kvs') = some h' →
      ∀ f ∈ FieldType.headerFields, kvs.filter (isField f) = kvs'.filter (isField f) →
        h.number f = h'.number f) := by
  refine ⟨?_, ?_, ?_, ?_⟩
  · intro h rest
    exact ⟨.map h.entries, unpack_packHeader hmp h rest, convertHeader_entries h⟩
  · intro o
    exact convertHeader_isSome_iff
  · intro kvs h hconv f hf
    obtain ⟨hentries, rfl⟩ := convertHeader_map_eq_some_iff.mp hconv
    rw [number_headerOf hf]
    exact lastOccurrence_lastNumber hf _ hentries
  · intro kvs kvs' h h' hconv hconv' f hf hfilter
    obtain ⟨-, rfl⟩ := convertHeader_map_eq_some_iff.mp hconv
    obtain ⟨-, rfl⟩ := convertHeader_map_eq_some_iff.mp hconv'
    rw [number_headerOf hf, number_headerOf hf, ← lastNumber_filter f kvs, hfilter,
      lastNumber_filter]

/-- The header of a call in a stream, in front of its body. -/
theorem header_codec_call : ∃ o,
    Codec.reference.unpack (packHeader Codec.reference
        { requestType := 0x0a, sync := 7, schemaVersion := 80, streamId := some 3 } ++ [0x80]) =
      some (o, (packHeader Codec.reference
        { requestType := 0x0a, sync := 7, schemaVersion := 80, streamId := some 3 }).length) ∧
      convertHeader o = some { requestType := 0x0a, sync := 7, streamId := some 3 } :=
  (header_codec Codec.reference_lawful).1
    { requestType := 0x0a, sync := 7, schemaVersion := 80, streamId := some 3 } [0x80]

end Tntpp
