import Mathlib.Data.List.Nodup
import Mathlib.Data.List.Perm.Subperm
import Tntpp.Box.Operations
import Tntpp.Detail.Payload
import Tntpp.Detail.Reassembly

/-!
# Selects

A `SelectBuilder` streams the options into a map whose number of entries is written
last, and keeps the space and the index aside for `Box::select`.  What is sent is
described by the map the server reads: `SelectProgram.fields` is the map the caller has
asked for, `sentFields` the one that is written.

`Streams` says what a packer has written that is in the middle of such a map.
-/

namespace Tntpp

open BigEndian Block
open MsgPack (Object Codec)

/-- Fields as the entries of a map. -/
def entriesOf (fields : List (FieldType × Object)) : List (Object × Object) :=
  fields.map fun f ↦ (f.1.object, f.2)

namespace RequestPacker

/-- The body of a message that was streamed: the tag of the map, the number of entries,
and the entries. -/
def streamedBody (mp : Codec) (count : Nat) (kvs : List (Object × Object)) : List UInt8 :=
  mapTag :: (bytes 2 count ++ mp.packEntries kvs)

/-- The packer has written `head` and some entries of a map whose number of entries is
reserved. -/
structure Streams (mp : Codec) (head : List UInt8) (kvs : List (Object × Object))
    (p : RequestPacker) : Prop where
  /-- What was written. -/
  wrote : p.Wrote (head ++ streamedBody mp 0xffff kvs)
  /-- The reserved place. -/
  offset : p.mapLenOffset = head.length + 6
  /-- The entries are counted. -/
  count : p.headerCount = .ofNat kvs.length

variable {mp : Codec} {head : List UInt8} {kvs : List (Object × Object)} {p : RequestPacker}

theorem streams_beginUnsizedMap (h : p.Wrote head) (hcount : p.headerCount = 0) :
    p.beginUnsizedMap.Streams mp head [] where
  wrote := by
    have hw := (h.write [mapTag]).write (bytes 2 0xffff)
    rw [List.append_assoc] at hw
    rw [streamedBody, Codec.packEntries_nil, List.append_nil]
    exact hw
  offset := by
    change (p.stream ++ [mapTag]).length = _
    rw [h, List.length_append, List.length_append]
    simp [new]
    omega
  count := hcount

theorem Streams.packMapEntry (h : p.Streams mp head kvs) (field : FieldType) (data : Object) :
    (p.packMapEntry mp field data).Streams mp head (kvs ++ [(field.object, data)]) where
  wrote := by
    have hw := h.wrote.packMapEntry mp field data
    have happ : mp.packEntries (kvs ++ [(field.object, data)]) =
        mp.packEntries kvs ++ mp.packEntries [(field.object, data)] := List.flatMap_append
    rw [streamedBody, happ]
    rw [streamedBody] at hw
    simpa using hw
  offset := h.offset
  count := by
    change p.headerCount + 1 = _
    rw [h.count, List.length_append, List.length_singleton, UInt16.ofNat_add]
    rfl

/-- Finalizing the map and the message fills in the number of entries and the length. -/
theorem Streams.finalize (h : p.Streams mp head kvs) (hcount : kvs.length < 2 ^ 16) :
    ∃ p', p.finalizeMap = some p' ∧
      p'.finalize.stream = sizeTag :: (bytes 4 (head ++ streamedBody mp kvs.length kvs).length ++
        (head ++ streamedBody mp kvs.length kvs)) := by
  have hne : p.mapLenOffset ≠ 0 := by
    rw [h.offset]
    exact Nat.succ_ne_zero _
  refine ⟨_, if_pos hne, finalize_stream ?_⟩
  -- what precedes the reserved place, and what follows it
  have hfront : (new.stream ++ head ++ [mapTag]).length = p.mapLenOffset := by
    rw [h.offset, List.length_append, List.length_append]
    simp [new]
    omega
  have hstream : p.stream =
      (new.stream ++ head ++ [mapTag]) ++ (bytes 2 0xffff ++ mp.packEntries kvs) := by
    have hw : p.stream = new.stream ++ (head ++ streamedBody mp 0xffff kvs) := h.wrote
    rw [hw, streamedBody]
    simp
  have hn : p.headerCount.toNat = kvs.length := by
    rw [h.count, UInt16.toNat_ofNat']
    exact Nat.mod_eq_of_lt hcount
  have hback : overwrite (bytes 2 0xffff ++ mp.packEntries kvs) 0 (bytes 2 kvs.length) =
      bytes 2 kvs.length ++ mp.packEntries kvs := by
    rw [overwrite, length_bytes, Nat.zero_add, List.drop_left' (length_bytes 2 _)]
    rfl
  change overwrite p.stream p.mapLenOffset (bytes 2 p.headerCount.toNat) = _
  rw [hstream, hn, overwrite_append (Nat.le_of_eq hfront), hfront, Nat.sub_self, hback, streamedBody]
  simp

end RequestPacker

/-! ## The builder -/

/-- The field an option concerns. -/
def SelectOption.field : SelectOption → FieldType
  | .index _ => .indexId
  | .limit _ => .limit
  | .offset _ => .offset
  | .iterator _ => .iterator
  | .key _ => .key
  | .afterPosition _ => .afterPosition
  | .afterTuple _ => .afterTuple
  | .fetchPosition _ => .fetchPosition

/-- The value of an option that the builder writes at once. -/
def SelectOption.value? : SelectOption → Option Object
  | .index _ => none
  | .limit value => some (.uint value)
  | .offset value => some (.uint value)
  | .iterator it => some (.uint it.value)
  | .key tuple => some tuple
  | .afterPosition pos => some (.str pos)
  | .afterTuple pos => some pos
  | .fetchPosition val => some (.bool val)

/-- The fields of the options that the builder writes at once, in the order of the calls. -/
def SelectOption.fields (calls : List SelectOption) : List (FieldType × Object) :=
  calls.filterMap fun o ↦ o.value?.map fun value ↦ (o.field, value)

namespace SelectBuilder

open RequestPacker

variable {mp : Codec} {space index : SpaceVariant} {id : MpUint}

theorem streams_new (mp : Codec) (space index : SpaceVariant) (id : MpUint) :
    (new mp space index id).packer.Streams mp (packHeader mp (requestHeader id .select)) [] :=
  streams_beginUnsizedMap (wrote_new.write _) rfl

theorem streams_apply {r : SelectRequest} {head : List UInt8} {kvs : List (Object × Object)}
    (h : r.packer.Streams mp head kvs) (o : SelectOption) :
    (apply mp r o).packer.Streams mp head (kvs ++ entriesOf (SelectOption.fields [o])) := by
  cases o with
  | index index => simpa [SelectOption.fields, SelectOption.value?, entriesOf, apply] using h
  | limit value => exact h.packMapEntry _ _
  | offset value => exact h.packMapEntry _ _
  | iterator it => exact h.packMapEntry _ _
  | key key => exact h.packMapEntry _ _
  | afterPosition pos => exact h.packMapEntry _ _
  | afterTuple pos => exact h.packMapEntry _ _
  | fetchPosition val => exact h.packMapEntry _ _

theorem streams_foldl {r : SelectRequest} {head : List UInt8} {kvs : List (Object × Object)}
    (h : r.packer.Streams mp head kvs) (calls : List SelectOption) :
    (calls.foldl (apply mp) r).packer.Streams mp head
      (kvs ++ entriesOf (SelectOption.fields calls)) := by
  induction calls generalizing r kvs with
  | nil => simpa [SelectOption.fields, entriesOf] using h
  | cons o os ih =>
      have h' := ih (streams_apply h o)
      have happ : SelectOption.fields (o :: os) =
          SelectOption.fields [o] ++ SelectOption.fields os := List.filterMap_append (l := [o])
      rw [happ, entriesOf, List.map_append, ← List.append_assoc]
      exact h'

theorem space_apply (r : SelectRequest) (o : SelectOption) : (apply mp r o).space = r.space := by
  cases o <;> rfl

theorem space_foldl (r : SelectRequest) (calls : List SelectOption) :
    (calls.foldl (apply mp) r).space = r.space := by
  induction calls generalizing r with
  | nil => rfl
  | cons o os ih => exact (ih (apply mp r o)).trans (space_apply r o)

end SelectBuilder

/-- No option twice means no more than eight. -/
theorem SelectOption.length_le {calls : List SelectOption}
    (h : (calls.map SelectOption.field).Nodup) : calls.length ≤ 8 := by
  have hsub : calls.map SelectOption.field ⊆ [.indexId, .limit, .offset, .iterator, .key,
      .afterPosition, .afterTuple, .fetchPosition] := by
    intro f hf
    obtain ⟨o, -, rfl⟩ := List.mem_map.mp hf
    cases o <;> simp [SelectOption.field]
  have hle := (List.subperm_of_subset h hsub).length_le
  rwa [List.length_map] at hle

theorem SelectOption.length_fields_le (calls : List SelectOption) :
    (SelectOption.fields calls).length ≤ calls.length := List.length_filterMap_le _ _

/-- The fields that are written: the space comes last, and the index not at all. -/
def SelectOption.sentFields (calls : List SelectOption) (space : SpaceId) :
    List (FieldType × Object) :=
  SelectOption.fields calls ++ [(.spaceId, .uint space)]

theorem SelectOption.length_sent_lt {calls : List SelectOption}
    (h : (calls.map SelectOption.field).Nodup) (space : SpaceId) :
    (entriesOf (SelectOption.sentFields calls space)).length < 2 ^ 16 := by
  have hle := SelectOption.length_fields_le calls
  have hcalls := SelectOption.length_le h
  simp only [entriesOf, sentFields, List.length_map, List.length_append, List.length_singleton]
  omega

/-- The map of a select as it is written. -/
def selectBody (mp : Codec) (calls : List SelectOption) (space : SpaceId) : List UInt8 :=
  RequestPacker.streamedBody mp (entriesOf (SelectOption.sentFields calls space)).length
    (entriesOf (SelectOption.sentFields calls space))

/-- The payload of a select: its header and one map. -/
def selectPayload (mp : Codec) (id : OperationId) (calls : List SelectOption) (space : SpaceId) :
    List UInt8 :=
  packHeader mp (requestHeader id .select) ++ selectBody mp calls space

/-- A select whose space has a number sends its payload behind the length of it. -/
theorem Box.select_stream (mp : Codec) {space : SpaceVariant} {n : SpaceId}
    (hspace : Box.getSpaceIndex space = ({}, n)) (index : SpaceVariant) (id : OperationId)
    {calls : List SelectOption} (honce : (calls.map SelectOption.field).Nodup) :
    ∃ packer, Box.select mp (SelectBuilder.build mp space index id calls) = some (.ok packer) ∧
      packer.stream = 0xce :: (bytes 4 (selectPayload mp id calls n).length ++
        selectPayload mp id calls n) := by
  have hstreams := (SelectBuilder.streams_foldl
    (SelectBuilder.streams_new mp space index id) calls).packMapEntry .spaceId (.uint n)
  have hsent : [] ++ entriesOf (SelectOption.fields calls) ++ [(FieldType.spaceId.object, .uint n)] =
      entriesOf (SelectOption.sentFields calls n) := by
    simp [entriesOf, SelectOption.sentFields]
  rw [hsent] at hstreams
  obtain ⟨p, hp, hstream⟩ := hstreams.finalize (SelectOption.length_sent_lt honce n)
  have hbuild : (SelectBuilder.build mp space index id calls).space = space :=
    SelectBuilder.space_foldl _ calls
  refine ⟨p.finalize, ?_, hstream⟩
  rw [Box.select, hbuild, hspace]
  dsimp only
  rw [if_neg (by decide), SelectBuilder.build, hp]
  rfl

/-! ## Programs -/

/-- A program over a builder: the space and the index are numbers, and no option is
given twice. -/
structure SelectProgram where
  /-- The space. -/
  space : SpaceId
  /-- The index, if the constructor takes one. -/
  index : Option IndexId
  /-- The calls, in order. -/
  calls : List SelectOption
  /-- An index is a number. -/
  numeric : ∀ v, .index v ∈ calls → ∃ n, v = .id n
  /-- No option is given twice. -/
  once : (calls.map SelectOption.field).Nodup

namespace SelectProgram

variable {mp : Codec}

/-- The index a call gives. -/
def indexOf : SelectOption → Option IndexId
  | .index (.id n) => some n
  | _ => none

/-- The index that was given, by a call or to the constructor. -/
def givenIndex (p : SelectProgram) : Option IndexId := (p.calls.findSome? indexOf).or p.index

/-- The map the caller has asked for. -/
def fields (p : SelectProgram) : List (FieldType × Object) :=
  (.spaceId, .uint p.space) ::
    ((p.givenIndex.toList.map fun n ↦ (.indexId, .uint n)) ++ SelectOption.fields p.calls)

/-- The message `Box::select` sends. -/
def select (mp : Codec) (id : OperationId) (p : SelectProgram) :
    Option (Except ErrorCode RequestPacker) :=
  Box.select mp (SelectBuilder.build mp (.id p.space) (p.index.elim .monostate .id) id p.calls)

/-- The payload of that message. -/
def payload (mp : Codec) (id : OperationId) (p : SelectProgram) : List UInt8 :=
  selectPayload mp id p.calls p.space

/-- A message is sent that `receive_message` decodes to the header of a select and a body
that is one map: it declares as many entries as it has, nothing follows them, and they are
the fields the caller has asked for, in some order. -/
def Faithful (mp : Codec) (id : OperationId) (p : SelectProgram) : Prop :=
  ∃ packer, p.select mp id = some (.ok packer) ∧
    ∀ (s : IprotoFraming) (rest : List UInt8), s.pending = packer.stream ++ rest →
      ∃ frame s' kvs, s.receiveMessage mp = some (({}, frame), s') ∧ s'.pending = rest ∧
        frame.header = { requestType := RequestType.select.value, sync := id } ∧
        s'.buffer.view frame.body = 0xde :: (bytes 2 kvs.length ++ mp.packEntries kvs) ∧
        mp.unpack (s'.buffer.view frame.body) =
          some (.map kvs, (s'.buffer.view frame.body).length) ∧
        kvs.Perm (entriesOf p.fields)

/-! ## What is decoded -/

theorem length_streamedBody (mp : Codec) (n : Nat) (kvs : List (Object × Object)) :
    (RequestPacker.streamedBody mp n kvs).length = (mp.packEntries kvs).length + 3 := by
  rw [RequestPacker.streamedBody, List.length_cons, List.length_append, length_bytes]
  omega

/-- A select as a frame on the wire. -/
def wireFrame (hmp : mp.Lawful) (id : OperationId) (p : SelectProgram)
    (h : (p.payload mp id).length < 2 ^ 32) : WireFrame mp where
  head := packHeader mp (requestHeader id .select)
  body := selectBody mp p.calls p.space
  object := .map (requestHeader id .select).entries
  header := requestHeader id .select
  unpack_eq := unpack_packHeader hmp _ _
  convert_eq := convertHeader_entries _
  body_ne_nil := List.cons_ne_nil _ _
  length_lt := h

theorem select_stream (mp : Codec) (id : OperationId) (p : SelectProgram) :
    ∃ packer, p.select mp id = some (.ok packer) ∧
      packer.stream = 0xce :: (bytes 4 (p.payload mp id).length ++ p.payload mp id) := by
  have hspace : Box.getSpaceIndex (.id p.space) = ({}, p.space) := rfl
  exact Box.select_stream mp hspace (p.index.elim .monostate .id) id p.once

/-- A message that is not too long is decoded to the fields that were written. -/
theorem receive_sent (hmp : mp.Lawful) (hmap : mp.ReadsMap16) (id : OperationId) (p : SelectProgram)
    (h : (p.payload mp id).length < 2 ^ 32) {packer : RequestPacker}
    (hstream : packer.stream = 0xce :: (bytes 4 (p.payload mp id).length ++ p.payload mp id))
    {s : IprotoFraming} {rest : List UInt8} (hs : s.pending = packer.stream ++ rest) :
    ∃ frame s', s.receiveMessage mp = some (({}, frame), s') ∧ s'.pending = rest ∧
      frame.header = { requestType := RequestType.select.value, sync := id } ∧
      s'.buffer.view frame.body = selectBody mp p.calls p.space ∧
      mp.unpack (s'.buffer.view frame.body) =
        some (.map (entriesOf (SelectOption.sentFields p.calls p.space)),
          (s'.buffer.view frame.body).length) := by
  rw [hstream] at hs
  obtain ⟨frame, s', hs', hh, -, hv, hp, -⟩ :=
    IprotoFraming.receiveMessage_spec (p.wireFrame hmp id h) hs
  refine ⟨frame, s', hs', hp, hh, hv, ?_⟩
  have hv' : s'.buffer.view frame.body = selectBody mp p.calls p.space := hv
  have hbody := h
  rw [payload, selectPayload, List.length_append, selectBody, length_streamedBody] at hbody
  have hread := hmap (entriesOf (SelectOption.sentFields p.calls p.space)) []
    (SelectOption.length_sent_lt p.once p.space) (by omega)
  rw [List.append_nil] at hread
  rw [hv', selectBody, length_streamedBody]
  exact hread

/-- What `receive_message` takes for a body is no longer than the length it has read. -/
theorem length_body_le {n : Nat} {s s' : IprotoFraming} {frame : IprotoFrame FrozenBuffer}
    {rest : List UInt8} (hn : n < 2 ^ 32) (h : s.pending = 0xce :: (bytes 4 n ++ rest))
    (hs' : s.receiveMessage mp = some (({}, frame), s')) :
    (s'.buffer.view frame.body).length ≤ n := by
  have hlength : (UInt32.ofNat n).toNat = n := UInt32.toNat_ofNat_of_lt' hn
  have hreads : s.ReadsLength (.ofNat n) rest := by
    refine (IprotoFraming.readsLength_iff .uint32 _ ?_ s rest ?_).mpr (by decide)
    · rw [hlength]
      exact hn
    · rw [hlength]
      exact h
  obtain ⟨offset, hview⟩ := IprotoFraming.view_body_of_receiveMessage hreads hs'
  rw [hview, hlength, List.length_drop, List.length_take]
  omega

/-! ## Which programs are faithful -/

/-- Entries take the same number of bytes in any order. -/
theorem length_packEntries_perm {kvs kvs' : List (Object × Object)} (h : kvs.Perm kvs') :
    (mp.packEntries kvs).length = (mp.packEntries kvs').length :=
  (h.flatMap_right _).length_eq

/-- The fields the caller has asked for are those that are written, and the index. -/
theorem fields_perm (p : SelectProgram) :
    (entriesOf p.fields).Perm
      (entriesOf (p.givenIndex.toList.map fun n ↦ (.indexId, .uint n)) ++
        entriesOf (SelectOption.sentFields p.calls p.space)) := by
  simp only [entriesOf, fields, SelectOption.sentFields, List.map_append, List.map_cons,
    List.map_nil]
  rw [← List.append_assoc]
  exact (List.perm_append_singleton _ _).symm

/-- A message that is too long is cut short: the length in front of it is taken modulo
`2 ^ 32`, and no body of so few bytes has all the fields. -/
theorem length_payload_lt (hmp : mp.Lawful) {id : OperationId} {p : SelectProgram}
    (h : p.Faithful mp id) : (p.payload mp id).length < 2 ^ 32 := by
  obtain ⟨packer, hpacker, hall⟩ := h
  obtain ⟨packer', hpacker', hstream⟩ := p.select_stream mp id
  cases hpacker.symm.trans hpacker'
  rw [← bytes_mod] at hstream
  obtain ⟨frame, s', kvs, hs', -, -, hbody, -, hperm⟩ :=
    hall (IprotoFraming.ofBytes packer.stream) []
      ((IprotoFraming.pending_ofBytes _).trans (List.append_nil _).symm)
  have hle := length_body_le (Nat.mod_lt _ (by decide))
    ((IprotoFraming.pending_ofBytes _).trans hstream) hs'
  have hentries : (mp.packEntries kvs).length = (mp.packEntries _).length :=
    length_packEntries_perm (hperm.trans p.fields_perm)
  have hhead := length_packHeader_le hmp (requestHeader id .select)
  rw [hbody, List.length_cons, List.length_append, length_bytes, hentries, Codec.packEntries,
    List.flatMap_append, List.length_append] at hle
  have hpayload : (p.payload mp id).length = (packHeader mp (requestHeader id .select)).length +
      ((mp.packEntries (entriesOf (SelectOption.sentFields p.calls p.space))).length + 3) := by
    rw [payload, selectPayload, List.length_append, selectBody, length_streamedBody]
  rw [Codec.packEntries] at hpayload
  -- the header is far shorter than what is lost
  by_contra hlt
  omega

/-- An index is not among the fields that are written. -/
theorem givenIndex_eq_none (hmp : mp.Lawful) (hmap : mp.ReadsMap16) {id : OperationId}
    {p : SelectProgram} (h : p.Faithful mp id) : p.givenIndex = none := by
  have hlt := length_payload_lt hmp h
  obtain ⟨packer, hpacker, hall⟩ := h
  obtain ⟨packer', hpacker', hstream⟩ := p.select_stream mp id
  cases hpacker.symm.trans hpacker'
  have hpending : (IprotoFraming.ofBytes packer.stream).pending = packer.stream ++ [] :=
    (IprotoFraming.pending_ofBytes _).trans (List.append_nil _).symm
  obtain ⟨frame, s', kvs, hs', -, -, -, hunpack, hperm⟩ := hall _ _ hpending
  obtain ⟨frame', s'', hs'', -, -, -, hunpack'⟩ := p.receive_sent hmp hmap id hlt hstream hpending
  cases hs''.symm.trans hs'
  cases hunpack.symm.trans hunpack'
  -- the fields that were written are as many as the caller has asked for
  have hlength := (hperm.trans p.fields_perm).length_eq
  rw [List.length_append] at hlength
  cases hindex : p.givenIndex with
  | none => rfl
  | some n =>
      rw [hindex] at hlength
      change _ = 1 + _ at hlength
      omega

/-- A program is faithful if and only if no index was given and the message is not too
long. -/
theorem faithful_iff (mp : Codec) (hmp : mp.Lawful) (hmap : mp.ReadsMap16) (id : OperationId)
    (p : SelectProgram) :
    p.Faithful mp id ↔ p.givenIndex = none ∧ (p.payload mp id).length < 2 ^ 32 := by
  constructor
  · intro h
    exact ⟨givenIndex_eq_none hmp hmap h, length_payload_lt hmp h⟩
  · rintro ⟨hindex, hlt⟩
    obtain ⟨packer, hpacker, hstream⟩ := p.select_stream mp id
    refine ⟨packer, hpacker, fun s rest hs ↦ ?_⟩
    obtain ⟨frame, s', hs', hp, hh, hv, hunpack⟩ := p.receive_sent hmp hmap id hlt hstream hs
    have hperm := p.fields_perm
    rw [hindex] at hperm
    exact ⟨frame, s', _, hs', hp, hh, hv, hunpack, hperm.symm⟩

/-- The first ten tuples of a space. -/
def firstTen (index : Option IndexId) : SelectProgram where
  space := 512
  index := index
  calls := [.iterator .all, .limit 10]
  numeric := by simp
  once := by decide

theorem faithful_firstTen : (firstTen none).Faithful .reference 1 :=
  (faithful_iff .reference Codec.reference_lawful Codec.reference_readsMap16 1 _).mpr
    ⟨rfl, by decide⟩

/-- The first ten tuples in the order of an index: the map that is sent is the same as
without the index. -/
theorem index_not_sent :
    (firstTen (some 1)).fields =
        [(.spaceId, .uint 512), (.indexId, .uint 1), (.iterator, .uint 2), (.limit, .uint 10)] ∧
      (firstTen (some 1)).select .reference 1 = (firstTen none).select .reference 1 ∧
      ¬ (firstTen (some 1)).Faithful .reference 1 := by
  refine ⟨rfl, rfl, fun h ↦ ?_⟩
  cases givenIndex_eq_none Codec.reference_lawful Codec.reference_readsMap16 h

end SelectProgram

end Tntpp
