import Tntpp.Box.Sync
import Tntpp.Detail.Reassembly

/-!
# Requests on the wire

Whatever a caller asks for, what is handed to `send_request` is one frame: a length, the
header with the identifier the request is registered under, and a body that is not empty.
So a receiver that takes frames off a stream finds the messages of this program where they
begin and end: `ApiCall.wireFrame_packer`.
-/

namespace Tntpp

open BigEndian Block
open MsgPack (Object Codec)

namespace RequestPacker

variable {mp : Codec} {h : MessageHeader} {p : RequestPacker}

/-- A packer has written a header and something behind it. -/
structure HasBody (mp : Codec) (h : MessageHeader) (p : RequestPacker) : Prop
    extends p.HasHeader mp h where
  /-- There is something behind the header. -/
  length_lt : 5 + (Tntpp.packHeader mp h).length < p.stream.length

theorem HasHeader.length_le (hp : p.HasHeader mp h) :
    5 + (Tntpp.packHeader mp h).length ≤ p.stream.length := by
  obtain ⟨rest, hrest⟩ := hp.wrote
  rw [hrest, List.length_append, List.length_append, length_stream_new]
  omega

theorem HasHeader.hasBody_write (hp : p.HasHeader mp h) {bs : List UInt8} (hbs : bs ≠ []) :
    (p.write bs).HasBody mp h where
  toHasHeader := hp.write bs
  length_lt := by
    have hle := hp.length_le
    have hpos := List.length_pos_iff.mpr hbs
    rw [RequestPacker.write, List.length_append]
    omega

theorem HasHeader.hasBody_packMapEntry (hmp : mp.Lawful) (hp : p.HasHeader mp h)
    (field : FieldType) (data : Object) : (p.packMapEntry mp field data).HasBody mp h := by
  have hb := (hp.write (mp.pack field.object)).hasBody_write (hmp.pack_ne_nil data)
  exact ⟨⟨hb.wrote, hb.offset⟩, hb.length_lt⟩

/-- Writing the number of entries of a map shortens nothing. -/
theorem HasBody.finalizeMap (hp : p.HasBody mp h) {p' : RequestPacker}
    (hf : p.finalizeMap = some p') : p'.HasBody mp h := by
  refine ⟨hp.toHasHeader.finalizeMap hf, ?_⟩
  unfold RequestPacker.finalizeMap at hf
  split_ifs at hf with hne
  obtain rfl := Option.some.inj hf
  have hoffset := hp.offset hne
  have hlt := hp.length_lt
  rw [overwrite, List.length_append, List.length_append, List.length_take, List.length_drop,
    length_bytes]
  omega

/-- What a packer with a body finalizes is a frame. -/
theorem HasBody.wireFrame_finalize (hmp : mp.Lawful) (hp : p.HasBody mp h)
    (hlen : p.stream.length < 2 ^ 32 + 5) :
    ∃ f : WireFrame mp, f.bytes = p.finalize.stream ∧
      f.header = { requestType := h.requestType, sync := h.sync, streamId := h.streamId } := by
  obtain ⟨rest, hrest⟩ := hp.wrote
  have hlength : p.stream.length = 5 + (Tntpp.packHeader mp h).length + rest.length := by
    rw [hrest, List.length_append, List.length_append, length_stream_new]
    omega
  have hlt := hp.length_lt
  have hne : rest ≠ [] := List.length_pos_iff.mp (by omega)
  refine ⟨⟨Tntpp.packHeader mp h, rest, .map h.entries, _, unpack_packHeader hmp h rest,
    convertHeader_entries h, hne, ?_⟩, ?_, rfl⟩
  · rw [List.length_append]
    omega
  · rw [finalize_stream hrest]
    rfl

end RequestPacker

open RequestPacker

namespace ApiCall

variable {mp : Codec} {id registered : OperationId} {p : RequestPacker}

/-- The packers of the calls that send something are finalized, with a header and a body. -/
def Framed (mp : Codec) (id : OperationId) (p : RequestPacker) : Prop :=
  ∃ type, ∃ q : RequestPacker, q.HasBody mp (requestHeader id type) ∧ p = q.finalize

theorem framed_ping (hmp : mp.Lawful) : Framed mp id (Connector.ping mp id) := by
  have hempty : mp.packMap 0 ≠ [] := by
    have hne := hmp.pack_ne_nil (.map [])
    rw [hmp.pack_map [] (by decide), Codec.packEntries_nil, List.append_nil] at hne
    exact hne
  exact ⟨.ping, _, (RequestPacker.hasHeader_new mp _).hasBody_write hempty, rfl⟩

/-- A request with two fields, whatever they are. -/
theorem framed_beginRequest (hmp : mp.Lawful) (type : RequestType)
    (first second : FieldType × Object) :
    Framed mp id (beginRequest mp id type 2 [first, second]).finalize :=
  ⟨type, _,
    (hasHeader_beginRequest mp id type 2 [first]).hasBody_packMapEntry hmp second.1 second.2,
    rfl⟩

theorem framed_spaceRequest (hmp : mp.Lawful) {type : RequestType} {count : Nat} {field : FieldType}
    {data : Object} {space : SpaceVariant}
    (h : (Box.spaceRequest mp id type count field data space).toOption = some p) :
    Framed mp id p := by
  simp only [Box.spaceRequest] at h
  split_ifs at h
  · cases h
  · obtain rfl := Option.some.inj h
    exact ⟨type, _, (hasHeader_beginRequest mp id type count _).hasBody_packMapEntry hmp _ _, rfl⟩

theorem framed_select (hmp : mp.Lawful) {r : SelectRequest}
    (hr : r.packer.HasHeader mp (requestHeader id .select))
    (h : (Box.select mp r).bind Except.toOption = some p) : Framed mp id p := by
  simp only [Box.select] at h
  split_ifs at h
  · cases h
  · obtain ⟨packer, hpacker, hp⟩ := Option.bind_eq_some_iff.mp h
    obtain ⟨q, hq, rfl⟩ := Option.map_eq_some_iff.mp hpacker
    obtain rfl := Option.some.inj hp
    exact ⟨.select, q, (hr.hasBody_packMapEntry hmp _ _).finalizeMap hq, rfl⟩

/-- Every call that sends something sends a header and a body, under its identifier. -/
theorem framed_packer (hmp : mp.Lawful) (call : ApiCall)
    (h : call.packer mp id = some (registered, p)) : registered = id ∧ Framed mp id p := by
  cases call with
  | ping =>
      cases h
      exact ⟨rfl, framed_ping hmp⟩
  | call | eval | auth =>
      cases h
      exact ⟨rfl, framed_beginRequest hmp _ _ _⟩
  | insert | replace | remove =>
      obtain ⟨q, hq, heq⟩ := Option.map_eq_some_iff.mp h
      cases heq
      exact ⟨rfl, framed_spaceRequest hmp hq⟩
  | select space index options =>
      obtain ⟨r, hr, hmap⟩ := Option.bind_eq_some_iff.mp h
      obtain ⟨q, hq, heq⟩ := Option.map_eq_some_iff.mp hmap
      cases heq
      obtain ⟨hsync, hheader⟩ := SelectBuilder.hasHeader_build mp space index id options
      refine ⟨hsync, framed_select hmp hheader ?_⟩
      exact Option.bind_eq_some_iff.mpr ⟨r, hr, hq⟩

/-- And so it sends one frame, which carries the identifier the request is registered
under. -/
theorem wireFrame_packer (hmp : mp.Lawful) (call : ApiCall)
    (h : call.packer mp id = some (registered, p)) (hlen : p.stream.length < 2 ^ 32 + 5) :
    ∃ f : WireFrame mp, f.bytes = p.stream ∧ f.header.sync = registered := by
  obtain ⟨rfl, type, q, hq, rfl⟩ := call.framed_packer hmp h
  have hlength : q.finalize.stream.length = q.stream.length := by
    obtain ⟨payload, hpayload⟩ : ∃ payload, q.Wrote payload := ⟨_, hq.wrote.choose_spec⟩
    rw [finalize_stream hpayload, hpayload, List.length_cons, List.length_append,
      List.length_append,
      length_bytes, length_stream_new]
    omega
  obtain ⟨f, hbytes, hheader⟩ := hq.wireFrame_finalize hmp (hlength ▸ hlen)
  exact ⟨f, hbytes, congrArg MessageHeader.sync hheader⟩

end ApiCall

end Tntpp
