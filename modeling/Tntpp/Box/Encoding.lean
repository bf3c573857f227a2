import Tntpp.Box.Operations
import Tntpp.Detail.Reassembly

/-!
# The encoding of requests

A request is decoded by the framing layer of this very program: a message it builds
is a frame on the wire, so `receive_message` gives back its header and its body, and
the body is one map with the fields of the operation.  `Request.wireFrame` is that
frame, and `request_roundTrip` says that each operation produces its bytes.
-/

namespace Tntpp

open BigEndian
open MsgPack (Object Codec)

/-- The operations with a fixed number of fields. -/
inductive Request where
  | ping
  | call (function : List UInt8) (args : Object)
  | eval (expression : List UInt8) (args : Object)
  | auth (username scramble : List UInt8)
  | insert (space : SpaceId) (tuple : Object)
  | replace (space : SpaceId) (tuple : Object)
  | remove (space : SpaceId) (key : Object)

namespace Request

/-- The bytes an operation hands to `send_request`, or the error it completes with. -/
def message (mp : Codec) (id : OperationId) : Request → Except ErrorCode (List UInt8)
  | .ping => .ok (Connector.ping mp id).stream
  | .call function args => .ok (Connector.call mp id function args).stream
  | .eval expression args => .ok (Connector.eval mp id expression args).stream
  | .auth username scramble => .ok (Connector.authRequest mp id username scramble).stream
  | .insert space tuple => (Box.insert mp id (.id space) tuple).map (·.stream)
  | .replace space tuple => (Box.replace mp id (.id space) tuple).map (·.stream)
  | .remove space key => (Box.remove mp id (.id space) key).map (·.stream)

/-- The type of a request. -/
def type : Request → RequestType
  | .ping => .ping
  | .call .. => .call
  | .eval .. => .eval
  | .auth .. => .auth
  | .insert .. => .insert
  | .replace .. => .replace
  | .remove .. => .delete

/-- The fields of a request. -/
def fields : Request → List (FieldType × Object)
  | .ping => []
  | .call function args => [(.functionName, .str function), (.tuple, args)]
  | .eval expression args => [(.expr, .str expression), (.tuple, args)]
  | .auth username scramble =>
      [(.username, .str username), (.tuple, .array [.str Connector.chapSha1, .str scramble])]
  | .insert space tuple => [(.tuple, tuple), (.spaceId, .uint space)]
  | .replace space tuple => [(.tuple, tuple), (.spaceId, .uint space)]
  | .remove space key => [(.key, key), (.spaceId, .uint space)]

/-- The fields as the entries of a map. -/
def entries (r : Request) : List (Object × Object) := r.fields.map fun f ↦ (f.1.object, f.2)

theorem length_fields_lt (r : Request) : r.fields.length < 2 ^ 32 := by
  cases r <;> simp [fields]

/-- The header of a request. -/
def header (id : OperationId) (r : Request) : MessageHeader :=
  { requestType := r.type.value, sync := id }

/-- Every operation finalizes a packer that was begun with the number of its fields. -/
theorem message_eq (mp : Codec) (id : OperationId) (r : Request) :
    r.message mp id = .ok (beginRequest mp id r.type r.fields.length r.fields).finalize.stream := by
  cases r <;> rfl

/-- The payload of a request: its header and one map. -/
def payload (mp : Codec) (id : OperationId) (r : Request) : List UInt8 :=
  packHeader mp (r.header id) ++ mp.pack (.map r.entries)

variable {mp : Codec}

/-- A message is its payload behind the length of the payload. -/
theorem message_eq_payload (hmp : mp.Lawful) (id : OperationId) (r : Request) :
    r.message mp id = .ok (0xce :: (bytes 4 (r.payload mp id).length ++ r.payload mp id)) := by
  rw [message_eq]
  exact congrArg _ (RequestPacker.finalize_stream
    (beginRequest_wrote hmp id r.type rfl r.length_fields_lt))

/-- A request as a frame on the wire. -/
def wireFrame (hmp : mp.Lawful) (id : OperationId) (r : Request)
    (h : (r.payload mp id).length < 2 ^ 32) : WireFrame mp where
  head := packHeader mp (r.header id)
  body := mp.pack (.map r.entries)
  object := .map (r.header id).entries
  header := r.header id
  unpack_eq := unpack_packHeader hmp _ _
  convert_eq := convertHeader_entries _
  body_ne_nil := hmp.pack_ne_nil _
  length_lt := h

end Request

/-- Every operation produces a length prefix and a payload of that length, and what
`receive_message` makes of it is the header of the operation and a body that is one
map: it declares as many entries as it has, they are the fields of the operation,
and nothing follows them. -/
theorem request_roundTrip {mp : Codec} (hmp : mp.Lawful) (r : Request) (id : OperationId) :
    ∃ payload, r.message mp id = .ok (0xce :: (bytes 4 payload.length ++ payload)) ∧
      (payload.length ≤ 2 ^ 32 - 1 → ∀ (s : IprotoFraming) (rest : List UInt8),
        s.pending = 0xce :: (bytes 4 payload.length ++ payload) ++ rest →
        ∃ frame s', s.receiveMessage mp = some (({}, frame), s') ∧ s'.pending = rest ∧
          frame.header = { requestType := r.type.value, sync := id, streamId := none } ∧
          s'.buffer.view frame.body = mp.packMap r.entries.length ++ mp.packEntries r.entries ∧
          mp.unpack (s'.buffer.view frame.body) =
            some (.map r.entries, (s'.buffer.view frame.body).length)) := by
  refine ⟨r.payload mp id, r.message_eq_payload hmp id, ?_⟩
  intro hlen s rest hs
  have hlt : (r.payload mp id).length < 2 ^ 32 := Nat.lt_of_le_pred (by decide) hlen
  obtain ⟨frame, s', hs', hh, -, hv, hp, -⟩ :=
    IprotoFraming.receiveMessage_spec (r.wireFrame hmp id hlt) hs
  have hentries : r.entries.length < 2 ^ 32 := by
    rw [Request.entries, List.length_map]
    exact r.length_fields_lt
  have hbody : (mp.pack (.map r.entries)).length < 2 ^ 32 := by
    refine Nat.lt_of_le_of_lt ?_ hlt
    rw [Request.payload, List.length_append]
    exact Nat.le_add_left _ _
  refine ⟨frame, s', hs', hp, hh, ?_, ?_⟩
  · rw [hv, ← hmp.pack_map _ hentries]
    rfl
  · have h := hmp.unpack_pack (.map r.entries) [] hbody
    rw [List.append_nil] at h
    rw [hv]
    exact h

/-- `insert` of the tuple `{7}` into space `512`, under the identifier `300`. -/
theorem request_roundTrip_insert :
    ∃ payload, (Request.insert 512 (.array [.uint 7])).message Codec.reference 300 =
        .ok (0xce :: (bytes 4 payload.length ++ payload)) ∧
      (payload.length ≤ 2 ^ 32 - 1 → ∀ (s : IprotoFraming) (rest : List UInt8),
        s.pending = 0xce :: (bytes 4 payload.length ++ payload) ++ rest →
        ∃ frame s', s.receiveMessage Codec.reference = some (({}, frame), s') ∧ s'.pending = rest ∧
          frame.header = { requestType := 0x02, sync := 300, streamId := none } ∧
          s'.buffer.view frame.body = [0x82, 0x21, 0x91, 0x07, 0x10, 0xcd, 0x02, 0x00] ∧
          Codec.reference.unpack (s'.buffer.view frame.body) =
            some (.map [(.uint 0x21, .array [.uint 7]), (.uint 0x10, .uint 512)],
              (s'.buffer.view frame.body).length)) :=
  request_roundTrip Codec.reference_lawful (.insert 512 (.array [.uint 7])) 300

end Tntpp
