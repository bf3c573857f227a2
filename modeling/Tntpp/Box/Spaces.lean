import Tntpp.Box.Select

/-!
# Spaces and the requests that name them

A caller names a space by number or by name, and the operations of a `Box` trust
`get_space_index` with both.  What a name designates is a matter of the server: a
`Directory` is the table the client would have to look it up in, and nothing is assumed
of it.
-/

namespace Tntpp

open BigEndian
open MsgPack (Object Codec)

/-- The numbers of the spaces that have a name. -/
abbrev Directory := List UInt8 → Option SpaceId

/-- The space a caller means. -/
def SpaceVariant.designated (directory : Directory) : SpaceVariant → Option SpaceId
  | .monostate => none
  | .name s => directory s
  | .id n => some n

/-- The operations on a space.  The methods of a builder must not be called more than
once. -/
inductive SpaceOperation where
  | insert (tuple : Object)
  | replace (tuple : Object)
  | remove (key : Object)
  | select (index : SpaceVariant) (calls : List SelectOption)
      (once : (calls.map SelectOption.field).Nodup)

namespace SpaceOperation

/-- What an operation hands to `send_request`, or the error it completes with. -/
def run (mp : Codec) (id : OperationId) (space : SpaceVariant) :
    SpaceOperation → Option (Except ErrorCode RequestPacker)
  | .insert tuple => some (Box.insert mp id space tuple)
  | .replace tuple => some (Box.replace mp id space tuple)
  | .remove key => some (Box.remove mp id space key)
  | .select index calls _ => Box.select mp (SelectBuilder.build mp space index id calls)

/-! ## The message an operation is meant to send -/

/-- The type of the request. -/
def type : SpaceOperation → RequestType
  | .insert _ => .insert
  | .replace _ => .replace
  | .remove _ => .delete
  | .select .. => .select

/-- The fields in front of the space. -/
def before : SpaceOperation → List (FieldType × Object)
  | .insert tuple => [(.tuple, tuple)]
  | .replace tuple => [(.tuple, tuple)]
  | .remove key => [(.key, key)]
  | .select _ calls _ => SelectOption.fields calls

/-- The fields of a request for space number `n`. -/
def fields (op : SpaceOperation) (n : SpaceId) : List (FieldType × Object) :=
  op.before ++ [(.spaceId, .uint n)]

/-- The head of their map, which is written in 16 bits where the fields are streamed. -/
def mapHead (mp : Codec) (op : SpaceOperation) : List UInt8 :=
  match op with
  | .select .. => 0xde :: bytes 2 (op.before.length + 1)
  | _ => mp.packMap (op.before.length + 1)

/-- The payload of a request for space number `n`. -/
def payload (mp : Codec) (id : OperationId) (op : SpaceOperation) (n : SpaceId) : List UInt8 :=
  packHeader mp (requestHeader id op.type) ++
    (op.mapHead mp ++ mp.packEntries (entriesOf (op.fields n)))

/-- The request for space number `n`. -/
def message (mp : Codec) (id : OperationId) (op : SpaceOperation) (n : SpaceId) : List UInt8 :=
  0xce :: (bytes 4 (op.payload mp id n).length ++ op.payload mp id n)

/-- An operation sends one message, for the space its caller means, or completes with an
error and sends nothing. -/
def Addresses (mp : Codec) (id : OperationId) (directory : Directory) (space : SpaceVariant)
    (op : SpaceOperation) : Prop :=
  (∃ ec, op.run mp id space = some (.error ec) ∧ ec.failed = true) ∨
    ∃ packer n, op.run mp id space = some (.ok packer) ∧ space.designated directory = some n ∧
      packer.stream = op.message mp id n

variable {mp : Codec} {id : OperationId} {space : SpaceVariant} {n : SpaceId}

/-! ## The message that is sent -/

/-- A request is for one space. -/
theorem spaceIds_fields (op : SpaceOperation) (n : SpaceId) :
    ((op.fields n).filter fun f ↦ f.1 = .spaceId) = [(.spaceId, .uint n)] := by
  have hbefore : op.before.filter (fun f ↦ f.1 = .spaceId) = [] := by
    rw [List.filter_eq_nil_iff]
    intro f hf
    cases op with
    | select index calls once =>
        obtain ⟨o, -, ho⟩ := List.mem_filterMap.mp hf
        obtain ⟨value, -, rfl⟩ := Option.map_eq_some_iff.mp ho
        cases o <;> exact Bool.false_ne_true
    | _ =>
        cases List.mem_singleton.mp hf
        exact Bool.false_ne_true
  rw [fields, List.filter_append, hbefore, List.nil_append, List.filter_cons_of_pos (by simp)]
  rfl

/-- A request whose number of fields is known at its beginning. -/
theorem stream_beginRequest (hmp : mp.Lawful) {op : SpaceOperation}
    (hhead : op.mapHead mp = mp.packMap (op.fields n).length)
    (hlt : (op.fields n).length < 2 ^ 32) :
    (beginRequest mp id op.type (op.fields n).length (op.fields n)).finalize.stream =
      op.message mp id n := by
  have hwrote := beginRequest_wrote hmp id op.type rfl hlt
  rw [bodyObject, hmp.pack_map _ (by rwa [List.length_map]), List.length_map, ← hhead] at hwrote
  exact RequestPacker.finalize_stream hwrote

/-- With a space that has a number, an operation sends the request for that number. -/
theorem run_of_getSpaceIndex (hmp : mp.Lawful) (id : OperationId)
    (hspace : Box.getSpaceIndex space = ({}, n)) (op : SpaceOperation) :
    ∃ packer, op.run mp id space = some (.ok packer) ∧ packer.stream = op.message mp id n := by
  cases op with
  | insert | replace | remove =>
      refine ⟨_, ?_, stream_beginRequest hmp rfl ?_⟩
      · simp only [run, Box.insert, Box.replace, Box.remove, Box.spaceRequest, hspace]
        rfl
      · simp [fields, before]
  | select index calls once =>
      obtain ⟨packer, hpacker, hstream⟩ := Box.select_stream mp hspace index id once
      refine ⟨packer, hpacker, hstream.trans ?_⟩
      have hcount : (entriesOf (SelectOption.sentFields calls n)).length =
          (SelectOption.fields calls).length + 1 := by
        rw [entriesOf, List.length_map, SelectOption.sentFields, List.length_append,
          List.length_singleton]
      have hpayload : selectPayload mp id calls n =
          (SpaceOperation.select index calls once).payload mp id n := by
        rw [selectPayload, selectBody, RequestPacker.streamedBody, hcount]
        rfl
      rw [message, hpayload]

/-- No request is for two spaces. -/
theorem message_injective (hmp : mp.Lawful) (op : SpaceOperation) {m : SpaceId}
    (h : op.message mp id m = op.message mp id n) : m = n := by
  have hpayload := (List.append_inj (List.cons.inj h).2 (by simp)).2
  have hentries := List.append_cancel_left (List.append_cancel_left hpayload)
  simp only [fields, entriesOf, List.map_append, List.map_cons, Codec.packEntries,
    List.flatMap_append, List.flatMap_cons, List.append_assoc, List.append_cancel_left_eq,
    List.append_cancel_right_eq] at hentries
  have hm := hmp.unpack_pack (.uint m) [] (Nat.lt_of_le_of_lt (hmp.length_pack_uint_le m) (by decide))
  have hn := hmp.unpack_pack (.uint n) [] (Nat.lt_of_le_of_lt (hmp.length_pack_uint_le n) (by decide))
  rw [hentries, hn] at hm
  cases hm
  rfl

/-! ## Which spaces are addressed -/

theorem run_monostate (mp : Codec) (id : OperationId) (op : SpaceOperation) :
    op.run mp id .monostate = some (.error Errc.invalidArgument.code) := by
  cases op with
  | select index calls once =>
      rw [run, Box.select, SelectBuilder.build, SelectBuilder.space_foldl]
      rfl
  | _ => rfl

/-- On a server with the given names, the space that is meant is addressed unless its name
is that of another space than number zero, or of none. -/
theorem addresses_iff (hmp : mp.Lawful) (id : OperationId) (directory : Directory)
    (space : SpaceVariant) (op : SpaceOperation) :
    op.Addresses mp id directory space ↔ ∀ s, space = .name s → directory s = some 0 := by
  cases space with
  | monostate => exact iff_of_true (.inl ⟨_, run_monostate mp id op, rfl⟩) fun s hs ↦ nomatch hs
  | id n =>
      have hspace : Box.getSpaceIndex (.id n) = ({}, n) := rfl
      obtain ⟨packer, hpacker, hstream⟩ := run_of_getSpaceIndex hmp id hspace op
      exact iff_of_true (.inr ⟨packer, n, hpacker, rfl, hstream⟩) fun s hs ↦ nomatch hs
  | name s =>
      have hspace : Box.getSpaceIndex (.name s) = ({}, 0) := rfl
      obtain ⟨packer, hpacker, hstream⟩ := run_of_getSpaceIndex hmp id hspace op
      constructor
      · rintro (⟨ec, hec, -⟩ | ⟨packer', n, hpacker', hn, hstream'⟩)
        · cases hec.symm.trans hpacker
        · cases hpacker'.symm.trans hpacker
          have hzero : n = 0 := message_injective hmp op (hstream'.symm.trans hstream)
          rintro _ ⟨⟩
          rw [← hzero]
          exact hn
      · intro hzero
        exact .inr ⟨packer, 0, hpacker, hzero s rfl, hstream⟩

/-- Whatever the names of its spaces on the server, an operation addresses the space its
caller means if and only if it is not given a name. -/
theorem addressesDesignated_iff (mp : Codec) (hmp : mp.Lawful) (id : OperationId)
    (space : SpaceVariant) (op : SpaceOperation) :
    (∀ directory, op.Addresses mp id directory space) ↔ ∀ s, space ≠ .name s := by
  constructor
  · intro h s hs
    exact nomatch (addresses_iff hmp id (fun _ ↦ none) space op).mp (h _) s hs
  · intro h directory
    rw [addresses_iff hmp]
    exact fun s hs ↦ absurd hs (h s)

/-- An insertion into space number `512`, on a server that has no names. -/
theorem addressesDesignated_number :
    (SpaceOperation.insert (.array [.uint 7])).Addresses .reference 1 (fun _ ↦ none) (.id 512) :=
  (addressesDesignated_iff .reference Codec.reference_lawful 1 (.id 512) _).mpr
    (fun _ ↦ SpaceVariant.noConfusion) _

/-- An insertion into a space by its name, which is that of space number `512`: what is sent
is the insertion into space number zero. -/
theorem name_addresses_zero :
    (SpaceOperation.insert (.array [.uint 7])).run .reference 1 (.name [0x78]) =
        (SpaceOperation.insert (.array [.uint 7])).run .reference 1 (.id 0) ∧
      ¬ (SpaceOperation.insert (.array [.uint 7])).Addresses .reference 1 (fun _ ↦ some 512)
        (.name [0x78]) := by
  refine ⟨rfl, ?_⟩
  rw [addresses_iff Codec.reference_lawful]
  intro hname
  exact absurd (hname _ rfl) (by decide)

end SpaceOperation

end Tntpp
