import Tntpp.Box.Operations

/-!
# The identifier of a message

Each operation takes an identifier from `generate_id`, packs it as the `Sync` of the
header, and registers its request under it.  `ApiCall` is all operations with all their
arguments, and `ApiCall.operation` what they hand to `send_request`.  `wireSync` is the
identifier a server reads from the bytes; `wireSync_operation` says that it is the one
the request is registered under.

The header is the first thing an operation writes, and the two places that are written
over later, the length of the message and the number of entries of an unsized map, are
before and behind it: `HasHeader`.
-/

namespace Tntpp

open BigEndian
open MsgPack (Object Codec)

/-- The `Sync` of the header behind the length prefix of a message. -/
def wireSync (mp : Codec) (message : List UInt8) : Option MpUint :=
  (mp.unpack (message.drop 5)).bind fun r ↦ (convertHeader r.1).map MessageHeader.sync

namespace RequestPacker

/-- `p` has written the header `h` first, and has not reserved a place in front of its
end. -/
structure HasHeader (mp : Codec) (h : MessageHeader) (p : RequestPacker) : Prop where
  /-- The header is first. -/
  wrote : ∃ rest, p.Wrote (Tntpp.packHeader mp h ++ rest)
  /-- The reserved place is behind it. -/
  offset : p.mapLenOffset ≠ 0 → 5 + (Tntpp.packHeader mp h).length ≤ p.mapLenOffset

variable {mp : Codec} {h : MessageHeader} {p : RequestPacker}

theorem length_stream_new : new.stream.length = 5 := by
  rw [new, List.length_cons, length_bytes]

theorem hasHeader_new (mp : Codec) (h : MessageHeader) : (new.packHeader mp h).HasHeader mp h where
  wrote := by
    refine ⟨[], ?_⟩
    rw [List.append_nil]
    exact wrote_new.write (Tntpp.packHeader mp h)
  offset hne := absurd rfl hne

theorem HasHeader.write (hp : p.HasHeader mp h) (bs : List UInt8) : (p.write bs).HasHeader mp h where
  wrote := by
    obtain ⟨rest, hrest⟩ := hp.wrote
    exact ⟨rest ++ bs, by simpa using hrest.write bs⟩
  offset := hp.offset

theorem HasHeader.packMapEntry (hp : p.HasHeader mp h) (field : FieldType) (data : Object) :
    (p.packMapEntry mp field data).HasHeader mp h := by
  have hw := (hp.write (mp.pack field.object)).write (mp.pack data)
  exact ⟨hw.wrote, hw.offset⟩

theorem HasHeader.packMapEntries (hp : p.HasHeader mp h) (fields : List (FieldType × Object)) :
    (fields.foldl (fun p f ↦ p.packMapEntry mp f.1 f.2) p).HasHeader mp h := by
  induction fields generalizing p with
  | nil => exact hp
  | cons f fs ih => exact ih (hp.packMapEntry f.1 f.2)

theorem HasHeader.beginUnsizedMap (hp : p.HasHeader mp h) :
    p.beginUnsizedMap.HasHeader mp h := by
  refine ⟨((hp.write [mapTag]).write (bytes 2 0xffff)).wrote, fun _ ↦ ?_⟩
  obtain ⟨rest, hrest⟩ := hp.wrote
  show 5 + (Tntpp.packHeader mp h).length ≤ (p.stream ++ [mapTag]).length
  rw [hrest, List.length_append, List.length_append, List.length_append, length_stream_new]
  omega

theorem HasHeader.finalizeMap (hp : p.HasHeader mp h) {p' : RequestPacker}
    (hf : p.finalizeMap = some p') : p'.HasHeader mp h := by
  unfold RequestPacker.finalizeMap at hf
  split_ifs at hf with hne
  obtain rfl := Option.some.inj hf
  refine ⟨?_, hp.offset⟩
  obtain ⟨rest, hrest⟩ := hp.wrote
  have hlen : (new.stream ++ Tntpp.packHeader mp h).length ≤ p.mapLenOffset := by
    rw [List.length_append, length_stream_new]
    exact hp.offset hne
  have hstream : ∀ xs, Block.overwrite p.stream p.mapLenOffset xs =
      new.stream ++ (Tntpp.packHeader mp h ++
        Block.overwrite rest (p.mapLenOffset - (new.stream ++ Tntpp.packHeader mp h).length) xs) := by
    intro xs
    rw [hrest, ← List.append_assoc, Block.overwrite_append hlen, List.append_assoc]
  exact ⟨_, hstream _⟩

/-- The identifier on the wire is the one of the header. -/
theorem HasHeader.wireSync_finalize (hmp : mp.Lawful) (hp : p.HasHeader mp h) :
    wireSync mp p.finalize.stream = some h.sync := by
  obtain ⟨rest, hrest⟩ := hp.wrote
  have hdrop : p.finalize.stream.drop 5 = Tntpp.packHeader mp h ++ rest := by
    rw [finalize_stream hrest, List.drop_succ_cons, List.drop_left' (length_bytes 4 _)]
  rw [wireSync, hdrop, unpack_packHeader hmp, Option.bind_some, convertHeader_entries]
  rfl

end RequestPacker

open RequestPacker

/-! ## The operations -/

/-- A request with one map begins with its header. -/
theorem hasHeader_beginRequest (mp : Codec) (id : OperationId) (type : RequestType) (count : Nat)
    (fields : List (FieldType × Object)) :
    (beginRequest mp id type count fields).HasHeader mp (requestHeader id type) :=
  ((hasHeader_new mp _).write (mp.packMap count)).packMapEntries fields

namespace SelectBuilder

theorem hasHeader_new (mp : Codec) (space index : SpaceVariant) (id : MpUint) :
    (new mp space index id).packer.HasHeader mp (requestHeader id .select) :=
  (RequestPacker.hasHeader_new mp _).beginUnsizedMap

/-- No call of a builder changes the identifier or the header. -/
theorem hasHeader_build (mp : Codec) (space index : SpaceVariant) (id : MpUint)
    (options : List SelectOption) :
    (build mp space index id options).sync = id ∧
      (build mp space index id options).packer.HasHeader mp (requestHeader id .select) := by
  have hfold : ∀ r : SelectRequest, r.sync = id → r.packer.HasHeader mp (requestHeader id .select) →
      (options.foldl (apply mp) r).sync = id ∧
        (options.foldl (apply mp) r).packer.HasHeader mp (requestHeader id .select) := by
    induction options with
    | nil => exact fun r hs hh ↦ ⟨hs, hh⟩
    | cons option options ih =>
        intro r hs hh
        cases option with
        | index index => exact ih _ hs hh
        | limit | offset | iterator | key | afterPosition | afterTuple | fetchPosition =>
            exact ih _ hs (hh.packMapEntry _ _)
  exact hfold _ rfl (hasHeader_new mp space index id)

end SelectBuilder

/-- A call of an operation with its arguments. -/
inductive ApiCall where
  | ping
  | call (function : List UInt8) (args : Object)
  | eval (expression : List UInt8) (args : Object)
  | auth (username scramble : List UInt8)
  | insert (space : SpaceVariant) (tuple : Object)
  | replace (space : SpaceVariant) (tuple : Object)
  | remove (space : SpaceVariant) (key : Object)
  | select (space index : SpaceVariant) (options : List SelectOption)

namespace ApiCall

/-- The packer of a call that takes the identifier `id`, and the identifier its request is
registered under; `none` where the call fails before it sends anything. -/
def packer (mp : Codec) (id : OperationId) : ApiCall → Option (OperationId × RequestPacker)
  | .ping => some (id, Connector.ping mp id)
  | .call function args => some (id, Connector.call mp id function args)
  | .eval expression args => some (id, Connector.eval mp id expression args)
  | .auth username scramble => some (id, Connector.authRequest mp id username scramble)
  | .insert space tuple => (Box.insert mp id space tuple).toOption.map (id, ·)
  | .replace space tuple => (Box.replace mp id space tuple).toOption.map (id, ·)
  | .remove space key => (Box.remove mp id space key).toOption.map (id, ·)
  | .select space index options =>
    let r := SelectBuilder.build mp space index id options
    (Box.select mp r).bind fun packer ↦ packer.toOption.map (r.sync, ·)

variable {mp : Codec} {id registered : OperationId} {p : RequestPacker}

/-- The packers of the calls that send something are finalized, with the header first. -/
def Finalized (mp : Codec) (id : OperationId) (p : RequestPacker) : Prop :=
  ∃ type, ∃ q : RequestPacker, q.HasHeader mp (requestHeader id type) ∧ p = q.finalize

theorem Finalized.wireSync (hmp : mp.Lawful) (h : Finalized mp id p) :
    wireSync mp p.stream = some id := by
  obtain ⟨type, q, hq, rfl⟩ := h
  exact hq.wireSync_finalize hmp

theorem finalized_ping : Finalized mp id (Connector.ping mp id) :=
  ⟨.ping, _, (RequestPacker.hasHeader_new mp _).write _, rfl⟩

theorem finalized_beginRequest (type : RequestType) (count : Nat)
    (fields : List (FieldType × Object)) :
    Finalized mp id (beginRequest mp id type count fields).finalize :=
  ⟨type, _, hasHeader_beginRequest mp id type count fields, rfl⟩

theorem finalized_spaceRequest {type : RequestType} {count : Nat} {field : FieldType}
    {data : Object} {space : SpaceVariant}
    (h : (Box.spaceRequest mp id type count field data space).toOption = some p) :
    Finalized mp id p := by
  simp only [Box.spaceRequest] at h
  split_ifs at h
  · cases h
  · obtain rfl := Option.some.inj h
    exact ⟨type, _, (hasHeader_beginRequest mp id type count _).packMapEntry _ _, rfl⟩

theorem finalized_select {r : SelectRequest} (hr : r.packer.HasHeader mp (requestHeader id .select))
    (h : (Box.select mp r).bind Except.toOption = some p) : Finalized mp id p := by
  simp only [Box.select] at h
  split_ifs at h
  · cases h
  · obtain ⟨packer, hpacker, hp⟩ := Option.bind_eq_some_iff.mp h
    obtain ⟨q, hq, rfl⟩ := Option.map_eq_some_iff.mp hpacker
    obtain rfl := Option.some.inj hp
    exact ⟨.select, q, (hr.packMapEntry _ _).finalizeMap hq, rfl⟩

/-- Every call packs the identifier its request is registered under. -/
theorem wireSync_packer (hmp : mp.Lawful) (call : ApiCall)
    (h : call.packer mp id = some (registered, p)) :
    registered = id ∧ Tntpp.wireSync mp p.stream = some id := by
  cases call with
  | ping =>
      cases h
      exact ⟨rfl, finalized_ping.wireSync hmp⟩
  | call | eval | auth =>
      cases h
      exact ⟨rfl, (finalized_beginRequest _ _ _).wireSync hmp⟩
  | insert | replace | remove =>
      obtain ⟨q, hq, heq⟩ := Option.map_eq_some_iff.mp h
      cases heq
      exact ⟨rfl, (finalized_spaceRequest hq).wireSync hmp⟩
  | select space index options =>
      obtain ⟨r, hr, hmap⟩ := Option.bind_eq_some_iff.mp h
      obtain ⟨q, hq, heq⟩ := Option.map_eq_some_iff.mp hmap
      cases heq
      obtain ⟨hsync, hheader⟩ := SelectBuilder.hasHeader_build mp space index id options
      refine ⟨hsync, (finalized_select hheader ?_).wireSync hmp⟩
      exact Option.bind_eq_some_iff.mpr ⟨r, hr, hq⟩

end ApiCall

end Tntpp
