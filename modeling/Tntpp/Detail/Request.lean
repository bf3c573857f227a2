import Tntpp.Base.Block
import Tntpp.Detail.Iproto.Header

/-!
# Building requests

`RequestPacker` writes a message front to back into one stream.  Two numbers are
not known when their place is reached: the length of the message, whose place the
constructor reserves, and the number of entries of a map begun without one.  Both
are written over the reserved bytes at the end.

A packer is described by the payload written so far, the bytes behind the length
prefix: every operation but the last appends to it, and `finalize` makes the
prefix true (`finalize_stream`).
-/

namespace Tntpp

open BigEndian Block
open MsgPack (Object Codec)

/-- `RequestPacker`. -/
structure RequestPacker where
  /-- The bytes written. -/
  stream : List UInt8
  /-- Where the reserved number of entries is, or zero. -/
  mapLenOffset : Nat := 0
  /-- The number of entries written by `pack_map_entry`. -/
  headerCount : UInt16 := 0

namespace RequestPacker

/-- The first byte of a message: its length is a 32-bit integer. -/
def sizeTag : UInt8 := 0xce

/-- The first byte of a map with a 16-bit number of entries. -/
def mapTag : UInt8 := 0xde

/-- The constructor, which reserves the length. -/
def new : RequestPacker := { stream := sizeTag :: bytes 4 0xffffffff }

/-- `m_stream.write`. -/
def write (p : RequestPacker) (bs : List UInt8) : RequestPacker :=
  { p with stream := p.stream ++ bs }

/-- `pack` of a value that is packed as one object. -/
def pack (mp : Codec) (o : Object) (p : RequestPacker) : RequestPacker := p.write (mp.pack o)

/-- `pack` of a header. -/
def packHeader (mp : Codec) (h : MessageHeader) (p : RequestPacker) : RequestPacker :=
  p.write (Tntpp.packHeader mp h)

/-- `begin_map(count)`. -/
def beginMap (mp : Codec) (count : Nat) (p : RequestPacker) : RequestPacker :=
  p.write (mp.packMap count)

/-- `begin_map()`, which reserves the number of entries. -/
def beginUnsizedMap (p : RequestPacker) : RequestPacker :=
  let p := p.write [mapTag]
  { p with mapLenOffset := p.stream.length }.write (bytes 2 0xffff)

/-- `pack_map_entry`. -/
def packMapEntry (mp : Codec) (field : FieldType) (data : Object) (p : RequestPacker) :
    RequestPacker :=
  let p := (p.pack mp field.object).pack mp data
  { p with headerCount := p.headerCount + 1 }

/-- `finalize_map`; `none` is a failed `assert(map_len_offset != 0)`. -/
def finalizeMap (p : RequestPacker) : Option RequestPacker :=
  if p.mapLenOffset ≠ 0 then
    some { p with stream := overwrite p.stream p.mapLenOffset (bytes 2 p.headerCount.toNat) }
  else none

/-- `finalize`. -/
def finalize (p : RequestPacker) : RequestPacker :=
  let realSize : SizeType := .ofNat p.stream.length - 1 - 4
  { p with stream := overwrite p.stream 1 (bytes 4 realSize.toNat) }

/-! ## What the packer has written -/

/-- `p` has written `payload` behind the length prefix. -/
def Wrote (p : RequestPacker) (payload : List UInt8) : Prop := p.stream = new.stream ++ payload

section

variable {p : RequestPacker} {payload : List UInt8}

theorem wrote_new : Wrote new [] := by
  simp [Wrote]

theorem Wrote.write (h : p.Wrote payload) (bs : List UInt8) : (p.write bs).Wrote (payload ++ bs) := by
  rw [Wrote, RequestPacker.write, h, List.append_assoc]

theorem Wrote.packMapEntry (h : p.Wrote payload) (mp : Codec) (field : FieldType) (data : Object) :
    (p.packMapEntry mp field data).Wrote (payload ++ mp.packEntries [(field.object, data)]) := by
  have h' := (h.write (mp.pack field.object)).write (mp.pack data)
  rw [Codec.packEntries_cons, Codec.packEntries_nil, List.append_nil, ← List.append_assoc]
  exact h'

/-- The entries of a map, one after the other. -/
theorem Wrote.packMapEntries (h : p.Wrote payload) (mp : Codec)
    (fields : List (FieldType × Object)) :
    (fields.foldl (fun p f ↦ p.packMapEntry mp f.1 f.2) p).Wrote
      (payload ++ mp.packEntries (fields.map fun f ↦ (f.1.object, f.2))) := by
  induction fields generalizing p payload with
  | nil => simpa using h
  | cons f fs ih =>
      have h' := ih (h.packMapEntry mp f.1 f.2)
      rw [List.append_assoc] at h'
      simpa using h'

/-- The length of what follows the first five bytes, reduced to 32 bits. -/
theorem toNat_realSize (n : Nat) : (UInt32.ofNat (n + 5) - 1 - 4).toNat = n % 256 ^ 4 := by
  have hsub : UInt32.ofNat (n + 5) - 1 - 4 = UInt32.ofNat n := by
    rw [UInt32.ofNat_add]
    generalize UInt32.ofNat n = m
    grind
  have hpow : 2 ^ 32 = 256 ^ 4 := by decide
  rw [hsub, UInt32.toNat_ofNat', hpow]

/-- Finalizing writes the length of the payload, reduced to 32 bits, over the bytes
the constructor reserved. -/
theorem finalize_stream (h : p.Wrote payload) :
    p.finalize.stream = sizeTag :: (bytes 4 payload.length ++ payload) := by
  have hstream : p.stream = sizeTag :: (bytes 4 0xffffffff ++ payload) := h
  have hlen : p.stream.length = payload.length + 5 := by
    rw [hstream, List.length_cons, List.length_append, length_bytes]
    omega
  change overwrite p.stream 1 (bytes 4 (UInt32.ofNat p.stream.length - 1 - 4).toNat) = _
  rw [hlen, toNat_realSize, bytes_mod, overwrite, length_bytes, hstream, List.take_succ_cons, List.take_zero,
    List.drop_succ_cons, List.drop_left' (length_bytes 4 _)]
  rfl

end

end RequestPacker

/-! ## Requests with one map -/

/-- The header of a request. -/
def requestHeader (id : OperationId) (type : RequestType) : MessageHeader :=
  MessageHeader.setRequestType { sync := id } type

/-- A request up to its last entry: the header, a map of `count` entries, and the
entries. -/
def beginRequest (mp : Codec) (id : OperationId) (type : RequestType) (count : Nat)
    (fields : List (FieldType × Object)) : RequestPacker :=
  fields.foldl (fun p f ↦ p.packMapEntry mp f.1 f.2)
    ((RequestPacker.new.packHeader mp (requestHeader id type)).beginMap mp count)

/-- The body of a request as one object. -/
def bodyObject (fields : List (FieldType × Object)) : Object :=
  .map (fields.map fun f ↦ (f.1.object, f.2))

/-- A request whose map declares as many entries as it has has written its header
and one object. -/
theorem beginRequest_wrote {mp : Codec} (hmp : mp.Lawful) (id : OperationId) (type : RequestType)
    {count : Nat} {fields : List (FieldType × Object)} (hcount : fields.length = count)
    (hlt : count < 2 ^ 32) :
    (beginRequest mp id type count fields).Wrote
      (packHeader mp (requestHeader id type) ++ mp.pack (bodyObject fields)) := by
  have h := ((RequestPacker.wrote_new.write (packHeader mp (requestHeader id type))).write
    (mp.packMap count)).packMapEntries mp fields
  rw [List.nil_append, List.append_assoc] at h
  rw [bodyObject, hmp.pack_map _ (by rw [List.length_map]; omega), List.length_map, hcount]
  exact h

end Tntpp
