import Tntpp.Base.MsgPack.Decode

/-!
# A MessagePack library as its clients see it

Code that uses MessagePack rarely implements it: it calls a library to pack an
object, to write a map header ahead of entries it packs itself, and to unpack the
object at the front of a buffer.  `Codec` is that interface and `Codec.Lawful`
what its documentation promises.  A development that takes a codec as a parameter
says which of these promises it rests on.

`Codec.reference` is the codec of this library, and it is lawful.
-/

namespace MsgPack

open BigEndian

/-- The operations of a MessagePack library. -/
structure Codec where
  /-- The bytes a packer appends for an object. -/
  pack : Object → List UInt8
  /-- The bytes a packer appends for the header of a map of `n` entries. -/
  packMap : Nat → List UInt8
  /-- The object at the front of a buffer and the number of bytes it takes, or
  `none` where unpacking throws. -/
  unpack : List UInt8 → Option (Object × Nat)

/-- The entries of a map as a packer appends them, one after the other. -/
def Codec.packEntries (mp : Codec) (kvs : List (Object × Object)) : List UInt8 :=
  kvs.flatMap fun kv ↦ mp.pack kv.1 ++ mp.pack kv.2

@[simp] theorem Codec.packEntries_nil (mp : Codec) : mp.packEntries [] = [] := rfl

@[simp] theorem Codec.packEntries_cons (mp : Codec) (k v : Object) (kvs : List (Object × Object)) :
    mp.packEntries ((k, v) :: kvs) = mp.pack k ++ mp.pack v ++ mp.packEntries kvs := rfl

/-- What a MessagePack library documents about its operations. -/
structure Codec.Lawful (mp : Codec) : Prop where
  /-- An object takes at least one byte. -/
  pack_ne_nil : ∀ o, mp.pack o ≠ []
  /-- A map is its header followed by its entries. -/
  pack_map : ∀ kvs : List (Object × Object), kvs.length < 2 ^ 32 →
    mp.pack (.map kvs) = mp.packMap kvs.length ++ mp.packEntries kvs
  /-- An integer takes at most nine bytes. -/
  length_pack_uint_le : ∀ n, (mp.pack (.uint n)).length ≤ 9
  /-- The header of a map takes at most five bytes. -/
  length_packMap_le : ∀ n, (mp.packMap n).length ≤ 5
  /-- Unpacking inverts packing and consumes exactly one object.  Lengths are
  written in at most 32 bits, so this holds of encodings below that size.  It is asked of
  floats too: a packer that writes a float with an integral value as an integer is lawful
  for the objects without such floats only. -/
  unpack_pack : ∀ o rest, (mp.pack o).length < 2 ^ 32 →
    mp.unpack (mp.pack o ++ rest) = some (o, (mp.pack o).length)

/-- An object that is packed alone is unpacked to the end. -/
theorem Codec.Lawful.unpack_pack_self {mp : Codec} (h : mp.Lawful) {o : Object}
    (hlen : (mp.pack o).length < 2 ^ 32) : mp.unpack (mp.pack o) = some (o, (mp.pack o).length) := by
  have hunpack := h.unpack_pack o [] hlen
  rwa [List.append_nil] at hunpack

/-- Unpacking accepts a map whose number of entries is written in 16 bits, a form the
packer chooses for large maps only. -/
def Codec.ReadsMap16 (mp : Codec) : Prop :=
  ∀ (kvs : List (Object × Object)) (rest : List UInt8), kvs.length < 2 ^ 16 →
    (mp.packEntries kvs).length + 3 < 2 ^ 32 →
    mp.unpack (0xde :: (bytes 2 kvs.length ++ (mp.packEntries kvs ++ rest))) =
      some (.map kvs, (mp.packEntries kvs).length + 3)

/-- The codec defined by `encode` and `unpack`. -/
def Codec.reference : Codec where
  pack := encode
  packMap := mapHeader
  unpack := MsgPack.unpack

theorem Codec.reference_lawful : Codec.reference.Lawful where
  pack_ne_nil o := List.ne_nil_of_length_pos (encode_length_pos o)
  pack_map kvs _ := by
    change encode (.map kvs) = mapHeader kvs.length ++ kvs.flatMap fun kv ↦ encode kv.1 ++ encode kv.2
    rw [encode, encodeEntries_eq_flatMap]
  length_pack_uint_le n := by
    change (encodeUint n.toNat).length ≤ 9
    unfold encodeUint
    split_ifs <;> simp
  length_packMap_le n := by
    change (mapHeader n).length ≤ 5
    unfold mapHeader
    split_ifs <;> simp
  unpack_pack _ rest h := unpack_encode h rest

theorem Codec.reference_readsMap16 : Codec.reference.ReadsMap16 := by
  intro kvs rest hcount hlen
  have hentries : Codec.reference.packEntries kvs = encodeEntries kvs :=
    (encodeEntries_eq_flatMap kvs).symm
  rw [hentries] at hlen ⊢
  change MsgPack.unpack _ = _
  have hitems : ∀ kv ∈ kvs, ∀ rest',
      decode (bytes 2 kvs.length ++ (encodeEntries kvs ++ rest)).length (encode kv.1 ++ rest') =
          some (kv.1, rest') ∧
        decode (bytes 2 kvs.length ++ (encodeEntries kvs ++ rest)).length (encode kv.2 ++ rest') =
          some (kv.2, rest') := by
    intro kv hkv rest'
    obtain ⟨hk, hv⟩ := encode_length_le_encodeEntries hkv
    have hfuel : (encodeEntries kvs).length ≤
        (bytes 2 kvs.length ++ (encodeEntries kvs ++ rest)).length := by
      simp only [List.length_append]
      omega
    exact ⟨decode_encode (by omega) (by omega) rest', decode_encode (by omega) (by omega) rest'⟩
  have hhead : decodeHead (0xde :: (bytes 2 kvs.length ++ (encodeEntries kvs ++ rest))) =
      some (.map kvs.length, encodeEntries kvs ++ rest) := by
    simp [decodeHead, decodeTagged, readUint_bytes (w := 2) hcount]
  rw [MsgPack.unpack, List.length_cons, decode, hhead]
  dsimp only
  have htook : (bytes 2 kvs.length ++ (encodeEntries kvs ++ rest)).length + 1 - rest.length =
      (encodeEntries kvs).length + 3 := by
    simp only [List.length_append, length_bytes]
    omega
  rw [decodeEntries_encodeEntries hitems, Option.map_some, Option.map_some, htook]

end MsgPack
