import Tntpp.Base.MsgPack.Object

/-!
# Decoding MessagePack

`decode fuel bs` reads one object off the front of `bs` and returns it with the
bytes that follow.  The fuel bounds the nesting depth; `unpack` supplies the
length of the input, which is always enough because every level of nesting costs
at least the byte of its header.

Unlike `encode`, which commits to the shortest form of everything, `decode`
accepts every form of the format.  The theorem of the file is `decode_encode`:
what was encoded is read back, whatever bytes come after it.
-/

namespace MsgPack

open BigEndian

/-- What the first bytes of an object announce: a complete object, or a container
of so many items or entries still to come. -/
inductive Head where
  /-- A complete object. -/
  | object (o : Object)
  /-- An array of `n` items. -/
  | array (n : Nat)
  /-- A map of `n` entries. -/
  | map (n : Nat)

/-- A big-endian number of `w` bytes. -/
def readUint (w : Nat) (bs : List UInt8) : Option (Nat × List UInt8) :=
  (splitAt? w bs).map fun (n, rest) ↦ (value n, rest)

/-- A signed big-endian number of `w` bytes, as the object it denotes: its sign
bit decides between the two kinds of integer. -/
def readInt (w : Nat) (bs : List UInt8) : Option (Object × List UInt8) :=
  (readUint w bs).map fun (n, rest) ↦
    (if 2 * n < 256 ^ w then .uint (.ofNat n) else .nint (.ofNat 63 (256 ^ w - 1 - n)), rest)

/-- A string of bytes prefixed by its length in `w` bytes. -/
def readBytes (w : Nat) (bs : List UInt8) : Option (List UInt8 × List UInt8) :=
  (readUint w bs).bind fun (n, rest) ↦ splitAt? n rest

/-- The type byte and the bytes of an extension value of `n` bytes. -/
def readExt (n : Nat) : List UInt8 → Option (Object × List UInt8)
  | [] => none
  | t :: bs => (splitAt? n bs).map fun (e, rest) ↦ (.ext t e, rest)

/-- A complete object as a head. -/
def objectHead (r : Option (Object × List UInt8)) : Option (Head × List UInt8) :=
  r.map fun (o, rest) ↦ (.object o, rest)

/-- The formats of lead byte `0xc0 + t`, which is a tag followed by what it
announces. -/
def decodeTagged (t : Nat) (bs : List UInt8) : Option (Head × List UInt8) :=
  match t with
  | 0x00 => some (.object .nil, bs)
  | 0x02 => some (.object (.bool false), bs)
  | 0x03 => some (.object (.bool true), bs)
  | 0x04 => objectHead ((readBytes 1 bs).map fun (s, rest) ↦ (.bin s, rest))
  | 0x05 => objectHead ((readBytes 2 bs).map fun (s, rest) ↦ (.bin s, rest))
  | 0x06 => objectHead ((readBytes 4 bs).map fun (s, rest) ↦ (.bin s, rest))
  | 0x07 => objectHead ((readUint 1 bs).bind fun (n, rest) ↦ readExt n rest)
  | 0x08 => objectHead ((readUint 2 bs).bind fun (n, rest) ↦ readExt n rest)
  | 0x09 => objectHead ((readUint 4 bs).bind fun (n, rest) ↦ readExt n rest)
  | 0x0a => objectHead ((readUint 4 bs).map fun (w, rest) ↦ (.float32 (.ofNat w), rest))
  | 0x0b => objectHead ((readUint 8 bs).map fun (w, rest) ↦ (.float64 (.ofNat w), rest))
  | 0x0c => objectHead ((readUint 1 bs).map fun (n, rest) ↦ (.uint (.ofNat n), rest))
  | 0x0d => objectHead ((readUint 2 bs).map fun (n, rest) ↦ (.uint (.ofNat n), rest))
  | 0x0e => objectHead ((readUint 4 bs).map fun (n, rest) ↦ (.uint (.ofNat n), rest))
  | 0x0f => objectHead ((readUint 8 bs).map fun (n, rest) ↦ (.uint (.ofNat n), rest))
  | 0x10 => objectHead (readInt 1 bs)
  | 0x11 => objectHead (readInt 2 bs)
  | 0x12 => objectHead (readInt 4 bs)
  | 0x13 => objectHead (readInt 8 bs)
  | 0x14 => objectHead (readExt 1 bs)
  | 0x15 => objectHead (readExt 2 bs)
  | 0x16 => objectHead (readExt 4 bs)
  | 0x17 => objectHead (readExt 8 bs)
  | 0x18 => objectHead (readExt 16 bs)
  | 0x19 => objectHead ((readBytes 1 bs).map fun (s, rest) ↦ (.str s, rest))
  | 0x1a => objectHead ((readBytes 2 bs).map fun (s, rest) ↦ (.str s, rest))
  | 0x1b => objectHead ((readBytes 4 bs).map fun (s, rest) ↦ (.str s, rest))
  | 0x1c => (readUint 2 bs).map fun (n, rest) ↦ (.array n, rest)
  | 0x1d => (readUint 4 bs).map fun (n, rest) ↦ (.array n, rest)
  | 0x1e => (readUint 2 bs).map fun (n, rest) ↦ (.map n, rest)
  | 0x1f => (readUint 4 bs).map fun (n, rest) ↦ (.map n, rest)
  | _ => none

/-- The first byte of an object decides its format: the short forms carry their
value or their count in the byte itself. -/
def decodeHead : List UInt8 → Option (Head × List UInt8)
  | [] => none
  | b :: bs =>
    let t := b.toNat
    if t < 0x80 then some (.object (.uint (UInt64.ofNat t)), bs)
    else if t < 0x90 then some (.map (t - 0x80), bs)
    else if t < 0xa0 then some (.array (t - 0x90), bs)
    else if t < 0xc0 then objectHead ((splitAt? (t - 0xa0) bs).map fun (s, rest) ↦ (.str s, rest))
    else if t < 0xe0 then decodeTagged (t - 0xc0) bs
    else some (.object (.nint (BitVec.ofNat 63 (0xff - t))), bs)

/-- Read `n` items, each by `item`. -/
def decodeItems (item : List UInt8 → Option (Object × List UInt8)) :
    Nat → List UInt8 → Option (List Object × List UInt8)
  | 0, bs => some ([], bs)
  | n + 1, bs => do
    let (o, bs) ← item bs
    let (os, bs) ← decodeItems item n bs
    return (o :: os, bs)

/-- Read `n` entries, key and value each by `item`. -/
def decodeEntries (item : List UInt8 → Option (Object × List UInt8)) :
    Nat → List UInt8 → Option (List (Object × Object) × List UInt8)
  | 0, bs => some ([], bs)
  | n + 1, bs => do
    let (k, bs) ← item bs
    let (v, bs) ← item bs
    let (kvs, bs) ← decodeEntries item n bs
    return ((k, v) :: kvs, bs)

/-- Read one object nested at most `fuel` deep. -/
def decode : Nat → List UInt8 → Option (Object × List UInt8)
  | 0, _ => none
  | fuel + 1, bs =>
    match decodeHead bs with
    | none => none
    | some (.object o, rest) => some (o, rest)
    | some (.array n, rest) =>
        (decodeItems (decode fuel) n rest).map fun (os, rest) ↦ (.array os, rest)
    | some (.map n, rest) =>
        (decodeEntries (decode fuel) n rest).map fun (kvs, rest) ↦ (.map kvs, rest)

/-- Read the object at the front of a byte string, and how many bytes it took. -/
def unpack (bs : List UInt8) : Option (Object × Nat) :=
  (decode bs.length bs).map fun (o, rest) ↦ (o, bs.length - rest.length)

/-! ## Reading back what was written -/

@[simp] theorem readUint_bytes {w n : Nat} (h : n < 256 ^ w) (rest : List UInt8) :
    readUint w (bytes w n ++ rest) = some (n, rest) := by
  simp [readUint, value_bytes h]

theorem readBytes_bytes {w : Nat} (s : List UInt8) (h : s.length < 256 ^ w) (rest : List UInt8) :
    readBytes w (bytes w s.length ++ (s ++ rest)) = some (s, rest) := by
  simp [readBytes, readUint_bytes h, splitAt?_append]

theorem readExt_cons (t : UInt8) {n : Nat} (s : List UInt8) (h : s.length = n)
    (rest : List UInt8) : readExt n (t :: (s ++ rest)) = some (.ext t s, rest) := by
  simp [readExt, splitAt?_append h]

/-- The object of a signed numeral with its sign bit set. -/
theorem readInt_neg {w n : Nat} (hw : 0 < w) (h : 2 * n < 256 ^ w) (rest : List UInt8) :
    readInt w (bytes w (256 ^ w - 1 - n) ++ rest) = some (.nint (.ofNat 63 n), rest) := by
  have hlt : 256 ^ w - 1 - n < 256 ^ w := by omega
  have heven : 256 ^ w % 2 = 0 := by
    obtain ⟨v, rfl⟩ := Nat.exists_eq_succ_of_ne_zero (Nat.ne_of_gt hw)
    rw [Nat.pow_succ]
    omega
  have hneg : ¬ 2 * (256 ^ w - 1 - n) < 256 ^ w := by omega
  have hback : 256 ^ w - 1 - (256 ^ w - 1 - n) = n := by omega
  simp [readInt, readUint_bytes hlt, hneg, hback]

theorem decodeHead_encodeUint (n : UInt64) (rest : List UInt8) :
    decodeHead (encodeUint n.toNat ++ rest) = some (.object (.uint n), rest) := by
  have hn : n.toNat < 256 ^ 8 := n.toNat_lt
  unfold encodeUint
  split_ifs with h₁ h₂ h₃ h₄
  · have : n.toNat % 256 = n.toNat := by omega
    simp [decodeHead, this, h₁]
  · simp [decodeHead, decodeTagged, objectHead, readUint_bytes (w := 1) h₂]
  · simp [decodeHead, decodeTagged, objectHead, readUint_bytes (w := 2) h₃]
  · simp [decodeHead, decodeTagged, objectHead, readUint_bytes (w := 4) h₄]
  · simp [decodeHead, decodeTagged, objectHead, readUint_bytes hn]

theorem decodeHead_encodeNint (n : BitVec 63) (rest : List UInt8) :
    decodeHead (encodeNint n.toNat ++ rest) = some (.object (.nint n), rest) := by
  have hn : n.toNat < 2 ^ 63 := n.isLt
  unfold encodeNint
  split_ifs with h₁ h₂ h₃ h₄
  · have hb : (0xff - n.toNat) % 256 = 0xff - n.toNat := by omega
    have hback : 0xff - (0xff - n.toNat) = n.toNat := by omega
    have hlow : ¬ 0xff - n.toNat < 0x80 ∧ ¬ 0xff - n.toNat < 0x90 ∧ ¬ 0xff - n.toNat < 0xa0 ∧
      ¬ 0xff - n.toNat < 0xc0 ∧ ¬ 0xff - n.toNat < 0xe0 := by omega
    simp only [List.cons_append, List.nil_append, decodeHead, UInt8.toNat_ofNat', Nat.reducePow,
      hb, hlow, if_false, hback, BitVec.ofNat_toNat, BitVec.setWidth_eq]
  · simpa [decodeHead, decodeTagged, objectHead] using
      readInt_neg (w := 1) (by omega) (by omega : 2 * n.toNat < 256 ^ 1) rest
  · simpa [decodeHead, decodeTagged, objectHead] using
      readInt_neg (w := 2) (by omega) (by omega : 2 * n.toNat < 256 ^ 2) rest
  · simpa [decodeHead, decodeTagged, objectHead] using
      readInt_neg (w := 4) (by omega) (by omega : 2 * n.toNat < 256 ^ 4) rest
  · simpa [decodeHead, decodeTagged, objectHead] using
      readInt_neg (w := 8) (by omega) (by omega : 2 * n.toNat < 256 ^ 8) rest

theorem decodeHead_str {s : List UInt8} (h : s.length < 2 ^ 32) (rest : List UInt8) :
    decodeHead (strHeader s.length ++ (s ++ rest)) = some (.object (.str s), rest) := by
  unfold strHeader
  split_ifs with h₁ h₂ h₃
  · have hb : (0xa0 + s.length) % 256 = 0xa0 + s.length := by omega
    have hlow : ¬ 0xa0 + s.length < 0x80 ∧ ¬ 0xa0 + s.length < 0x90 ∧ ¬ 0xa0 + s.length < 0xa0 ∧
      0xa0 + s.length < 0xc0 := by omega
    simp [decodeHead, objectHead, hb, hlow, splitAt?_append]
  · simp [decodeHead, decodeTagged, objectHead, readBytes_bytes (w := 1) s h₂]
  · simp [decodeHead, decodeTagged, objectHead, readBytes_bytes (w := 2) s h₃]
  · simp [decodeHead, decodeTagged, objectHead, readBytes_bytes (w := 4) s h]

theorem decodeHead_bin {s : List UInt8} (h : s.length < 2 ^ 32) (rest : List UInt8) :
    decodeHead (binHeader s.length ++ (s ++ rest)) = some (.object (.bin s), rest) := by
  unfold binHeader
  split_ifs with h₁ h₂
  · simp [decodeHead, decodeTagged, objectHead, readBytes_bytes (w := 1) s h₁]
  · simp [decodeHead, decodeTagged, objectHead, readBytes_bytes (w := 2) s h₂]
  · simp [decodeHead, decodeTagged, objectHead, readBytes_bytes (w := 4) s h]

theorem decodeHead_ext (t : UInt8) {s : List UInt8} (h : s.length < 2 ^ 32) (rest : List UInt8) :
    decodeHead (extHeader t s.length ++ (s ++ rest)) = some (.object (.ext t s), rest) := by
  unfold extHeader
  split_ifs with h₁ h₂ h₃ h₄ h₅ h₆ h₇
  · simp [decodeHead, decodeTagged, objectHead, readExt_cons t s h₁]
  · simp [decodeHead, decodeTagged, objectHead, readExt_cons t s h₂]
  · simp [decodeHead, decodeTagged, objectHead, readExt_cons t s h₃]
  · simp [decodeHead, decodeTagged, objectHead, readExt_cons t s h₄]
  · simp [decodeHead, decodeTagged, objectHead, readExt_cons t s h₅]
  · simp [decodeHead, decodeTagged, objectHead, readUint_bytes (w := 1) h₆, readExt_cons]
  · simp [decodeHead, decodeTagged, objectHead, readUint_bytes (w := 2) h₇, readExt_cons]
  · simp [decodeHead, decodeTagged, objectHead, readUint_bytes (w := 4) h, readExt_cons]

theorem decodeHead_arrayHeader {n : Nat} (h : n < 2 ^ 32) (rest : List UInt8) :
    decodeHead (arrayHeader n ++ rest) = some (.array n, rest) := by
  unfold arrayHeader
  split_ifs with h₁ h₂
  · have hb : (0x90 + n) % 256 = 0x90 + n := by omega
    have hlow : ¬ 0x90 + n < 0x80 ∧ ¬ 0x90 + n < 0x90 ∧ 0x90 + n < 0xa0 := by omega
    simp [decodeHead, hb, hlow]
  · simp [decodeHead, decodeTagged, readUint_bytes (w := 2) h₂]
  · simp [decodeHead, decodeTagged, readUint_bytes (w := 4) h]

theorem decodeHead_mapHeader {n : Nat} (h : n < 2 ^ 32) (rest : List UInt8) :
    decodeHead (mapHeader n ++ rest) = some (.map n, rest) := by
  unfold mapHeader
  split_ifs with h₁ h₂
  · have hb : (0x80 + n) % 256 = 0x80 + n := by omega
    have hlow : ¬ 0x80 + n < 0x80 ∧ 0x80 + n < 0x90 := by omega
    simp [decodeHead, hb, hlow]
  · simp [decodeHead, decodeTagged, readUint_bytes (w := 2) h₂]
  · simp [decodeHead, decodeTagged, readUint_bytes (w := 4) h]

/-- Items that are read back one by one are read back in a row. -/
theorem decodeItems_encodeItems {item : List UInt8 → Option (Object × List UInt8)}
    {os : List Object}
    (h : ∀ o ∈ os, ∀ rest, item (encode o ++ rest) = some (o, rest)) (rest : List UInt8) :
    decodeItems item os.length (encodeItems os ++ rest) = some (os, rest) := by
  induction os with
  | nil => rfl
  | cons o os ih =>
      have ho := h o List.mem_cons_self (encodeItems os ++ rest)
      have hos := ih fun p hp ↦ h p (List.mem_cons_of_mem o hp)
      simp [encodeItems, decodeItems, ho, hos]

theorem decodeEntries_encodeEntries {item : List UInt8 → Option (Object × List UInt8)}
    {kvs : List (Object × Object)}
    (h : ∀ kv ∈ kvs, ∀ rest, item (encode kv.1 ++ rest) = some (kv.1, rest) ∧
      item (encode kv.2 ++ rest) = some (kv.2, rest)) (rest : List UInt8) :
    decodeEntries item kvs.length (encodeEntries kvs ++ rest) = some (kvs, rest) := by
  induction kvs with
  | nil => rfl
  | cons kv kvs ih =>
      obtain ⟨k, v⟩ := kv
      have hk := (h (k, v) List.mem_cons_self (encode v ++ (encodeEntries kvs ++ rest))).1
      have hv := (h (k, v) List.mem_cons_self (encodeEntries kvs ++ rest)).2
      have hkvs := ih fun p hp ↦ h p (List.mem_cons_of_mem (k, v) hp)
      simp_all [encodeEntries, decodeEntries]

theorem encode_length_le_encodeItems {o : Object} {os : List Object} (h : o ∈ os) :
    (encode o).length ≤ (encodeItems os).length := by
  induction os with
  | nil => cases h
  | cons p os ih =>
      rw [encodeItems, List.length_append]
      rcases List.mem_cons.mp h with rfl | h
      · omega
      · have := ih h
        omega

theorem encode_length_le_encodeEntries {kv : Object × Object} {kvs : List (Object × Object)}
    (h : kv ∈ kvs) :
    (encode kv.1).length ≤ (encodeEntries kvs).length ∧
      (encode kv.2).length ≤ (encodeEntries kvs).length := by
  induction kvs with
  | nil => cases h
  | cons p kvs ih =>
      simp only [encodeEntries, List.length_append]
      rcases List.mem_cons.mp h with rfl | h
      · omega
      · have := ih h
        omega

theorem arrayHeader_length_pos (n : Nat) : 0 < (arrayHeader n).length := by
  unfold arrayHeader
  split_ifs <;> simp

theorem mapHeader_length_pos (n : Nat) : 0 < (mapHeader n).length := by
  unfold mapHeader
  split_ifs <;> simp

/-- **Round trip.**  An object whose encoding is shorter than `2 ^ 32` bytes is
read back from it, and nothing beyond it is touched.  The bound is the format's:
lengths and counts are written in at most four bytes. -/
theorem decode_encode {fuel : Nat} {o : Object} (hfuel : (encode o).length ≤ fuel)
    (h : (encode o).length < 2 ^ 32) (rest : List UInt8) :
    decode fuel (encode o ++ rest) = some (o, rest) := by
  induction fuel generalizing o rest with
  | zero =>
      have := encode_length_pos o
      omega
  | succ fuel ih =>
      cases o with
      | nil => rfl
      | bool b => cases b <;> rfl
      | uint n => simp [decode, encode, decodeHead_encodeUint]
      | nint n => simp [decode, encode, decodeHead_encodeNint]
      | float32 w =>
          have hw : w.toNat < 256 ^ 4 := w.toNat_lt
          simp [decode, encode, decodeHead, decodeTagged, objectHead, readUint_bytes hw]
      | float64 w =>
          have hw : w.toNat < 256 ^ 8 := w.toNat_lt
          simp [decode, encode, decodeHead, decodeTagged, objectHead, readUint_bytes hw]
      | str s =>
          have hs : s.length < 2 ^ 32 := by
            simp only [encode, List.length_append] at h
            omega
          simp [decode, encode, decodeHead_str hs]
      | bin s =>
          have hs : s.length < 2 ^ 32 := by
            simp only [encode, List.length_append] at h
            omega
          simp [decode, encode, decodeHead_bin hs]
      | ext t s =>
          have hs : s.length < 2 ^ 32 := by
            simp only [encode, List.length_append] at h
            omega
          simp [decode, encode, decodeHead_ext t hs]
      | array os =>
          have hpos := arrayHeader_length_pos os.length
          have hlen := length_le_encodeItems os
          simp only [encode, List.length_append] at h hfuel
          have hos : os.length < 2 ^ 32 := by omega
          have hitems : ∀ p ∈ os, ∀ rest, decode fuel (encode p ++ rest) = some (p, rest) := by
            intro p hp rest
            have := encode_length_le_encodeItems hp
            exact ih (by omega) (by omega) rest
          simp [decode, encode, decodeHead_arrayHeader hos, decodeItems_encodeItems hitems]
      | map kvs =>
          have hpos := mapHeader_length_pos kvs.length
          have hlen := length_le_encodeEntries kvs
          simp only [encode, List.length_append] at h hfuel
          have hkvs : kvs.length < 2 ^ 32 := by omega
          have hentries : ∀ kv ∈ kvs, ∀ rest,
              decode fuel (encode kv.1 ++ rest) = some (kv.1, rest) ∧
                decode fuel (encode kv.2 ++ rest) = some (kv.2, rest) := by
            intro kv hkv rest
            have := encode_length_le_encodeEntries hkv
            exact ⟨ih (by omega) (by omega) rest, ih (by omega) (by omega) rest⟩
          simp [decode, encode, decodeHead_mapHeader hkvs, decodeEntries_encodeEntries hentries]

/-- Unpacking a packed object returns it together with the length of its
encoding. -/
theorem unpack_encode {o : Object} (h : (encode o).length < 2 ^ 32) (rest : List UInt8) :
    unpack (encode o ++ rest) = some (o, (encode o).length) := by
  rw [unpack, decode_encode (by simp) h rest]
  simp

end MsgPack
