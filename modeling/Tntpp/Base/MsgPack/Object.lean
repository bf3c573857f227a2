import Tntpp.Base.BigEndian

/-!
# MessagePack objects and their encoding

`Object` is the data model of the MessagePack format: what a packer is given and
an unpacker returns.  Integers come in the two kinds the format distinguishes, a
64-bit non-negative one and a negative one; a negative integer `-1 - n` is stored
as `n`, so the two kinds do not overlap and no bit pattern is meaningless.

`encode` writes an object in the shortest form of each kind, which is what
packers do: the width of an integer, of a length or of a count is the smallest
one that holds it.
-/

namespace MsgPack

/-- A MessagePack object. -/
inductive Object where
  /-- `nil`. -/
  | nil
  /-- A boolean. -/
  | bool (b : Bool)
  /-- A non-negative integer. -/
  | uint (n : UInt64)
  /-- The negative integer `-1 - n`. -/
  | nint (n : BitVec 63)
  /-- A single-precision number, by its bits. -/
  | float32 (bits : UInt32)
  /-- A double-precision number, by its bits. -/
  | float64 (bits : UInt64)
  /-- A string, by its bytes. -/
  | str (bytes : List UInt8)
  /-- A byte array. -/
  | bin (bytes : List UInt8)
  /-- An extension value of an application-defined type. -/
  | ext (type : UInt8) (bytes : List UInt8)
  /-- A sequence of objects. -/
  | array (items : List Object)
  /-- A sequence of key-value pairs, in the order they were written. -/
  | map (entries : List (Object × Object))
deriving Repr

open BigEndian

/-! ## Integers and headers -/

/-- A non-negative integer in its shortest form. -/
def encodeUint (n : Nat) : List UInt8 :=
  if n < 0x80 then [UInt8.ofNat n]
  else if n < 0x100 then 0xcc :: bytes 1 n
  else if n < 0x10000 then 0xcd :: bytes 2 n
  else if n < 0x100000000 then 0xce :: bytes 4 n
  else 0xcf :: bytes 8 n

/-- The negative integer `-1 - n` in its shortest form: the two's complement of
`n` in the width chosen. -/
def encodeNint (n : Nat) : List UInt8 :=
  if n < 0x20 then [UInt8.ofNat (0xff - n)]
  else if n < 0x80 then 0xd0 :: bytes 1 (0xff - n)
  else if n < 0x8000 then 0xd1 :: bytes 2 (0xffff - n)
  else if n < 0x80000000 then 0xd2 :: bytes 4 (0xffffffff - n)
  else 0xd3 :: bytes 8 (0xffffffffffffffff - n)

/-- The integer formats that can carry a non-negative number. -/
inductive IntFormat where
  | fixint
  | uint8
  | uint16
  | uint32
  | uint64
  | int8
  | int16
  | int32
  | int64
deriving DecidableEq, Repr

namespace IntFormat

/-- The first byte of a format, which is the number itself for a `fixint`, and the
width of the number that follows. -/
def tag : IntFormat → Option (UInt8 × Nat)
  | fixint => none
  | uint8 => some (0xcc, 1)
  | uint16 => some (0xcd, 2)
  | uint32 => some (0xce, 4)
  | uint64 => some (0xcf, 8)
  | int8 => some (0xd0, 1)
  | int16 => some (0xd1, 2)
  | int32 => some (0xd2, 4)
  | int64 => some (0xd3, 8)

/-- The first non-negative number that is too large for a format. -/
def bound : IntFormat → Nat
  | fixint | int8 => 2 ^ 7
  | uint8 => 2 ^ 8
  | uint16 => 2 ^ 16
  | uint32 => 2 ^ 32
  | uint64 => 2 ^ 64
  | int16 => 2 ^ 15
  | int32 => 2 ^ 31
  | int64 => 2 ^ 63

/-- A number in a format that is able to carry it. -/
def encode (fmt : IntFormat) (n : Nat) : List UInt8 :=
  match fmt.tag with
  | none => [UInt8.ofNat n]
  | some (t, w) => t :: bytes w n

end IntFormat

/-- The header of a string of `n` bytes. -/
def strHeader (n : Nat) : List UInt8 :=
  if n < 0x20 then [UInt8.ofNat (0xa0 + n)]
  else if n < 0x100 then 0xd9 :: bytes 1 n
  else if n < 0x10000 then 0xda :: bytes 2 n
  else 0xdb :: bytes 4 n

/-- The header of a byte array of `n` bytes. -/
def binHeader (n : Nat) : List UInt8 :=
  if n < 0x100 then 0xc4 :: bytes 1 n
  else if n < 0x10000 then 0xc5 :: bytes 2 n
  else 0xc6 :: bytes 4 n

/-- The header of an extension value of `n` bytes. -/
def extHeader (type : UInt8) (n : Nat) : List UInt8 :=
  if n = 1 then [0xd4, type]
  else if n = 2 then [0xd5, type]
  else if n = 4 then [0xd6, type]
  else if n = 8 then [0xd7, type]
  else if n = 16 then [0xd8, type]
  else if n < 0x100 then 0xc7 :: (bytes 1 n ++ [type])
  else if n < 0x10000 then 0xc8 :: (bytes 2 n ++ [type])
  else 0xc9 :: (bytes 4 n ++ [type])

/-- The header of an array of `n` items. -/
def arrayHeader (n : Nat) : List UInt8 :=
  if n < 0x10 then [UInt8.ofNat (0x90 + n)]
  else if n < 0x10000 then 0xdc :: bytes 2 n
  else 0xdd :: bytes 4 n

/-- The header of a map of `n` entries. -/
def mapHeader (n : Nat) : List UInt8 :=
  if n < 0x10 then [UInt8.ofNat (0x80 + n)]
  else if n < 0x10000 then 0xde :: bytes 2 n
  else 0xdf :: bytes 4 n

/-! ## Objects -/

mutual

/-- The encoding of an object. -/
def encode : Object → List UInt8
  | .nil => [0xc0]
  | .bool b => [if b then 0xc3 else 0xc2]
  | .uint n => encodeUint n.toNat
  | .nint n => encodeNint n.toNat
  | .float32 w => 0xca :: bytes 4 w.toNat
  | .float64 w => 0xcb :: bytes 8 w.toNat
  | .str bs => strHeader bs.length ++ bs
  | .bin bs => binHeader bs.length ++ bs
  | .ext t bs => extHeader t bs.length ++ bs
  | .array os => arrayHeader os.length ++ encodeItems os
  | .map kvs => mapHeader kvs.length ++ encodeEntries kvs

/-- The items of an array, back to back. -/
def encodeItems : List Object → List UInt8
  | [] => []
  | o :: os => encode o ++ encodeItems os

/-- The entries of a map, back to back, each key before its value. -/
def encodeEntries : List (Object × Object) → List UInt8
  | [] => []
  | (k, v) :: kvs => encode k ++ encode v ++ encodeEntries kvs

end

theorem encodeEntries_eq_flatMap (kvs : List (Object × Object)) :
    encodeEntries kvs = kvs.flatMap fun kv ↦ encode kv.1 ++ encode kv.2 := by
  induction kvs with
  | nil => simp [encodeEntries]
  | cons kv kvs ih => simp [encodeEntries, ih]

/-- No object is encoded by the empty string. -/
theorem encode_length_pos (o : Object) : 0 < (encode o).length := by
  cases o <;> simp only [encode, encodeUint, encodeNint, strHeader, binHeader, extHeader,
    arrayHeader, mapHeader] <;> (repeat' split) <;> simp

theorem length_le_encodeItems (os : List Object) : os.length ≤ (encodeItems os).length := by
  induction os with
  | nil => simp
  | cons o os ih =>
      have := encode_length_pos o
      simp only [encodeItems, List.length_cons, List.length_append]
      omega

theorem length_le_encodeEntries (kvs : List (Object × Object)) :
    kvs.length ≤ (encodeEntries kvs).length := by
  induction kvs with
  | nil => simp
  | cons kv kvs ih =>
      have := encode_length_pos kv.1
      simp only [encodeEntries, List.length_cons, List.length_append]
      omega

end MsgPack
