import Tntpp.Base.Transition
import Tntpp.Detail.Request

/-!
# The counters of a request

`finalize_map` and `finalize` write two numbers that the packer has counted: the entries
of the map and the bytes of the message.  A `Tally` counts the same in natural numbers.
The packer agrees with it up to the width of its counters, so what it writes is true
exactly as long as the true numbers fit.
-/

namespace Tntpp

open BigEndian Block Transition
open MsgPack (Object Codec)

/-- An operation of a `RequestPacker`. -/
inductive PackerOperation where
  /-- `pack` of a value. -/
  | pack (data : Object)
  /-- `pack` of a header. -/
  | packHeader (header : MessageHeader)
  /-- `begin_map(count)`. -/
  | beginMap (count : UInt32)
  /-- `begin_map()`. -/
  | beginUnsizedMap
  /-- `pack_map_entry`. -/
  | packMapEntry (field : FieldType) (data : Object)
  /-- `finalize_map`. -/
  | finalizeMap
  /-- `finalize`. -/
  | finalize

/-- One operation; `none` is a failed assertion. -/
def RequestPacker.step (mp : Codec) (p : RequestPacker) : PackerOperation → Option RequestPacker
  | .pack data => some (p.pack mp data)
  | .packHeader header => some (p.packHeader mp header)
  | .beginMap count => some (p.beginMap mp count.toNat)
  | .beginUnsizedMap => some p.beginUnsizedMap
  | .packMapEntry field data => some (p.packMapEntry mp field data)
  | .finalizeMap => p.finalizeMap
  | .finalize => some p.finalize

/-- The true numbers. -/
structure Tally where
  /-- The bytes behind the length prefix. -/
  payload : Nat := 0
  /-- `begin_map()` has been called. -/
  begun : Bool := false
  /-- The entries packed before the last call of `begin_map()`. -/
  earlier : Nat := 0
  /-- The entries of the map, those packed since. -/
  entries : Nat := 0

namespace Tally

/-- What an operation adds. -/
def add (mp : Codec) (t : Tally) : PackerOperation → Tally
  | .pack data => { t with payload := t.payload + (mp.pack data).length }
  | .packHeader header => { t with payload := t.payload + (Tntpp.packHeader mp header).length }
  | .beginMap count => { t with payload := t.payload + (mp.packMap count.toNat).length }
  | .beginUnsizedMap =>
      { payload := t.payload + 3, begun := true, earlier := t.earlier + t.entries, entries := 0 }
  | .packMapEntry field data =>
      { t with
        payload := t.payload + (mp.pack field.object).length + (mp.pack data).length
        entries := t.entries + 1 }
  | .finalizeMap => t
  | .finalize => t

/-- The true numbers after some operations. -/
def of (mp : Codec) (ops : List PackerOperation) : Tally := ops.foldl (add mp) {}

/-- The number of entries fits its 16 bits. -/
def EntriesFit (t : Tally) : Prop := t.begun = true → 2 ^ 16 ∣ t.earlier ∧ t.entries < 2 ^ 16

/-- The length fits its 32 bits. -/
def PayloadFits (t : Tally) : Prop := t.payload < 2 ^ 32

end Tally

/-! ## The packer and the true numbers -/

/-- The packer agrees with the true numbers, up to the width of its counters. -/
structure RequestPacker.Tallies (t : Tally) (p : RequestPacker) : Prop where
  /-- What was written. -/
  length : p.stream.length = t.payload + 5
  /-- All entries are counted in one counter. -/
  count : p.headerCount = .ofNat (t.earlier + t.entries)
  /-- Only `begin_map()` reserves a place. -/
  unreserved : t.begun = false → p.mapLenOffset = 0
  /-- The place lies behind the length and within the bytes written. -/
  reserved : t.begun = true → 6 ≤ p.mapLenOffset ∧ p.mapLenOffset + 2 ≤ p.stream.length

namespace RequestPacker

variable {mp : Codec} {t : Tally} {p q : RequestPacker}

theorem tallies_new : new.Tallies {} where
  length := by simp [new]
  count := rfl
  unreserved _ := rfl
  reserved hb := by cases hb

/-- Writing at the end. -/
theorem Tallies.write (h : p.Tallies t) (bs : List UInt8) :
    (p.write bs).Tallies { t with payload := t.payload + bs.length } where
  length := by
    change (p.stream ++ bs).length = _
    rw [List.length_append, h.length]
    exact Nat.add_right_comm t.payload 5 bs.length
  count := h.count
  unreserved := h.unreserved
  reserved hb := by
    refine ⟨(h.reserved hb).1, ?_⟩
    change _ ≤ (p.stream ++ bs).length
    rw [List.length_append]
    exact Nat.le_add_right_of_le (h.reserved hb).2

theorem Tallies.beginUnsizedMap (h : p.Tallies t) :
    p.beginUnsizedMap.Tallies (t.add mp .beginUnsizedMap) where
  length := by
    change (p.stream ++ [mapTag] ++ bytes 2 0xffff).length = t.payload + 3 + 5
    rw [List.length_append, List.length_append, length_bytes, h.length]
    rfl
  count := h.count
  unreserved hb := by cases hb
  reserved _ := by
    change 6 ≤ (p.stream ++ [mapTag]).length ∧ (p.stream ++ [mapTag]).length + 2 ≤
      (p.stream ++ [mapTag] ++ bytes 2 0xffff).length
    constructor
    · rw [List.length_append, h.length]
      exact Nat.le_add_left 6 t.payload
    · simp only [List.length_append, length_bytes]
      exact le_rfl

theorem Tallies.packMapEntry (h : p.Tallies t) (field : FieldType) (data : Object) :
    (p.packMapEntry mp field data).Tallies (t.add mp (.packMapEntry field data)) := by
  have hw := (h.write (mp.pack field.object)).write (mp.pack data)
  refine ⟨hw.length, ?_, hw.unreserved, hw.reserved⟩
  change p.headerCount + 1 = UInt16.ofNat (t.earlier + (t.entries + 1))
  rw [h.count, ← Nat.add_assoc, UInt16.ofNat_add (t.earlier + t.entries) 1]
  rfl

/-- Writing over bytes that are there. -/
theorem Tallies.overwrite (h : p.Tallies t) {i : Nat} {bs : List UInt8}
    (hi : i + bs.length ≤ p.stream.length) :
    Tallies t { p with stream := Block.overwrite p.stream i bs } where
  length := (length_overwrite hi).trans h.length
  count := h.count
  unreserved := h.unreserved
  reserved hb := by
    rw [length_overwrite hi]
    exact h.reserved hb

/-- `finalize_map` fails without `begin_map()`, and writes the counter otherwise. -/
theorem Tallies.finalizeMap_eq_some_iff (h : p.Tallies t) :
    p.finalizeMap = some q ↔ t.begun = true ∧
      q = { p with stream := Block.overwrite p.stream p.mapLenOffset (bytes 2 p.headerCount.toNat) } := by
  cases hb : t.begun with
  | false =>
      rw [finalizeMap, if_neg (not_not.mpr (h.unreserved hb))]
      simp
  | true =>
      have hne : p.mapLenOffset ≠ 0 := by
        intro hzero
        have hle := (h.reserved hb).1
        rw [hzero] at hle
        exact absurd hle (by decide)
      rw [finalizeMap, if_pos hne, Option.some_inj]
      constructor
      · rintro rfl
        exact ⟨rfl, rfl⟩
      · rintro ⟨-, rfl⟩
        rfl

theorem Tallies.finalizeMap (h : p.Tallies t) (hq : p.finalizeMap = some q) : q.Tallies t := by
  obtain ⟨hb, rfl⟩ := h.finalizeMap_eq_some_iff.mp hq
  apply h.overwrite
  rw [length_bytes]
  exact (h.reserved hb).2

theorem Tallies.finalize (h : p.Tallies t) : p.finalize.Tallies t := by
  apply h.overwrite
  rw [length_bytes, h.length]
  exact Nat.le_add_left 5 t.payload

theorem Tallies.step (h : p.Tallies t) {op : PackerOperation} (hq : p.step mp op = some q) :
    q.Tallies (t.add mp op) := by
  cases op with
  | pack data =>
      obtain rfl := Option.some.inj hq
      exact h.write _
  | packHeader header =>
      obtain rfl := Option.some.inj hq
      exact h.write _
  | beginMap count =>
      obtain rfl := Option.some.inj hq
      exact h.write _
  | beginUnsizedMap =>
      obtain rfl := Option.some.inj hq
      exact h.beginUnsizedMap
  | packMapEntry field data =>
      obtain rfl := Option.some.inj hq
      exact h.packMapEntry field data
  | finalizeMap => exact h.finalizeMap hq
  | finalize =>
      obtain rfl := Option.some.inj hq
      exact h.finalize

/-- Any operations at all. -/
theorem Tallies.exec (h : p.Tallies t) {ops : List PackerOperation}
    (hq : Transition.exec (RequestPacker.step mp) p ops = some q) :
    q.Tallies (ops.foldl (Tally.add mp) t) := by
  induction ops generalizing p t with
  | nil =>
      obtain rfl := Option.some.inj hq
      exact h
  | cons op ops ih =>
      obtain ⟨r, hr, hq⟩ := exec_cons.mp hq
      exact ih (h.step hr) hq

/-! ## What is written -/

/-- `finalize_map` writes the number of entries, unless it fails. -/
def WritesEntries (p : RequestPacker) (n : Nat) : Prop :=
  ∀ q, p.finalizeMap = some q → value (slice q.stream q.mapLenOffset 2) = n

/-- `finalize` writes the number of bytes that follow. -/
def WritesLength (p : RequestPacker) : Prop :=
  value (slice p.finalize.stream 1 4) = (p.finalize.stream.drop 5).length

/-- A numeral that is written is read back, reduced to its width. -/
theorem value_slice_overwrite {l : List UInt8} {i w n : Nat} (hi : i ≤ l.length) :
    value (slice (Block.overwrite l i (bytes w n)) i w) = n % 256 ^ w := by
  have h : slice (Block.overwrite l i (bytes w n)) i (bytes w n).length = bytes w n :=
    slice_overwrite_self hi
  rw [length_bytes] at h
  rw [h, value_bytes_mod]

/-- The two counters overlap nothing but the numbers reserved for them. -/
theorem Tallies.writesEntries_iff (h : p.Tallies t) : p.WritesEntries t.entries ↔ t.EntriesFit := by
  have hvalue (hb : t.begun = true) :
      value (slice (Block.overwrite p.stream p.mapLenOffset (bytes 2 p.headerCount.toNat))
        p.mapLenOffset 2) = (t.earlier + t.entries) % 2 ^ 16 := by
    have hle := (h.reserved hb).2
    rw [value_slice_overwrite (Nat.le_of_add_right_le hle), h.count, UInt16.toNat_ofNat']
    exact Nat.mod_mod _ _
  constructor
  · intro hw hb
    have hmod := hw _ (h.finalizeMap_eq_some_iff.mpr ⟨hb, rfl⟩)
    rw [hvalue hb] at hmod
    have hlt : t.entries < 2 ^ 16 := hmod ▸ Nat.mod_lt _ (by decide)
    refine ⟨?_, hlt⟩
    omega
  · intro hfit q hq
    obtain ⟨hb, rfl⟩ := h.finalizeMap_eq_some_iff.mp hq
    obtain ⟨⟨k, hk⟩, hlt⟩ := hfit hb
    rw [hvalue hb, hk, Nat.mul_add_mod]
    exact Nat.mod_eq_of_lt hlt

theorem Tallies.writesLength_iff (h : p.Tallies t) : p.WritesLength ↔ t.PayloadFits := by
  have hlen : (p.finalize.stream.drop 5).length = t.payload := by
    rw [List.length_drop, h.finalize.length, Nat.add_sub_cancel]
  have hvalue : value (slice p.finalize.stream 1 4) = t.payload % 2 ^ 32 := by
    have hle : 1 ≤ p.stream.length := by
      rw [h.length]
      exact Nat.le_add_left 1 _
    have hpow : 256 ^ 4 = 2 ^ 32 := by decide
    change value (slice (Block.overwrite p.stream 1
      (bytes 4 (UInt32.ofNat p.stream.length - 1 - 4).toNat)) 1 4) = _
    rw [value_slice_overwrite hle, h.length, toNat_realSize, Nat.mod_mod, hpow]
  rw [WritesLength, hlen, hvalue, Tally.PayloadFits]
  constructor
  · intro hmod
    exact hmod ▸ Nat.mod_lt _ (by decide)
  · exact Nat.mod_eq_of_lt

/-- After any operations, `finalize_map` writes the true number of entries if and only if
it fits 16 bits and no entries were counted for an earlier map, and `finalize` the true
length if and only if it fits 32 bits. -/
theorem finalize_writes_iff (mp : Codec) {ops : List PackerOperation}
    (hp : Transition.exec (RequestPacker.step mp) new ops = some p) :
    (p.WritesEntries (Tally.of mp ops).entries ↔ (Tally.of mp ops).EntriesFit) ∧
      (p.WritesLength ↔ (Tally.of mp ops).PayloadFits) := by
  have h : p.Tallies (Tally.of mp ops) := tallies_new.exec hp
  exact ⟨h.writesEntries_iff, h.writesLength_iff⟩

/-- A map with one entry. -/
theorem finalize_writes_limit :
    (new.beginUnsizedMap.packMapEntry Codec.reference .limit (.uint 1)).WritesEntries 1 ∧
      (new.beginUnsizedMap.packMapEntry Codec.reference .limit (.uint 1)).WritesLength := by
  have hp : Transition.exec (RequestPacker.step Codec.reference) new
      [.beginUnsizedMap, .packMapEntry .limit (.uint 1)] =
        some (new.beginUnsizedMap.packMapEntry Codec.reference .limit (.uint 1)) := rfl
  obtain ⟨hentries, hlength⟩ := finalize_writes_iff Codec.reference hp
  refine ⟨hentries.mpr fun _ ↦ ⟨?_, ?_⟩, hlength.mpr ?_⟩
  · exact Nat.dvd_zero _
  · exact Nat.one_lt_two_pow (by decide)
  · change 3 + (MsgPack.encode _).length + (MsgPack.encode _).length < 2 ^ 32
    decide

/-! ## Numbers that do not fit -/

/-- Packing entries never fails, and every one counts. -/
theorem exec_packMapEntry (mp : Codec) (field : FieldType) (data : Object) (n : Nat)
    (p : RequestPacker) (t : Tally) :
    (∃ q, Transition.exec (RequestPacker.step mp) p
        (List.replicate n (.packMapEntry field data)) = some q) ∧
      ((List.replicate n (.packMapEntry field data)).foldl (Tally.add mp) t).entries =
        t.entries + n ∧
      ((List.replicate n (.packMapEntry field data)).foldl (Tally.add mp) t).begun = t.begun := by
  induction n generalizing p t with
  | zero => exact ⟨⟨p, rfl⟩, rfl, rfl⟩
  | succ n ih =>
      obtain ⟨⟨q, hq⟩, hentries, hbegun⟩ := ih (p.packMapEntry mp field data)
        (t.add mp (.packMapEntry field data))
      rw [List.replicate_succ]
      refine ⟨⟨q, exec_cons.mpr ⟨_, rfl, hq⟩⟩, ?_, hbegun⟩
      rw [List.foldl_cons, hentries]
      exact Nat.add_right_comm t.entries 1 n

/-- A map with too many entries. -/
theorem not_writesEntries_replicate (mp : Codec) (field : FieldType) (data : Object) {n : Nat}
    (hn : 2 ^ 16 ≤ n) :
    ∃ p, Transition.exec (RequestPacker.step mp) new
        (.beginUnsizedMap :: List.replicate n (.packMapEntry field data)) = some p ∧
      ¬ p.WritesEntries
        (Tally.of mp (.beginUnsizedMap :: List.replicate n (.packMapEntry field data))).entries := by
  obtain ⟨⟨p, hp⟩, hentries, hbegun⟩ := exec_packMapEntry mp field data n new.beginUnsizedMap
    (Tally.add mp {} .beginUnsizedMap)
  have hnew : new.beginUnsizedMap.Tallies (Tally.add mp {} .beginUnsizedMap) :=
    tallies_new.beginUnsizedMap
  have h := hnew.exec hp
  refine ⟨p, exec_cons.mpr ⟨_, rfl, hp⟩, ?_⟩
  intro hwrites
  have hfit := (h.writesEntries_iff.mp hwrites hbegun).2
  rw [hentries] at hfit
  have hlt : n < 2 ^ 16 := Nat.lt_of_le_of_lt (Nat.le_add_left n _) hfit
  exact Nat.not_lt.mpr hn hlt

/-- A long string takes five bytes more than it has. -/
theorem length_encode_str {bs : List UInt8} (h : 2 ^ 16 ≤ bs.length) :
    (MsgPack.encode (.str bs)).length = bs.length + 5 := by
  rw [MsgPack.encode, List.length_append, MsgPack.strHeader, if_neg (by omega), if_neg (by omega),
    if_neg (by omega), List.length_cons, length_bytes]
  omega

/-- A message with a string that is too long. -/
theorem not_writesLength_str {bs : List UInt8} (hbs : 2 ^ 32 ≤ bs.length + 5) :
    ∃ p, Transition.exec (RequestPacker.step Codec.reference) new [.pack (.str bs)] = some p ∧
      ¬ p.WritesLength := by
  refine ⟨new.pack Codec.reference (.str bs), rfl, ?_⟩
  have h := tallies_new.write (MsgPack.encode (.str bs))
  intro hwrites
  have hfit : 0 + (MsgPack.encode (.str bs)).length < 2 ^ 32 := h.writesLength_iff.mp hwrites
  rw [length_encode_str (by omega)] at hfit
  omega

/-- A map of 65536 entries is written as one of none, and a message with the longest string
there is as one of four bytes. -/
theorem finalize_writes_wrapped :
    (∃ p, Transition.exec (RequestPacker.step Codec.reference) new
        (.beginUnsizedMap :: List.replicate 65536 (.packMapEntry .limit (.uint 1))) = some p ∧
      ¬ p.WritesEntries (Tally.of Codec.reference
        (.beginUnsizedMap :: List.replicate 65536 (.packMapEntry .limit (.uint 1)))).entries) ∧
    ∃ p, Transition.exec (RequestPacker.step Codec.reference) new
        [.pack (.str (List.replicate 4294967295 0))] = some p ∧ ¬ p.WritesLength := by
  constructor
  · exact not_writesEntries_replicate Codec.reference .limit (.uint 1) (by decide)
  · apply not_writesLength_str
    rw [List.length_replicate]
    decide

end RequestPacker

end Tntpp
