import Tntpp.Detail.Framing

/-!
# Length prefixes

A message starts with its length, as an integer in any of the formats MessagePack
has for it.  `read_message_length` tells them apart by their first byte.  The
question is for which formats it gets the number and takes exactly its bytes: all
but one.

Each format has a lemma of its own, from the byte that selects the branch to the
bytes the branch consumes; `readsLength_iff` collects them.
-/

namespace Tntpp

open BigEndian
open MsgPack (IntFormat)

namespace IprotoFraming

/-- Reading a length completes with `n` and consumes everything before `rest`, so
that the next transfer starts at its first byte. -/
def ReadsLength (s : IprotoFraming) (n : SizeType) (rest : List UInt8) : Prop :=
  ∃ s', s.readMessageLength = some (({}, n), s') ∧ s'.pending = rest ∧
    ∀ k, k ≤ rest.length → ∃ f s'', s'.transferExactly k = some (({}, f), s'') ∧
      s''.buffer.view f = rest.take k

section

variable {s : IprotoFraming} {bs rest : List UInt8}

/-- Bytes that are pending at the front are transferred, whatever their number. -/
theorem transferExactly_append (h : s.pending = bs ++ rest) :
    ∃ f s', s.transferExactly bs.length = some (({}, f), s') ∧ s'.buffer.Frozen f ∧
      f.size = bs.length ∧ s'.buffer.view f = bs ∧ s'.pending = rest ∧ Continues s s' := by
  have hlen : bs.length ≤ s.pending.length := by
    rw [h, List.length_append]
    exact Nat.le_add_right _ _
  obtain ⟨f, s', hs', hsize, hf, hv, hp, hc⟩ := transferExactly_spec hlen
  rw [h, List.take_left] at hv
  rw [h, List.drop_left] at hp
  exact ⟨f, s', hs', hf, hsize, hv, hp, hc⟩

theorem readUnsigned_spec {w n : Nat} (hn : n < 256 ^ w) (h : s.pending = bytes w n ++ rest) :
    ∃ s', s.readUnsigned w = some (({}, .ofNat n), s') ∧ s'.pending = rest ∧ Continues s s' := by
  obtain ⟨f, s', hs', -, -, hv, hp, hc⟩ := transferExactly_append h
  rw [length_bytes] at hs'
  refine ⟨s', ?_, hp, hc⟩
  simp [readUnsigned, hs', hv, value_bytes hn]

theorem signedValue_bytes {w n : Nat} (hn : 2 * n < 256 ^ w) : signedValue (bytes w n) = n := by
  have hlt : n < 256 ^ w := by omega
  rw [signedValue, value_bytes hlt, length_bytes, if_pos hn]

theorem checkLength_of_lt {n : Nat} (hn : n < 2 ^ 32) (s : IprotoFraming) :
    checkLength n s = (({}, .ofNat n), s) := by
  have hok : ¬ ((n : Int) < 0 ∨ (n : Int) > 0xffffffff) := by omega
  rw [checkLength, if_neg hok, Int.toNat_natCast]

theorem readSigned_spec {w n : Nat} (hn : 2 * n < 256 ^ w) (hsize : n < 2 ^ 32)
    (h : s.pending = bytes w n ++ rest) :
    ∃ s', s.readSigned w = some (({}, .ofNat n), s') ∧ s'.pending = rest ∧ Continues s s' := by
  obtain ⟨f, s', hs', -, -, hv, hp, hc⟩ := transferExactly_append h
  rw [length_bytes] at hs'
  refine ⟨s', ?_, hp, hc⟩
  simp [readSigned, hs', hv, signedValue_bytes hn, checkLength_of_lt hsize]

/-- The first byte selects the branch. -/
theorem readMessageLength_cons {b : UInt8} (h : s.pending = b :: rest) :
    ∃ s', s.readMessageLength = readLengthOf b s' ∧ s'.pending = rest ∧ Continues s s' := by
  have h' : s.pending = [b] ++ rest := h
  obtain ⟨f, s', hs', -, -, hv, hp, hc⟩ := transferExactly_append h'
  rw [List.length_singleton] at hs'
  refine ⟨s', ?_, hp, hc⟩
  simp [readMessageLength, hs', hv]

/-- A byte below `0x80` is the number itself. -/
theorem readLengthOf_fixint {n : Nat} (hn : n < 2 ^ 7) (s : IprotoFraming) :
    readLengthOf (.ofNat n) s = some (({}, .ofNat n), s) := by
  have hb : (UInt8.ofNat n).toNat = n := by
    rw [UInt8.toNat_ofNat']
    omega
  have hlow : UInt8.ofNat n &&& 0b01111111 = UInt8.ofNat n := by
    apply UInt8.toNat_inj.mp
    rw [UInt8.toNat_and, hb]
    exact Nat.and_two_pow_sub_one_of_lt_two_pow hn
  have hhigh : UInt8.ofNat n &&& 0b10000000 = 0 := by
    rw [← hlow, UInt8.and_assoc]
    exact UInt8.and_zero
  rw [readLengthOf, if_pos hhigh, hlow]
  congr 3
  apply UInt32.toNat_inj.mp
  rw [UInt8.toNat_toUInt32, hb, UInt32.toNat_ofNat']
  omega

/-- Every tag but the one of the 16-bit unsigned format selects a branch that reads
the number behind it. -/
theorem readLengthOf_tag {fmt : IntFormat} {t : UInt8} {w n : Nat} (ht : fmt.tag = some (t, w))
    (hfmt : fmt ≠ .uint16) (hn : n < fmt.bound) (hsize : n < 2 ^ 32)
    (h : s.pending = bytes w n ++ rest) :
    ∃ s', readLengthOf t s = some (({}, .ofNat n), s') ∧ s'.pending = rest ∧ Continues s s' := by
  cases fmt with
  | fixint => cases ht
  | uint16 => exact absurd rfl hfmt
  | uint8 | uint32 | uint64 =>
      cases ht
      obtain ⟨s', hs', hp, hc⟩ := readUnsigned_spec hn h
      exact ⟨s', hs', hp, hc⟩
  | int8 | int16 | int32 | int64 =>
      cases ht
      obtain ⟨s', hs', hp, hc⟩ := readSigned_spec (by simp only [IntFormat.bound] at hn; omega) hsize h
      exact ⟨s', hs', hp, hc⟩

/-- The tag of the 16-bit unsigned format is taken for a length of zero, and the
number behind it is left in the stream. -/
theorem readLengthOf_uint16 (s : IprotoFraming) : readLengthOf 0xcd s = some (({}, 0), s) := rfl

/-- In every format but one, reading a length consumes its bytes and completes with
the number. -/
theorem readMessageLength_spec {fmt : IntFormat} {n : Nat} (hfmt : fmt ≠ .uint16)
    (hn : n < fmt.bound) (hsize : n < 2 ^ 32) (h : s.pending = fmt.encode n ++ rest) :
    ∃ s', s.readMessageLength = some (({}, .ofNat n), s') ∧ s'.pending = rest ∧
      Continues s s' := by
  cases ht : fmt.tag with
  | none =>
      obtain rfl : fmt = .fixint := by cases fmt <;> first | rfl | cases ht
      obtain ⟨s', hs', hp, hc⟩ := readMessageLength_cons h
      exact ⟨s', by rw [hs', readLengthOf_fixint hn], hp, hc⟩
  | some tw =>
      obtain ⟨t, w⟩ := tw
      rw [IntFormat.encode, ht] at h
      obtain ⟨s₁, hs₁, hp₁, hc₁⟩ := readMessageLength_cons h
      obtain ⟨s₂, hs₂, hp₂, hc₂⟩ := readLengthOf_tag ht hfmt hn hsize hp₁
      exact ⟨s₂, by rw [hs₁, hs₂], hp₂, hc₁.trans hc₂⟩

end

/-- A length is read in exactly the formats other than the 16-bit unsigned one. -/
theorem readsLength_iff (fmt : IntFormat) (n : SizeType) (hn : n.toNat < fmt.bound)
    (s : IprotoFraming) (rest : List UInt8) (h : s.pending = fmt.encode n.toNat ++ rest) :
    s.ReadsLength n rest ↔ fmt ≠ .uint16 := by
  constructor
  · rintro ⟨s', hs', hp, -⟩ rfl
    -- the prefix is still pending, so what is left is longer than `rest`
    obtain ⟨s₁, hs₁, hp₁, -⟩ := readMessageLength_cons h
    rw [readLengthOf_uint16, hs'] at hs₁
    simp only [Option.some.injEq, Prod.mk.injEq] at hs₁
    obtain ⟨-, rfl⟩ := hs₁
    have hlen : rest.length = (bytes 2 n.toNat ++ rest).length :=
      congrArg List.length (hp.symm.trans hp₁)
    rw [List.length_append, length_bytes] at hlen
    omega
  · intro hfmt
    obtain ⟨s', hs', hp, -⟩ := readMessageLength_spec hfmt hn n.toNat_lt h
    rw [UInt32.ofNat_toNat] at hs'
    refine ⟨s', hs', hp, fun k hk ↦ ?_⟩
    rw [← hp] at hk
    obtain ⟨f, s'', hs'', -, -, hv, -, -⟩ := transferExactly_spec hk
    exact ⟨f, s'', hs'', by rw [hv, hp]⟩

/-- A connection that delivers the given bytes one by one and ends. -/
def ofBytes (bs : List UInt8) : IprotoFraming where
  nextLayer := ⟨bs.map fun b ↦ [b], ⟨2, .asio⟩, rfl⟩
  buffer := MutableBuffer.new 4

theorem pending_ofBytes (bs : List UInt8) : (ofBytes bs).pending = bs := by
  have hflat : (bs.map fun b ↦ [b]).flatten = bs := by
    induction bs with
    | nil => rfl
    | cons b bs ih => rw [List.map_cons, List.flatten_cons, ih, List.singleton_append]
  exact hflat

/-- The length `3` in the 32-bit format, before three bytes of payload. -/
theorem readsLength_uint32 : (ofBytes [0xce, 0, 0, 0, 3, 0x81, 0, 0]).ReadsLength 3 [0x81, 0, 0] :=
  (readsLength_iff .uint32 3 (by decide) _ _ rfl).mpr (by decide)

/-- The length `3` in the 16-bit format, before three bytes of payload. -/
theorem uint16_length_not_read :
    (ofBytes [0xcd, 0, 3, 0x81, 0, 0]).pending = IntFormat.uint16.encode 3 ++ [0x81, 0, 0] ∧
      ¬ (ofBytes [0xcd, 0, 3, 0x81, 0, 0]).ReadsLength 3 [0x81, 0, 0] := by
  refine ⟨rfl, ?_⟩
  rintro ⟨s', hs', -⟩
  have h : (ofBytes [0xcd, 0, 3, 0x81, 0, 0]).readMessageLength.map Prod.fst = some ({}, 3) := by
    rw [hs']
    rfl
  exact absurd h (by decide)

end IprotoFraming

end Tntpp
