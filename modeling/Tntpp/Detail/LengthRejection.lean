import Tntpp.Detail.MessageLength

/-!
# Length prefixes that are not lengths

What `read_message_length` makes of a stream that does not start with a number a
length can be.  Some branches end in the shared check on `result`, which a negative
number does not pass.  The others complete on their own, and a first byte without a
branch leaves `result` at the zero it starts with.

The branches are taken one at a time: the signed formats are always checked, the
unsigned ones never, and whether one of them fails is then a matter of how many
bytes there are.
-/

namespace Tntpp

open BigEndian
open MsgPack (Codec IntFormat)

namespace IprotoFraming

/-- The stream starts with an integer from `0` to `2 ^ 32 - 1`, in some format. -/
def StartsWithLength (bs : List UInt8) : Prop :=
  ∃ (fmt : IntFormat) (n : Nat) (rest : List UInt8),
    n < fmt.bound ∧ n < 2 ^ 32 ∧ bs = fmt.encode n ++ rest

/-- An operation that reads a number completes with an error. -/
def Fails (r : Option ((ErrorCode × SizeType) × IprotoFraming)) : Prop :=
  ∃ ec n s, r = some ((ec, n), s) ∧ ec.failed = true

/-- Reading a length completes with an error, and so does receiving a message. -/
def RejectsLength (mp : Codec) (s : IprotoFraming) : Prop :=
  Fails s.readMessageLength ∧ ∃ ec f s', s.receiveMessage mp = some ((ec, f), s') ∧ ec.failed = true

/-- The prefixes for which some branch reports an error: nothing at all, an unsigned
number of one, four or eight bytes that is cut short, and what has the first byte of
a format with a sign. -/
def Reported : List UInt8 → Prop
  | [] => True
  | t :: rest => t ∈ [0xcc, 0xce, 0xd0, 0xd1, 0xd2, 0xd3] ∨ 0xe0 ≤ t ∨ t = 0xcf ∧ rest.length < 8

instance : DecidablePred Reported
  | [] => .isTrue trivial
  | t :: rest => inferInstanceAs (Decidable (t ∈ _ ∨ 0xe0 ≤ t ∨ t = 0xcf ∧ rest.length < 8))

section

variable {s : IprotoFraming} {rest : List UInt8}

/-- An error of `read_message_length` is handed on by `receive_message`. -/
theorem rejectsLength_iff_fails (mp : Codec) :
    s.RejectsLength mp ↔ Fails s.readMessageLength := by
  constructor
  · exact And.left
  · rintro ⟨ec, n, s', h, hec⟩
    refine ⟨⟨ec, n, s', h, hec⟩, ec, ⟨{}, {}⟩, s', ?_, hec⟩
    simp [receiveMessage, h, hec]

@[simp] theorem fails_some {ec : ErrorCode} {n : SizeType} :
    Fails (some ((ec, n), s)) ↔ ec.failed = true := by
  constructor
  · rintro ⟨ec', n', s', h, hec⟩
    cases h
    exact hec
  · exact fun hec ↦ ⟨ec, n, s, rfl, hec⟩

/-- The check fails outside the range of a length. -/
theorem fails_checkLength {r : Int} (h : r < 0 ∨ r > 0xffffffff) :
    Fails (some (checkLength r s)) := by
  rw [checkLength, if_pos h, fails_some]
  rfl

/-- The unsigned formats fail only for want of bytes. -/
theorem fails_readUnsigned_iff {w : Nat} : Fails (s.readUnsigned w) ↔ s.pending.length < w := by
  rcases Nat.lt_or_ge s.pending.length w with h | h
  · obtain ⟨s', hs', -⟩ := transferExactly_short h
    simp [readUnsigned, hs', s.nextLayer.failed_error, h]
  · obtain ⟨f, s', hs', -⟩ := transferExactly_spec h
    simp [readUnsigned, hs', Nat.not_lt_of_le h]

/-- The signed formats fail unless the number is a length. -/
theorem fails_readSigned {w : Nat}
    (h : ∀ n rest, 2 * n < 256 ^ w → n < 2 ^ 32 → s.pending ≠ bytes w n ++ rest) :
    Fails (s.readSigned w) := by
  rcases Nat.lt_or_ge s.pending.length w with hw | hw
  · obtain ⟨s', hs', -⟩ := transferExactly_short hw
    simp [readSigned, hs', s.nextLayer.failed_error]
  · obtain ⟨n, rest, hn, hp⟩ := exists_bytes hw
    obtain ⟨f, s', hs', -, -, hv, -⟩ := transferExactly_append hp
    rw [length_bytes] at hs'
    have hcheck : s.readSigned w = some (checkLength (signedValue (bytes w n)) s') := by
      simp [readSigned, hs', hv]
    rw [hcheck]
    apply fails_checkLength
    rcases Nat.lt_or_ge (2 * n) (256 ^ w) with hpos | hneg
    · apply Or.inr
      rw [signedValue_bytes hpos]
      by_contra hle
      exact h n rest hpos (by omega) hp
    · apply Or.inl
      rw [signedValue, value_bytes hn, length_bytes, if_neg (Nat.not_lt_of_le hneg)]
      have hn' : (n : Int) < (256 ^ w : Nat) := Int.ofNat_lt.mpr hn
      rw [Int.natCast_pow] at hn'
      exact Int.sub_neg_of_lt hn'

/-- The test for a 7-bit number is a comparison. -/
theorem and_0x80_eq_zero_iff (t : UInt8) : t &&& 0b10000000 = 0 ↔ t < 0x80 := by
  rw [← UInt8.toBitVec_inj, UInt8.lt_iff_toBitVec_lt, UInt8.toBitVec_and]
  generalize t.toBitVec = b
  revert b
  decide

/-- The test for a negative number in one byte is a comparison. -/
theorem and_0xe0_eq_iff (t : UInt8) : t &&& 0b11100000 = 0b11100000 ↔ 0xe0 ≤ t := by
  rw [← UInt8.toBitVec_inj, UInt8.le_iff_toBitVec_le, UInt8.toBitVec_and]
  generalize t.toBitVec = b
  revert b
  decide

/-- A first byte and what follows it are no length in any format. -/
theorem not_encode {t : UInt8} (h : ¬ StartsWithLength (t :: s.pending)) {fmt : IntFormat} {w : Nat}
    (ht : fmt.tag = some (t, w)) (n : Nat) (rest : List UInt8) (hn : n < fmt.bound)
    (hsize : n < 2 ^ 32) : s.pending ≠ bytes w n ++ rest := by
  intro hp
  exact h ⟨fmt, n, rest, hn, hsize, by rw [IntFormat.encode, ht, hp]; rfl⟩

/-- In a format that only carries lengths, what is no length is cut short. -/
theorem fails_of_unsigned {t : UInt8} (h : ¬ StartsWithLength (t :: s.pending)) {fmt : IntFormat}
    {w : Nat} (ht : fmt.tag = some (t, w)) (hbound : 256 ^ w ≤ fmt.bound)
    (hsize : 256 ^ w ≤ 2 ^ 32) : Fails (s.readUnsigned w) := by
  rw [fails_readUnsigned_iff]
  by_contra hle
  obtain ⟨n, rest, hn, hp⟩ := exists_bytes (Nat.le_of_not_lt hle)
  exact not_encode h ht n rest (Nat.lt_of_lt_of_le hn hbound) (Nat.lt_of_lt_of_le hn hsize) hp

theorem fails_of_signed {t : UInt8} (h : ¬ StartsWithLength (t :: s.pending)) {fmt : IntFormat}
    {w : Nat} (ht : fmt.tag = some (t, w)) (hbound : 256 ^ w = 2 * fmt.bound) :
    Fails (s.readSigned w) := by
  apply fails_readSigned
  intro n rest hn
  exact not_encode h ht n rest (by omega)

/-- The branches of `read_message_length`. -/
theorem fails_readLengthOf_iff {t : UInt8} (h : ¬ StartsWithLength (t :: s.pending)) :
    Fails (readLengthOf t s) ↔ Reported (t :: s.pending) := by
  rw [readLengthOf]
  simp only [and_0x80_eq_zero_iff, and_0xe0_eq_iff]
  by_cases h₁ : t < 0x80
  · -- a 7-bit number is a length
    refine absurd ⟨.fixint, t.toNat, s.pending, h₁, by have := t.toNat_lt; omega, ?_⟩ h
    rw [IntFormat.encode, IntFormat.tag, UInt8.ofNat_toNat]
    rfl
  rw [if_neg h₁]
  by_cases h₂ : t = 0xcc
  · subst h₂
    have htag : IntFormat.uint8.tag = some (0xcc, 1) := rfl
    exact iff_of_true (fails_of_unsigned h htag (by decide) (by decide)) (Or.inl (by decide))
  rw [if_neg h₂, if_neg h₂]
  by_cases h₃ : t = 0xce
  · subst h₃
    have htag : IntFormat.uint32.tag = some (0xce, 4) := rfl
    exact iff_of_true (fails_of_unsigned h htag (by decide) (by decide)) (Or.inl (by decide))
  rw [if_neg h₃]
  by_cases h₄ : t = 0xcf
  · -- eight bytes are taken for a length whatever they are
    subst h₄
    rw [if_pos rfl, fails_readUnsigned_iff]
    simp [Reported]
  rw [if_neg h₄]
  by_cases h₅ : 0xe0 ≤ t
  · rw [if_pos h₅]
    exact iff_of_true (fails_checkLength (by decide)) (.inr (.inl h₅))
  rw [if_neg h₅]
  by_cases h₆ : t = 0xd0
  · subst h₆
    have htag : IntFormat.int8.tag = some (0xd0, 1) := rfl
    exact iff_of_true (fails_of_signed h htag rfl) (Or.inl (by decide))
  rw [if_neg h₆]
  by_cases h₇ : t = 0xd1
  · subst h₇
    have htag : IntFormat.int16.tag = some (0xd1, 2) := rfl
    exact iff_of_true (fails_of_signed h htag rfl) (Or.inl (by decide))
  rw [if_neg h₇]
  by_cases h₈ : t = 0xd2
  · subst h₈
    have htag : IntFormat.int32.tag = some (0xd2, 4) := rfl
    exact iff_of_true (fails_of_signed h htag rfl) (Or.inl (by decide))
  rw [if_neg h₈]
  by_cases h₉ : t = 0xd3
  · subst h₉
    have htag : IntFormat.int64.tag = some (0xd3, 8) := rfl
    exact iff_of_true (fails_of_signed h htag rfl) (Or.inl (by decide))
  · -- no branch: the result is zero
    rw [if_neg h₉]
    refine iff_of_false ?_ ?_
    · simp [checkLength]
    · simp [Reported, h₂, h₃, h₄, h₅, h₆, h₇, h₈, h₉]

end

/-- Of the streams that do not start with a length, the ones that are rejected are
those whose first byte has a branch that reports it. -/
theorem rejectsLength_iff (mp : Codec) (s : IprotoFraming) (h : ¬ StartsWithLength s.pending) :
    s.RejectsLength mp ↔ Reported s.pending := by
  rw [rejectsLength_iff_fails]
  cases hp : s.pending with
  | nil =>
      have hlen : s.pending.length < 1 := by
        rw [hp]
        exact Nat.one_pos
      obtain ⟨s', hs', -⟩ := transferExactly_short hlen
      refine iff_of_true ?_ trivial
      simp [readMessageLength, hs', s.nextLayer.failed_error]
  | cons t rest =>
      obtain ⟨s', hs', hrest, -⟩ := readMessageLength_cons hp
      rw [hp, ← hrest] at h
      rw [hs', ← hrest]
      exact fails_readLengthOf_iff h

/-- What stands behind the first byte of a length. -/
theorem StartsWithLength.of_cons {t : UInt8} {rest : List UInt8}
    (h : StartsWithLength (t :: rest)) :
    t < 0x80 ∨ ∃ (fmt : IntFormat) (w : Nat), fmt.tag = some (t, w) ∧
      value (rest.take w) < fmt.bound ∧ value (rest.take w) < 2 ^ 32 := by
  obtain ⟨fmt, n, rest', hn, hsize, heq⟩ := h
  cases ht : fmt.tag with
  | none =>
      obtain rfl : fmt = .fixint := by cases fmt <;> first | rfl | cases ht
      obtain ⟨rfl, -⟩ := List.cons.inj heq
      apply Or.inl
      have hmod : (UInt8.ofNat n).toNat = n % 2 ^ 8 := UInt8.toNat_ofNat'
      have hlt : n % 2 ^ 8 < 128 := Nat.lt_of_le_of_lt (Nat.mod_le n _) hn
      exact UInt8.lt_iff_toNat_lt.mpr (hmod ▸ hlt)
  | some tw =>
      obtain ⟨t', w⟩ := tw
      rw [IntFormat.encode, ht] at heq
      obtain ⟨rfl, hrest⟩ := List.cons.inj heq
      refine .inr ⟨fmt, w, ht, ?_⟩
      have hfit : n < 256 ^ w := by
        cases fmt with
        | fixint => cases ht
        | uint8 | uint16 | uint32 | uint64 | int8 | int16 | int32 | int64 =>
            cases ht
            simp only [IntFormat.bound] at hn
            omega
      have htake : rest.take w = bytes w n := by
        rw [hrest]
        exact List.take_left' (length_bytes w n)
      rw [htake, value_bytes hfit]
      exact ⟨hn, hsize⟩

/-- The number `-1` in the 8-bit signed format. -/
theorem rejectsLength_negative : (ofBytes [0xd0, 0xff]).RejectsLength .reference := by
  refine (rejectsLength_iff .reference _ ?_).mpr (by decide)
  rintro h
  obtain h | ⟨fmt, w, ht, hn, -⟩ := StartsWithLength.of_cons h
  · exact absurd h (by decide)
  · cases fmt <;> cases ht
    exact absurd hn (by decide)

/-- A stream that starts with `nil` is taken for one that starts with the length `0`,
and one that starts with `2 ^ 32 + 5` for one that starts with `5`. -/
theorem nil_read_as_length :
    (¬ StartsWithLength (ofBytes [0xc0, 0x80]).pending ∧
      ((ofBytes [0xc0, 0x80]).readMessageLength).map Prod.fst = some ({}, 0) ∧
      ¬ (ofBytes [0xc0, 0x80]).RejectsLength .reference) ∧
    ¬ StartsWithLength (ofBytes [0xcf, 0, 0, 0, 1, 0, 0, 0, 5]).pending ∧
      ((ofBytes [0xcf, 0, 0, 0, 1, 0, 0, 0, 5]).readMessageLength).map Prod.fst = some ({}, 5) ∧
      ¬ (ofBytes [0xcf, 0, 0, 0, 1, 0, 0, 0, 5]).RejectsLength .reference := by
  have hnot : ∀ {s : IprotoFraming} {n : SizeType},
      s.readMessageLength.map Prod.fst = some ({}, n) → ¬ s.RejectsLength .reference := by
    rintro s n hn ⟨⟨ec, m, s', h, hec⟩, -⟩
    rw [h] at hn
    obtain rfl : ec = {} := congrArg Prod.fst (Option.some.inj hn)
    exact absurd hec (by decide)
  refine ⟨⟨?_, by decide, hnot (n := 0) (by decide)⟩, ?_, by decide, hnot (n := 5) (by decide)⟩
  · rintro h
    obtain h | ⟨fmt, w, ht, -⟩ := StartsWithLength.of_cons h
    · exact absurd h (by decide)
    · cases fmt <;> cases ht
  · rintro h
    obtain h | ⟨fmt, w, ht, -, hn⟩ := StartsWithLength.of_cons h
    · exact absurd h (by decide)
    · cases fmt <;> cases ht
      exact absurd hn (by decide)

end IprotoFraming

end Tntpp
