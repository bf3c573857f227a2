import Tntpp.Detail.Framing

/-!
# The greeting

A server that accepts a connection sends two lines of 64 bytes, the second of which has
the salt for authentication.  `read_tarantool_hello` reads them and looks at the ends of
the lines only.
-/

namespace Tntpp

open Block ByteStream

/-- The size of a greeting. -/
def helloSize : Nat := 128

/-- What `read_tarantool_hello` does with the bytes it has read: an error and the salt. -/
def checkHello (buffer : List UInt8) : ErrorCode × List UInt8 :=
  if buffer[helloSize / 2 - 1]? ≠ some 0x0a ∨ buffer[helloSize - 1]? ≠ some 0x0a then
    (Errc.badMessage.code, [])
  else ({}, slice buffer (helloSize / 2) (helloSize / 2))

/-- `read_tarantool_hello`, and what is left of the stream. -/
def readTarantoolHello (stream : AsyncReadStream) :
    (ErrorCode × List UInt8) × AsyncReadStream :=
  let (ec, buffer, stream) := stream.asyncRead helloSize helloSize
  if ec.failed then ((ec, []), stream) else (checkHello buffer, stream)

/-- Two lines of 64 bytes. -/
def ValidHello (bs : List UInt8) : Prop :=
  bs.length = 128 ∧ bs[63]? = some 0x0a ∧ bs[127]? = some 0x0a

instance (bs : List UInt8) : Decidable (ValidHello bs) := inferInstanceAs (Decidable (_ ∧ _ ∧ _))

theorem checkHello_of_valid {bs : List UInt8} (h : ValidHello bs) :
    checkHello bs = ({}, slice bs 64 64) := by
  refine if_neg ?_
  rintro (hne | hne)
  · exact hne h.2.1
  · exact hne h.2.2

theorem checkHello_of_not_valid {bs : List UInt8} (hlen : bs.length = 128) (h : ¬ ValidHello bs) :
    checkHello bs = (Errc.badMessage.code, []) := by
  refine if_pos ?_
  by_contra hends
  obtain ⟨hfirst, hsecond⟩ := not_or.mp hends
  exact h ⟨hlen, not_not.mp hfirst, not_not.mp hsecond⟩

/-! ## Reading it -/

/-- Reading exactly `k` bytes. -/
theorem asyncRead_exactly {s : AsyncReadStream} {k : Nat} (h : k ≤ s.segments.flatten.length) :
    ∃ rest, s.asyncRead k k = ({}, s.segments.flatten.take k, { s with segments := rest }) ∧
      rest.flatten = s.segments.flatten.drop k := by
  have happ := readAtLeast_append (Nat.le_refl k) s.segments
  have hle := readAtLeast_length_le (Nat.le_refl k) s.segments
  have hshort := readAtLeast_short_iff (Nat.le_refl k) s.segments
  generalize hread : readAtLeast k k s.segments = r at happ hle hshort
  obtain ⟨bs, rest⟩ := r
  dsimp only at happ hle hshort
  have hge : ¬ bs.length < k := by
    rw [hshort]
    exact Nat.not_lt_of_le h
  have hlen : bs.length = k := Nat.le_antisymm hle (Nat.not_lt.mp hge)
  refine ⟨rest, ?_, ?_⟩
  · rw [AsyncReadStream.asyncRead, hread, ← happ, List.take_left' hlen]
    dsimp only
    rw [if_neg hge]
  · rw [← happ, List.drop_left' hlen]

/-- Reading more than there is. -/
theorem asyncRead_short {s : AsyncReadStream} {k : Nat} (h : s.segments.flatten.length < k) :
    ∃ bs s', s.asyncRead k k = (s.error, bs, s') := by
  have hshort := (readAtLeast_short_iff (Nat.le_refl k) s.segments).mpr h
  rw [AsyncReadStream.asyncRead]
  generalize readAtLeast k k s.segments = r at hshort
  exact ⟨r.1, { s with segments := r.2 }, Prod.ext (if_pos hshort) rfl⟩

/-- The salt of a stream that delivers a greeting is the second line, and what follows the
greeting is left to be read. -/
theorem readTarantoolHello_of_valid {s : AsyncReadStream}
    (h : ValidHello (s.segments.flatten.take 128)) :
    ∃ rest, readTarantoolHello s =
        (({}, slice s.segments.flatten 64 64), { s with segments := rest }) ∧
      rest.flatten = s.segments.flatten.drop 128 := by
  have hle : 128 ≤ s.segments.flatten.length := by
    have hlen := h.1
    rw [List.length_take] at hlen
    omega
  obtain ⟨rest, hread, hrest⟩ := asyncRead_exactly hle
  refine ⟨rest, ?_, hrest⟩
  have hslice : slice (s.segments.flatten.take 128) 64 64 = slice s.segments.flatten 64 64 := by
    apply slice_eq_of_take_eq _ (Nat.le_refl 128)
    rw [List.take_take, Nat.min_self]
  rw [readTarantoolHello, helloSize, hread]
  dsimp only
  rw [ErrorCode.failed_default, if_neg Bool.false_ne_true, checkHello_of_valid h, hslice]

/-- A stream that ends too early, or delivers something else. -/
theorem readTarantoolHello_of_not_valid {s : AsyncReadStream}
    (h : ¬ ValidHello (s.segments.flatten.take 128)) :
    ∃ ec s', readTarantoolHello s = ((ec, []), s') ∧ ec.failed = true := by
  rcases Nat.lt_or_ge s.segments.flatten.length 128 with hlt | hge
  · obtain ⟨bs, s', hread⟩ := asyncRead_short hlt
    refine ⟨s.error, s', ?_, s.failed_error⟩
    rw [readTarantoolHello, helloSize, hread]
    dsimp only
    rw [if_pos s.failed_error]
  · obtain ⟨rest, hread, -⟩ := asyncRead_exactly hge
    refine ⟨Errc.badMessage.code, { s with segments := rest }, ?_, rfl⟩
    rw [readTarantoolHello, helloSize, hread]
    dsimp only
    rw [ErrorCode.failed_default, if_neg Bool.false_ne_true,
      checkHello_of_not_valid (List.length_take_of_le hge) h]

/-! ## A server that greets -/

/-- The second line of a greeting. -/
def saltLine (salt : List UInt8) : List UInt8 :=
  salt ++ List.replicate (63 - salt.length) 0x20 ++ [0x0a]

/-- A greeting with a salt. -/
def greetingWith (salt : List UInt8) : AsyncReadStream where
  segments := [List.replicate 63 0x20 ++ [0x0a], saltLine salt]
  error := ⟨2, .asio⟩
  failed_error := failed_eof

theorem validHello_greetingWith (salt : List UInt8) (h : salt.length ≤ 63) :
    ValidHello ((greetingWith salt).segments.flatten.take 128) ∧
      slice (greetingWith salt).segments.flatten 64 64 = saltLine salt := by
  have hfirst : (List.replicate 63 (0x20 : UInt8) ++ [0x0a]).length = 64 := rfl
  have hsecond : (salt ++ List.replicate (63 - salt.length) 0x20).length = 63 := by
    rw [List.length_append, List.length_replicate]
    omega
  have hline : (saltLine salt).length = 64 := by
    rw [saltLine, List.length_append, hsecond]
    rfl
  have hflatten : (greetingWith salt).segments.flatten =
      (List.replicate 63 0x20 ++ [0x0a]) ++ saltLine salt := by
    simp [greetingWith]
  rw [hflatten, List.take_of_length_le (by rw [List.length_append, hfirst, hline])]
  refine ⟨⟨by rw [List.length_append, hfirst, hline], ?_, ?_⟩, ?_⟩
  · rw [List.getElem?_append_left (by decide)]
    rfl
  · rw [List.getElem?_append_right (by decide), hfirst, saltLine,
      List.getElem?_append_right (by omega), hsecond]
    rfl
  · rw [slice, List.drop_left' hfirst, List.take_of_length_le (Nat.le_of_eq hline)]

/-- The salt is the whole line, with the spaces that fill it. -/
theorem readTarantoolHello_greetingWith (salt : List UInt8) (h : salt.length ≤ 63) :
    ∃ s', readTarantoolHello (greetingWith salt) = (({}, saltLine salt), s') := by
  obtain ⟨hvalid, hline⟩ := validHello_greetingWith salt h
  obtain ⟨rest, hread, -⟩ := readTarantoolHello_of_valid hvalid
  exact ⟨{ greetingWith salt with segments := rest }, hline ▸ hread⟩

end Tntpp
