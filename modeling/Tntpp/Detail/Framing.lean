import Mathlib.Algebra.Group.Int.Defs
import Tntpp.Base.ByteStream
import Tntpp.Detail.Frame

/-!
# Framing

`IprotoFraming` turns the byte stream of a socket into frames.  Its coroutines are
functions here that run to completion: what a coroutine awaits is the socket, and
the socket is part of the state.  A socket delivers the bytes of one connection in
segments of any size, and an error once they are used up.

`none` means that an assertion failed on the way.

The functions are described by what they do to the *pending* bytes, those received
and not consumed followed by those the socket will still deliver.
`transferExactly_spec` is that description, and nothing above it looks into the
buffer again: how reads over-run, where the buffer is reallocated and how the
stream was cut into segments is settled there.
-/

namespace Tntpp

open BigEndian ByteStream
open MsgPack (Codec)

/-- The receiving side of a socket: what the connection still delivers, and the
error it ends with. -/
structure AsyncReadStream where
  /-- The bytes to come, in the portions they will arrive in. -/
  segments : Segments
  /-- What a read fails with when the bytes are used up. -/
  error : ErrorCode
  /-- It is an error. -/
  failed_error : error.failed = true

theorem failed_eof : ErrorCode.failed ⟨2, .asio⟩ = true := rfl

/-- `boost::asio::async_read` with `transfer_at_least(k)` into a buffer of `cap`
bytes: the error code, the bytes that were written to the buffer, and what is left
of the stream. -/
def AsyncReadStream.asyncRead (s : AsyncReadStream) (k cap : Nat) :
    ErrorCode × List UInt8 × AsyncReadStream :=
  let (bs, rest) := readAtLeast k cap s.segments
  (if bs.length < k then s.error else {}, bs, { s with segments := rest })

/-- The framing layer over a socket. -/
structure IprotoFraming where
  /-- The socket. -/
  nextLayer : AsyncReadStream
  /-- The bytes received from it. -/
  buffer : MutableBuffer

namespace IprotoFraming

/-- `transfer_exactly`: consume exactly `bytes` bytes, reading more if they have not
arrived yet. -/
def transferExactly (s : IprotoFraming) (bytes : Nat) :
    Option ((ErrorCode × FrozenBuffer) × IprotoFraming) :=
  if s.buffer.ready ≥ bytes then do
    let (frozen, buffer) ← s.buffer.advanceReader bytes
    return (({}, frozen), { s with buffer })
  else do
    -- read more data
    let buffer ← s.buffer.prepare bytes
    let (cap, buffer) ← buffer.getReceiveBuffer
    let (ec, bs, nextLayer) := s.nextLayer.asyncRead (bytes - buffer.ready) cap
    let buffer ← buffer.receive bs
    if ec.failed then return ((ec, {}), ⟨nextLayer, buffer⟩)
    let buffer ← buffer.advanceWriter bs.length
    let (frozen, buffer) ← buffer.advanceReader bytes
    return (({}, frozen), ⟨nextLayer, buffer⟩)

/-- The unsigned formats of a length: `width` bytes, narrowed to the type of the
result. -/
def readUnsigned (s : IprotoFraming) (width : Nat) :
    Option ((ErrorCode × SizeType) × IprotoFraming) := do
  let ((ec, buf), s) ← s.transferExactly width
  if ec.failed then return ((ec, 0), s)
  return (({}, .ofNat (value (s.buffer.view buf))), s)

/-- The check the remaining formats end in. -/
def checkLength (result : Int) (s : IprotoFraming) : (ErrorCode × SizeType) × IprotoFraming :=
  if result < 0 ∨ result > 0xffffffff then ((Errc.messageSize.code, 0), s)
  else (({}, .ofNat result.toNat), s)

/-- The number `width` bytes spell in two's complement. -/
def signedValue (bs : List UInt8) : Int :=
  if 2 * value bs < 256 ^ bs.length then value bs else value bs - 256 ^ bs.length

/-- The signed formats of a length. -/
def readSigned (s : IprotoFraming) (width : Nat) :
    Option ((ErrorCode × SizeType) × IprotoFraming) := do
  let ((ec, buf), s) ← s.transferExactly width
  if ec.failed then return ((ec, 0), s)
  return checkLength (signedValue (s.buffer.view buf)) s

/-- The branches of `read_message_length` on the first byte of the prefix. -/
def readLengthOf (type : UInt8) (s : IprotoFraming) :
    Option ((ErrorCode × SizeType) × IprotoFraming) :=
  if type &&& 0b10000000 = 0 then
    -- 7-bit positive number
    some (({}, (type &&& 0b01111111).toUInt32), s)
  else if type = 0xcc then s.readUnsigned 1
  -- the branch of the 16-bit format repeats the tag of the 8-bit one
  else if type = 0xcc then s.readUnsigned 2
  else if type = 0xce then s.readUnsigned 4
  else if type = 0xcf then s.readUnsigned 8
  else if type &&& 0b11100000 = 0b11100000 then some (checkLength (-1) s)
  else if type = 0xd0 then s.readSigned 1
  else if type = 0xd1 then s.readSigned 2
  else if type = 0xd2 then s.readSigned 4
  else if type = 0xd3 then s.readSigned 8
  else some (checkLength 0 s)

/-- `read_message_length`: the length prefix of a message, in any integer format. -/
def readMessageLength (s : IprotoFraming) :
    Option ((ErrorCode × SizeType) × IprotoFraming) := do
  let ((ec, buf), s) ← s.transferExactly 1
  if ec.failed then return ((ec, 0), s)
  readLengthOf (.ofNat (value (s.buffer.view buf))) s

/-- `receive_message`. -/
def receiveMessage (mp : Codec) (s : IprotoFraming) :
    Option ((ErrorCode × IprotoFrame FrozenBuffer) × IprotoFraming) := do
  let ((ec, length), s) ← s.readMessageLength
  if ec.failed then return ((ec, ⟨{}, {}⟩), s)
  let ((ec, msgBody), s) ← s.transferExactly length.toNat
  if ec.failed then return ((ec, ⟨{}, {}⟩), s)
  match mp.unpack (s.buffer.view msgBody) with
  | none => return ((Errc.stateNotRecoverable.code, ⟨{}, {}⟩), s)
  | some (object, offset) =>
      match convertHeader object with
      | none => return ((Errc.illegalByteSequence.code, ⟨{}, {}⟩), s)
      | some header => do
          let body ← msgBody.slice offset
          return (({}, ⟨header, body⟩), s)

/-- `clear`. -/
def clear (s : IprotoFraming) : IprotoFraming := { s with buffer := s.buffer.clear }

/-! ## Consuming the pending bytes -/

/-- The bytes received and not consumed, then the bytes the socket still delivers. -/
def pending (s : IprotoFraming) : List UInt8 := s.buffer.unread ++ s.nextLayer.segments.flatten

/-- `s'` continues `s` on the same connection: frozen buffers are kept, the error the
connection ends with is the same. -/
structure Continues (s s' : IprotoFraming) : Prop where
  /-- What was frozen stays frozen. -/
  keeps : s.buffer.Keeps s'.buffer
  /-- The connection ends the same way. -/
  error_eq : s'.nextLayer.error = s.nextLayer.error

namespace Continues

theorem trans {s s' s'' : IprotoFraming} (h : Continues s s') (h' : Continues s' s'') :
    Continues s s'' := ⟨h.keeps.trans h'.keeps, h'.error_eq.trans h.error_eq⟩

end Continues

/-- What `transfer_exactly` does to the pending bytes when there are enough of
them. -/
theorem transferExactly_spec {s : IprotoFraming} {n : Nat} (h : n ≤ s.pending.length) :
    ∃ f s', s.transferExactly n = some (({}, f), s') ∧ f.size = n ∧ s'.buffer.Frozen f ∧
      s'.buffer.view f = s.pending.take n ∧ s'.pending = s.pending.drop n ∧ Continues s s' := by
  by_cases hn : n ≤ s.buffer.ready
  · obtain ⟨f, m, hm, hsize, hf, hv, hu, -, hk⟩ := MutableBuffer.advanceReader_spec hn
    have hlen : n ≤ s.buffer.unread.length := by rwa [MutableBuffer.length_unread]
    refine ⟨f, { s with buffer := m }, ?_, hsize, hf, ?_, ?_, hk, rfl⟩
    · rw [transferExactly, if_pos hn, hm]
      rfl
    · rw [hv, pending, List.take_append_of_le_length hlen]
    · rw [pending, pending, hu, List.drop_append_of_le_length hlen]
  · obtain ⟨m₁, h₁, hu₁, hf₁, -, hk₁⟩ := s.buffer.prepare_spec n
    obtain ⟨m₂, h₂, hu₂, hf₂, -, -, hk₂⟩ := m₁.getReceiveBuffer_spec
    have hready : m₂.ready = s.buffer.ready := by
      rw [← MutableBuffer.length_unread, hu₂, hu₁, MutableBuffer.length_unread]
    have hcap : n - m₂.ready ≤ m₂.buffer.free := by omega
    have hshort := readAtLeast_short_iff hcap s.nextLayer.segments
    have happ := readAtLeast_append hcap s.nextLayer.segments
    have hle := readAtLeast_length_le hcap s.nextLayer.segments
    generalize hread : readAtLeast (n - m₂.ready) m₂.buffer.free s.nextLayer.segments = r
      at hshort happ hle
    obtain ⟨bs, rest⟩ := r
    simp only at hshort happ hle
    have hpend : s.pending.length = s.buffer.ready + s.nextLayer.segments.flatten.length := by
      rw [pending, List.length_append, MutableBuffer.length_unread]
    have hbs : ¬ bs.length < n - m₂.ready := by
      rw [hshort]
      omega
    obtain ⟨m₃, m₄, h₃, h₄, hu₄, -, hk₄⟩ := MutableBuffer.receive_advanceWriter_spec hle
    have hu : m₄.unread ++ rest.flatten = s.pending := by
      rw [hu₄, hu₂, hu₁, List.append_assoc, happ]
      rfl
    have hn₄ : n ≤ m₄.ready := by
      rw [← MutableBuffer.length_unread, hu₄, List.length_append, MutableBuffer.length_unread]
      omega
    obtain ⟨f, m₅, h₅, hsize, hf, hv, hu₅, -, hk₅⟩ := MutableBuffer.advanceReader_spec hn₄
    have hlen : n ≤ m₄.unread.length := by rwa [MutableBuffer.length_unread]
    refine ⟨f, ⟨{ s.nextLayer with segments := rest }, m₅⟩, ?_, hsize, hf, ?_, ?_, ?_, rfl⟩
    · rw [transferExactly, if_neg hn]
      simp [h₁, h₂, AsyncReadStream.asyncRead, hread, hbs, h₃, h₄, h₅]
    · rw [hv, ← hu, List.take_append_of_le_length hlen]
    · rw [pending, hu₅, ← hu, List.drop_append_of_le_length hlen]
    · exact hk₁.trans (hk₂.trans (hk₄.trans hk₅))

/-- When there are too few pending bytes, the error of the connection is reported. -/
theorem transferExactly_short {s : IprotoFraming} {n : Nat} (h : s.pending.length < n) :
    ∃ s', s.transferExactly n = some ((s.nextLayer.error, {}), s') ∧ Continues s s' := by
  have hpend : s.pending.length = s.buffer.ready + s.nextLayer.segments.flatten.length := by
    rw [pending, List.length_append, MutableBuffer.length_unread]
  have hn : ¬ s.buffer.ready ≥ n := by omega
  obtain ⟨m₁, h₁, hu₁, hf₁, -, hk₁⟩ := s.buffer.prepare_spec n
  obtain ⟨m₂, h₂, hu₂, hf₂, -, -, hk₂⟩ := m₁.getReceiveBuffer_spec
  have hready : m₂.ready = s.buffer.ready := by
    rw [← MutableBuffer.length_unread, hu₂, hu₁, MutableBuffer.length_unread]
  have hcap : n - m₂.ready ≤ m₂.buffer.free := by omega
  have hshort := readAtLeast_short_iff hcap s.nextLayer.segments
  have hle := readAtLeast_length_le hcap s.nextLayer.segments
  generalize hread : readAtLeast (n - m₂.ready) m₂.buffer.free s.nextLayer.segments = r
    at hshort hle
  obtain ⟨bs, rest⟩ := r
  simp only at hshort hle
  have hbs : bs.length < n - m₂.ready := by
    rw [hshort]
    omega
  obtain ⟨m₃, h₃, -, -, -, -, hk₃⟩ := MutableBuffer.receive_spec hle
  refine ⟨⟨{ s.nextLayer with segments := rest }, m₃⟩, ?_, hk₁.trans (hk₂.trans hk₃), rfl⟩
  rw [transferExactly, if_neg hn]
  simp [h₁, h₂, AsyncReadStream.asyncRead, hread, hbs, h₃, s.nextLayer.failed_error]

end IprotoFraming

end Tntpp
