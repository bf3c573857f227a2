import Tntpp.Detail.MessageLength

/-!
# Stream reassembly

A server writes frames back to back and the network delivers the bytes in portions
of its own choosing, until the connection is cut somewhere, possibly in the middle
of a frame.  Successive calls of `receive_message` give back the frames that were
complete before the cut, then the error of the connection, and nothing of what is
left reaches the next one.

The argument is by the pending bytes alone.  A call that finds a whole frame at
their front removes it (`receiveMessage_spec`); a call that finds less than one
fails with the error of the connection (`receiveMessage_short`); and the frozen
bodies already handed out are not touched by either, which is what `Continues`
says.
-/

namespace Tntpp

open BigEndian
open MsgPack (Object Codec IntFormat)

/-! ## Frames on the wire -/

/-- A frame as a server sends it: a header map that `unpack` finds at the front of
the payload and `convert` accepts, and a body behind it. -/
structure WireFrame (mp : Codec) where
  /-- The encoded header. -/
  head : List UInt8
  /-- The body. -/
  body : List UInt8
  /-- The object the header encodes. -/
  object : Object
  /-- The header. -/
  header : MessageHeader
  /-- Unpacking consumes exactly the header. -/
  unpack_eq : mp.unpack (head ++ body) = some (object, head.length)
  /-- The object is a header map. -/
  convert_eq : convertHeader object = some header
  /-- The body is not empty. -/
  body_ne_nil : body ≠ []
  /-- The payload is short enough for the length prefix. -/
  length_lt : (head ++ body).length < 2 ^ 32

namespace WireFrame

variable {mp : Codec}

/-- What the length prefix counts. -/
def payload (f : WireFrame mp) : List UInt8 := f.head ++ f.body

theorem payload_length_lt (f : WireFrame mp) : f.payload.length < 2 ^ 32 := f.length_lt

/-- The length prefix holds the length of the payload. -/
theorem toNat_length (f : WireFrame mp) : (UInt32.ofNat f.payload.length).toNat = f.payload.length := by
  rw [UInt32.toNat_ofNat']
  exact Nat.mod_eq_of_lt f.payload_length_lt

/-- The bytes of a frame. -/
def bytes (f : WireFrame mp) : List UInt8 := IntFormat.uint32.encode f.payload.length ++ f.payload

theorem bytes_eq (f : WireFrame mp) :
    f.bytes = 0xce :: (BigEndian.bytes 4 f.payload.length ++ f.payload) := rfl

/-- The frames that are complete before the byte position `cut`. -/
def complete : Nat → List (WireFrame mp) → List (WireFrame mp)
  | _, [] => []
  | cut, f :: fs =>
    if f.bytes.length ≤ cut then f :: complete (cut - f.bytes.length) fs else []

end WireFrame

/-- One connection of a server: what it sends, where it is cut, and how the bytes
before the cut are delivered. -/
structure ServerConnection (mp : Codec) where
  /-- The frames the server sends. -/
  frames : List (WireFrame mp)
  /-- The number of bytes that are delivered. -/
  cut : Nat
  /-- The stream the client reads. -/
  stream : AsyncReadStream
  /-- It delivers the bytes before the cut. -/
  delivered : stream.segments.flatten = (frames.flatMap WireFrame.bytes).take cut

/-- The frames of a connection that are complete before its cut. -/
def ServerConnection.complete {mp : Codec} (c : ServerConnection mp) : List (WireFrame mp) :=
  WireFrame.complete c.cut c.frames

/-! ## Successive calls -/

/-- What a call of `receive_message` completes with, and the bytes the body refers to
at that time. -/
structure Delivery where
  /-- The error code. -/
  ec : ErrorCode
  /-- The frame. -/
  frame : IprotoFrame FrozenBuffer
  /-- The bytes of its body. -/
  body : List UInt8

namespace Delivery

/-- What the receiver sees. -/
def outcome (d : Delivery) : ErrorCode × MessageHeader × List UInt8 :=
  (d.ec, d.frame.header, d.body)

/-- What the receiver sees of an error. -/
def failure (ec : ErrorCode) : ErrorCode × MessageHeader × List UInt8 := (ec, {}, [])

end Delivery

/-- The delivery of a frame. -/
def WireFrame.outcome {mp : Codec} (f : WireFrame mp) : ErrorCode × MessageHeader × List UInt8 :=
  ({}, f.header, f.body)

namespace IprotoFraming

/-- Call `receive_message` a number of times. -/
def receiveMessages (mp : Codec) : Nat → IprotoFraming → Option (List Delivery × IprotoFraming)
  | 0, s => some ([], s)
  | n + 1, s => do
    let ((ec, frame), s) ← s.receiveMessage mp
    let (ds, s') ← receiveMessages mp n s
    return (⟨ec, frame, s.buffer.view frame.body⟩ :: ds, s')

/-- `clear`, and the next connection under the same framing. -/
def reconnect (s : IprotoFraming) (stream : AsyncReadStream) : IprotoFraming :=
  { s.clear with nextLayer := stream }

/-- Go through a list of connections, calling `receive_message` on each of them as many
times as given. -/
def receiveConnections (mp : Codec) :
    List (AsyncReadStream × Nat) → IprotoFraming → Option (List (List Delivery) × IprotoFraming)
  | [], s => some ([], s)
  | (stream, calls) :: cs, s => do
    let (ds, s) ← receiveMessages mp calls (s.reconnect stream)
    let (dss, s) ← receiveConnections mp cs s
    return (ds :: dss, s)

/-! ## One call -/

section

variable {mp : Codec} {s : IprotoFraming}

/-- A frame at the front of the pending bytes is received and removed. -/
theorem receiveMessage_spec (f : WireFrame mp) {rest : List UInt8}
    (h : s.pending = f.bytes ++ rest) :
    ∃ frame s', s.receiveMessage mp = some (({}, frame), s') ∧ frame.header = f.header ∧
      s'.buffer.Frozen frame.body ∧ s'.buffer.view frame.body = f.body ∧ s'.pending = rest ∧
      Continues s s' := by
  rw [WireFrame.bytes, List.append_assoc] at h
  obtain ⟨s₁, hs₁, hp₁, hc₁⟩ :=
    readMessageLength_spec (by decide) f.payload_length_lt f.payload_length_lt h
  obtain ⟨msgBody, s₂, hs₂, hf₂, hsize, hv₂, hp₂, hc₂⟩ := transferExactly_append hp₁
  rw [← f.toNat_length] at hs₂
  have hstart : f.head.length < msgBody.size := by
    rw [hsize, WireFrame.payload, List.length_append]
    exact Nat.lt_add_of_pos_right (List.length_pos_iff.mpr f.body_ne_nil)
  obtain ⟨body, hb, -, hvb, hfb⟩ := FrozenBuffer.slice_spec hstart s₂.buffer
  refine ⟨⟨f.header, body⟩, s₂, ?_, rfl, hfb hf₂, ?_, hp₂, hc₁.trans hc₂⟩
  · have hunpack : mp.unpack f.payload = some (f.object, f.head.length) := f.unpack_eq
    simp only [receiveMessage, hs₁, hs₂, bind, pure, Option.bind_some, ErrorCode.failed_default,
      Bool.false_eq_true, if_false, hv₂, hunpack, f.convert_eq, hb]
  · rw [hvb, hv₂, WireFrame.payload, List.drop_left]

/-- Where the length fails, so does the message. -/
theorem receiveMessage_of_length {ec : ErrorCode} {n : SizeType} {s' : IprotoFraming}
    (h : s.readMessageLength = some ((ec, n), s')) (hec : ec.failed = true) :
    s.receiveMessage mp = some ((ec, ⟨{}, {}⟩), s') := by
  simp [receiveMessage, h, hec]

/-- With nothing pending, a call fails with the error of the connection. -/
theorem receiveMessage_nil (mp : Codec) (h : s.pending = []) :
    ∃ s', s.receiveMessage mp = some ((s.nextLayer.error, ⟨{}, {}⟩), s') ∧ Continues s s' := by
  have hlen : s.pending.length < 1 := by
    rw [h]
    exact Nat.one_pos
  obtain ⟨s', hs', hc⟩ := transferExactly_short hlen
  refine ⟨s', receiveMessage_of_length (n := 0) ?_ s.nextLayer.failed_error, hc⟩
  simp [readMessageLength, hs', s.nextLayer.failed_error]

/-- With a part of a frame pending, a call fails with the error of the connection. -/
theorem receiveMessage_short (f : WireFrame mp) {cut : Nat} (hcut : cut < f.bytes.length)
    (h : s.pending = f.bytes.take cut) :
    ∃ s', s.receiveMessage mp = some ((s.nextLayer.error, ⟨{}, {}⟩), s') ∧ Continues s s' := by
  rw [f.bytes_eq] at h hcut
  cases cut with
  | zero => exact receiveMessage_nil mp h
  | succ k =>
      rw [List.take_succ_cons] at h
      obtain ⟨s₁, hs₁, hp₁, hc₁⟩ := readMessageLength_cons h
      rcases Nat.lt_or_ge k 4 with hk | hk
      · -- cut inside the length
        have hlen : s₁.pending.length < 4 := by
          rw [hp₁, List.length_take]
          exact Nat.lt_of_le_of_lt (Nat.min_le_left _ _) hk
        obtain ⟨s₂, hs₂, hc₂⟩ := transferExactly_short hlen
        rw [hc₁.error_eq] at hs₂
        refine ⟨s₂, receiveMessage_of_length (n := 0) ?_ s.nextLayer.failed_error, hc₁.trans hc₂⟩
        rw [hs₁]
        change s₁.readUnsigned 4 = _
        simp [readUnsigned, hs₂, s.nextLayer.failed_error]
      · -- cut inside the payload
        rw [List.take_append, List.take_of_length_le (by rwa [length_bytes]), length_bytes] at hp₁
        obtain ⟨s₂, hs₂, hp₂, hc₂⟩ := readUnsigned_spec (w := 4) f.payload_length_lt hp₁
        have hlen : s₂.pending.length < (UInt32.ofNat f.payload.length).toNat := by
          rw [f.toNat_length, hp₂, List.length_take]
          simp only [List.length_cons, List.length_append, length_bytes] at hcut
          omega
        obtain ⟨s₃, hs₃, hc₃⟩ := transferExactly_short hlen
        rw [hc₂.error_eq, hc₁.error_eq] at hs₃
        refine ⟨s₃, ?_, hc₁.trans (hc₂.trans hc₃)⟩
        have hlength : s.readMessageLength = some (({}, .ofNat f.payload.length), s₂) := by
          rw [hs₁]
          exact hs₂
        simp only [receiveMessage, hlength, hs₃, bind, pure, Option.bind_some,
          ErrorCode.failed_default, s.nextLayer.failed_error, Bool.false_eq_true, if_false, if_true]

/-- The empty frame refers to no bytes. -/
theorem view_empty (m : MutableBuffer) : m.view {} = [] := rfl

end

/-! ## One connection -/

section

variable {mp : Codec}

/-- A body that was handed out is frozen and reads as it did then. -/
def Settled (s : IprotoFraming) (d : Delivery) : Prop :=
  s.buffer.Frozen d.frame.body ∧ s.buffer.view d.frame.body = d.body

theorem Settled.keeps {s s' : IprotoFraming} {d : Delivery} (h : s.Settled d)
    (hk : s.buffer.Keeps s'.buffer) : s'.Settled d :=
  ⟨hk.frozen h.1, by rw [hk.view_eq h.1, h.2]⟩

/-- The calls on one connection deliver the frames that are complete before the cut,
then the error. -/
theorem receiveMessages_spec (fs : List (WireFrame mp)) (cut : Nat) (s : IprotoFraming)
    (h : s.pending = (fs.flatMap WireFrame.bytes).take cut) :
    ∃ ds s', receiveMessages mp ((WireFrame.complete cut fs).length + 1) s = some (ds, s') ∧
      ds.map Delivery.outcome =
        (WireFrame.complete cut fs).map WireFrame.outcome ++ [Delivery.failure s.nextLayer.error] ∧
      (∀ d ∈ ds, s'.Settled d) ∧ Continues s s' := by
  -- where no frame is complete, the first call fails
  have last {s s' : IprotoFraming}
      (h : s.receiveMessage mp = some ((s.nextLayer.error, ⟨{}, {}⟩), s')) (hc : Continues s s') :
      ∃ ds s', receiveMessages mp 1 s = some (ds, s') ∧
        ds.map Delivery.outcome = [Delivery.failure s.nextLayer.error] ∧ (∀ d ∈ ds, s'.Settled d) ∧
        Continues s s' := by
    refine ⟨[⟨s.nextLayer.error, ⟨{}, {}⟩, []⟩], s', ?_, rfl, ?_, hc⟩
    · simp [receiveMessages, h, view_empty]
    · intro d hd
      obtain rfl := List.mem_singleton.mp hd
      exact ⟨fun i hi ↦ (Option.some_ne_none i hi.symm).elim, rfl⟩
  induction fs generalizing s cut with
  | nil =>
      have hp : s.pending = [] := by simpa using h
      obtain ⟨s', hs', hc⟩ := receiveMessage_nil mp hp
      exact last hs' hc
  | cons f fs ih =>
      rw [WireFrame.complete]
      split_ifs with hcut
      · rw [List.flatMap_cons, List.take_append, List.take_of_length_le hcut] at h
        obtain ⟨frame, s₁, hs₁, hh, hf, hv, hp, hc₁⟩ := receiveMessage_spec f h
        obtain ⟨ds, s', hs', hds, hset, hc⟩ := ih (cut - f.bytes.length) s₁ hp
        rw [hc₁.error_eq] at hds
        refine ⟨⟨{}, frame, f.body⟩ :: ds, s', ?_, ?_, ?_, hc₁.trans hc⟩
        · rw [List.length_cons, receiveMessages, hs₁]
          simp [hs', hv]
        · rw [List.map_cons, List.map_cons, hds, List.cons_append, Delivery.outcome,
            WireFrame.outcome, hh]
        · intro d hd
          rcases List.mem_cons.mp hd with rfl | hd
          · exact Settled.keeps ⟨hf, hv⟩ hc.keeps
          · exact hset d hd
      · have hlt : cut < f.bytes.length := Nat.lt_of_not_le hcut
        rw [List.flatMap_cons, List.take_append_of_le_length (Nat.le_of_lt hlt)] at h
        obtain ⟨s', hs', hc⟩ := receiveMessage_short f hlt h
        exact last hs' hc

/-- Clearing forgets the bytes of the last connection and nothing else. -/
theorem pending_reconnect (s : IprotoFraming) (stream : AsyncReadStream) :
    (s.reconnect stream).pending = stream.segments.flatten := by
  obtain ⟨hu, -, -⟩ := s.buffer.clear_spec
  change s.buffer.clear.unread ++ stream.segments.flatten = _
  rw [hu, List.nil_append]

end

/-! ## All connections -/

section

variable {mp : Codec}

/-- The connections from any state on. -/
theorem receiveConnections_spec (cs : List (ServerConnection mp)) (s : IprotoFraming) :
    ∃ dss s', receiveConnections mp (cs.map fun c ↦ (c.stream, c.complete.length + 1)) s =
        some (dss, s') ∧
      dss.map (·.map Delivery.outcome) =
        cs.map (fun c ↦ c.complete.map WireFrame.outcome ++ [Delivery.failure c.stream.error]) ∧
      (∀ ds ∈ dss, ∀ d ∈ ds, s'.Settled d) ∧ s.buffer.Keeps s'.buffer := by
  induction cs generalizing s with
  | nil => exact ⟨[], s, rfl, rfl, fun ds hds ↦ absurd hds List.not_mem_nil, .refl _⟩
  | cons c cs ih =>
      obtain ⟨-, -, hk₀⟩ := s.buffer.clear_spec
      obtain ⟨ds, s₁, hs₁, hds, hset₁, hc₁⟩ := receiveMessages_spec c.frames c.cut
        (s.reconnect c.stream) (by rw [pending_reconnect, c.delivered])
      obtain ⟨dss, s', hs', hdss, hset, hk⟩ := ih s₁
      refine ⟨ds :: dss, s', ?_, ?_, ?_, hk₀.trans (hc₁.keeps.trans hk)⟩
      · rw [List.map_cons, receiveConnections]
        change receiveMessages mp (c.complete.length + 1) (s.reconnect c.stream) = _ at hs₁
        simp [hs₁, hs']
      · rw [List.map_cons, List.map_cons, hds, hdss]
        rfl
      · intro es hes d hd
        rcases List.mem_cons.mp hes with rfl | hes
        · exact (hset₁ d hd).keeps hk
        · exact hset es hes d hd

end

/-- However the bytes are delivered and wherever the connections are cut, the calls
on each connection deliver the frames of that connection that were complete, in
order, then its error; and every body still reads the same at the end. -/
theorem receive_reassembles (mp : Codec) (defaultLength : Nat) (stream : AsyncReadStream)
    (cs : List (ServerConnection mp)) :
    ∃ dss s', receiveConnections mp (cs.map fun c ↦ (c.stream, c.complete.length + 1))
        ⟨stream, MutableBuffer.new defaultLength⟩ = some (dss, s') ∧
      dss.map (·.map Delivery.outcome) =
        cs.map (fun c ↦ c.complete.map WireFrame.outcome ++ [Delivery.failure c.stream.error]) ∧
      ∀ ds ∈ dss, ∀ d ∈ ds, s'.buffer.view d.frame.body = d.body := by
  obtain ⟨dss, s', hs', hdss, hset, -⟩ :=
    receiveConnections_spec cs ⟨stream, MutableBuffer.new defaultLength⟩
  exact ⟨dss, s', hs', hdss, fun ds hds d hd ↦ (hset ds hds d hd).2⟩

end IprotoFraming

theorem length_emptyFrame (h : MessageHeader) :
    (packHeader .reference h ++ [0x80]).length < 2 ^ 32 := by
  have hle := length_packHeader_le Codec.reference_lawful h
  rw [List.length_append, List.length_singleton]
  omega

/-- A frame with an empty map behind its header. -/
def emptyFrame (h : MessageHeader) : WireFrame Codec.reference where
  head := packHeader .reference h
  body := [0x80]
  object := .map h.entries
  header := { requestType := h.requestType, sync := h.sync, streamId := h.streamId }
  unpack_eq := unpack_packHeader Codec.reference_lawful _ _
  convert_eq := convertHeader_entries _
  body_ne_nil := List.cons_ne_nil _ _
  length_lt := length_emptyFrame h

/-- The answers to two pings. -/
def pongs : List (WireFrame Codec.reference) :=
  [emptyFrame { requestType := 0, sync := 0 }, emptyFrame { requestType := 0, sync := 1 }]

theorem pongs_delivered :
    [[0xce, 0, 0, 0], [6, 0x82, 1, 0, 0, 0, 0x80, 0xce], [0, 0]].flatten =
      (pongs.flatMap WireFrame.bytes).take 14 := rfl

/-- A connection that is lost in the length of the second. -/
def pongConnection : ServerConnection Codec.reference where
  frames := pongs
  cut := 14
  stream := ⟨[[0xce, 0, 0, 0], [6, 0x82, 1, 0, 0, 0, 0x80, 0xce], [0, 0]], ⟨2, .asio⟩, failed_eof⟩
  delivered := pongs_delivered

-- nothing of the first connection is left for the second
example :
    (IprotoFraming.receiveConnections .reference
      ([pongConnection, pongConnection].map fun c ↦ (c.stream, c.complete.length + 1))
      ⟨pongConnection.stream, MutableBuffer.new 8⟩).map
        (fun r ↦ r.1.map fun ds ↦ ds.map Delivery.outcome) =
      some [[({}, { requestType := 0, sync := 0 }, [0x80]), Delivery.failure ⟨2, .asio⟩],
        [({}, { requestType := 0, sync := 0 }, [0x80]), Delivery.failure ⟨2, .asio⟩]] := by
  decide

end Tntpp
