import Tntpp.Detail.LengthRejection

/-!
# Payloads

What `receive_message` makes of the bytes behind a length prefix, whatever they are.
`receiveMessage_eq` is its second half as a function of these bytes: unpacking them and
converting what was unpacked each have an error code of their own, and what is left is
the slice behind the header.
-/

namespace Tntpp

open MsgPack (Object Codec)

namespace IprotoFraming

variable {mp : Codec} {s : IprotoFraming} {n : SizeType} {following : List UInt8}

/-- What becomes of a payload that was received. -/
def ofPayload (mp : Codec) (payload : List UInt8) (msgBody : FrozenBuffer) (s : IprotoFraming) :
    Option ((ErrorCode × IprotoFrame FrozenBuffer) × IprotoFraming) :=
  match mp.unpack payload with
  | none => some ((Errc.stateNotRecoverable.code, ⟨{}, {}⟩), s)
  | some (object, offset) =>
      match convertHeader object with
      | none => some ((Errc.illegalByteSequence.code, ⟨{}, {}⟩), s)
      | some header => (msgBody.slice offset).map fun body ↦ (({}, ⟨header, body⟩), s)

/-- Behind a length that can be read and is there, the payload is received and decoded. -/
theorem receiveMessage_eq (mp : Codec) (h : s.ReadsLength n following)
    (hn : n.toNat ≤ following.length) :
    ∃ msgBody s', s.receiveMessage mp = ofPayload mp (following.take n.toNat) msgBody s' ∧
      msgBody.size = n.toNat ∧ s'.buffer.view msgBody = following.take n.toNat ∧
      s'.pending = following.drop n.toNat := by
  obtain ⟨s₁, hs₁, hp₁, -⟩ := h
  rw [← hp₁] at hn
  obtain ⟨msgBody, s₂, hs₂, hsize, -, hv, hp₂, -⟩ := transferExactly_spec hn
  rw [hp₁] at hv hp₂
  refine ⟨msgBody, s₂, ?_, hsize, hv, hp₂⟩
  simp only [receiveMessage, hs₁, hs₂, bind, pure, Option.bind_some, ErrorCode.failed_default,
    Bool.false_eq_true, if_false, hv, ofPayload]
  rcases mp.unpack (following.take n.toNat) with _ | ⟨object, offset⟩
  · rfl
  · dsimp only
    cases convertHeader object with
    | none => rfl
    | some header =>
        dsimp only
        cases msgBody.slice offset with
        | none => rfl
        | some body => rfl

/-- Behind a length that can be read, a payload that is cut short is an error. -/
theorem receiveMessage_of_lt (mp : Codec) (h : s.ReadsLength n following)
    (hn : following.length < n.toNat) :
    ∃ ec s', s.receiveMessage mp = some ((ec, ⟨{}, {}⟩), s') ∧ ec.failed = true := by
  obtain ⟨s₁, hs₁, hp₁, -⟩ := h
  rw [← hp₁] at hn
  obtain ⟨s₂, hs₂, -⟩ := transferExactly_short hn
  refine ⟨s₁.nextLayer.error, s₂, ?_, s₁.nextLayer.failed_error⟩
  simp [receiveMessage, hs₁, hs₂, s₁.nextLayer.failed_error]

/-! ## Header maps -/

/-- A payload starts with a header map, which takes `offset` bytes. -/
structure StartsWithHeader (mp : Codec) (payload : List UInt8) (kvs : List (Object × Object))
    (offset : Nat) : Prop where
  /-- It starts with a map. -/
  unpack_eq : mp.unpack payload = some (.map kvs, offset)
  /-- The entries of the map are those of a header. -/
  entries : ∀ kv ∈ kvs, HeaderEntry kv

section

variable {payload : List UInt8} (msgBody : FrozenBuffer)

/-- The body of a payload that starts with a header is what follows it. -/
theorem StartsWithHeader.ofPayload_eq {kvs : List (Object × Object)} {offset : Nat}
    (h : StartsWithHeader mp payload kvs offset) (s : IprotoFraming) :
    ofPayload mp payload msgBody s =
      (msgBody.slice offset).map fun body ↦ (({}, ⟨headerOf kvs, body⟩), s) := by
  have hconvert : convertHeader (.map kvs) = some (headerOf kvs) :=
    convertHeader_map_eq_some_iff.mpr ⟨h.entries, rfl⟩
  rw [ofPayload, h.unpack_eq]
  dsimp only
  rw [hconvert]

/-- Any other payload is an error. -/
theorem ofPayload_of_not_startsWithHeader
    (h : ∀ kvs offset, ¬ StartsWithHeader mp payload kvs offset) (s : IprotoFraming) :
    ∃ ec, ofPayload mp payload msgBody s = some ((ec, ⟨{}, {}⟩), s) ∧ ec.failed = true := by
  rw [ofPayload]
  rcases hunpack : mp.unpack payload with _ | ⟨object, offset⟩
  · exact ⟨_, rfl, rfl⟩
  · dsimp only
    cases hconvert : convertHeader object with
    | none => exact ⟨_, rfl, rfl⟩
    | some header =>
        exfalso
        cases object with
        | map kvs =>
            have hentries := (convertHeader_map_eq_some_iff.mp hconvert).1
            exact h kvs offset ⟨hunpack, hentries⟩
        | _ => cases hconvert

end

/-- The body of a frame is the end of a payload. -/
theorem view_body_of_receiveMessage (h : s.ReadsLength n following)
    {frame : IprotoFrame FrozenBuffer} {s' : IprotoFraming}
    (hs' : s.receiveMessage mp = some (({}, frame), s')) :
    ∃ offset, s'.buffer.view frame.body = (following.take n.toNat).drop offset := by
  rcases Nat.lt_or_ge following.length n.toNat with hn | hn
  · obtain ⟨ec, s₁, hs₁, hec⟩ := receiveMessage_of_lt mp h hn
    cases hs'.symm.trans hs₁
    cases hec
  obtain ⟨msgBody, s₁, hs₁, hsize, hv, -⟩ := receiveMessage_eq mp h hn
  rw [hs₁] at hs'
  by_cases hnot : ∀ kvs offset, ¬ StartsWithHeader mp (following.take n.toNat) kvs offset
  · obtain ⟨ec, hec, hfailed⟩ := ofPayload_of_not_startsWithHeader msgBody hnot s₁
    cases hs'.symm.trans hec
    cases hfailed
  · push Not at hnot
    obtain ⟨kvs, offset, hstarts⟩ := hnot
    rw [hstarts.ofPayload_eq] at hs'
    obtain ⟨body, hbody, heq⟩ := Option.map_eq_some_iff.mp hs'
    cases heq
    have hoffset : offset < msgBody.size := by
      by_contra hle
      cases hbody.symm.trans (if_neg hle)
    obtain ⟨body', hbody', -, hview, -⟩ := FrozenBuffer.slice_spec hoffset s'.buffer
    cases hbody.symm.trans hbody'
    refine ⟨offset, ?_⟩
    rw [hview, hv]

/-! ## All payloads -/

/-- What `receive_message` should do with the bytes behind a length prefix: complete, and
with a frame if a whole payload is there that starts with a header map.  Its body is then
the rest of the payload. -/
structure DecodesPayload (mp : Codec) (s : IprotoFraming) (n : SizeType) (following : List UInt8) :
    Prop where
  /-- The call completes. -/
  completes : ∃ r, s.receiveMessage mp = some r
  /-- With a frame, if there is one. -/
  frame : n.toNat ≤ following.length → ∀ kvs offset,
    StartsWithHeader mp (following.take n.toNat) kvs offset →
    ∃ frame s', s.receiveMessage mp = some (({}, frame), s') ∧ frame.header = headerOf kvs ∧
      s'.buffer.view frame.body = (following.take n.toNat).drop offset ∧
      s'.pending = following.drop n.toNat

/-- A payload is decoded as it should be if and only if there is a byte behind its header
map, if it has one. -/
theorem decodesPayload_iff (mp : Codec) (s : IprotoFraming) (n : SizeType)
    (following : List UInt8) (h : s.ReadsLength n following) :
    s.DecodesPayload mp n following ↔
      (n.toNat ≤ following.length → ∀ kvs offset,
        StartsWithHeader mp (following.take n.toNat) kvs offset → offset < n.toNat) := by
  rcases Nat.lt_or_ge following.length n.toNat with hn | hn
  · obtain ⟨ec, s', hs', -⟩ := receiveMessage_of_lt mp h hn
    refine iff_of_true ⟨⟨_, hs'⟩, ?_⟩ ?_
    · exact fun hle ↦ absurd hn (Nat.not_lt_of_le hle)
    · exact fun hle ↦ absurd hn (Nat.not_lt_of_le hle)
  obtain ⟨msgBody, s', hs', hsize, hv, hp⟩ := receiveMessage_eq mp h hn
  constructor
  · rintro ⟨⟨r, hr⟩, -⟩ - kvs offset hstarts
    by_contra hle
    have hnone : msgBody.slice offset = none := if_neg (hsize ▸ hle)
    rw [hs', hstarts.ofPayload_eq, hnone] at hr
    cases hr
  · intro hlt
    constructor
    · rw [hs']
      by_cases hnot : ∀ kvs offset, ¬ StartsWithHeader mp (following.take n.toNat) kvs offset
      · obtain ⟨ec, hec, -⟩ := ofPayload_of_not_startsWithHeader msgBody hnot s'
        exact ⟨_, hec⟩
      · push Not at hnot
        obtain ⟨kvs, offset, hstarts⟩ := hnot
        have hoffset := hlt hn kvs offset hstarts
        obtain ⟨body, hbody, -⟩ := FrozenBuffer.slice_spec (hsize ▸ hoffset) s'.buffer
        rw [hstarts.ofPayload_eq, hbody]
        exact ⟨_, rfl⟩
    · rintro - kvs offset hstarts
      have hoffset := hlt hn kvs offset hstarts
      obtain ⟨body, hbody, -, hview, -⟩ := FrozenBuffer.slice_spec (hsize ▸ hoffset) s'.buffer
      refine ⟨⟨headerOf kvs, body⟩, s', ?_, rfl, ?_, hp⟩
      · rw [hs', hstarts.ofPayload_eq, hbody]
        rfl
      · rw [hview, hv]

/-- A header map of three bytes, and a body of one. -/
theorem decodesPayload_four : (ofBytes [0xce, 0, 0, 0, 4, 0x81, 0, 0, 0x80]).DecodesPayload
    Codec.reference 4 [0x81, 0, 0, 0x80] := by
  have hlength : (ofBytes [0xce, 0, 0, 0, 4, 0x81, 0, 0, 0x80]).ReadsLength 4
      [0x81, 0, 0, 0x80] := (readsLength_iff .uint32 4 (by decide) _ _ rfl).mpr (by decide)
  have hunpack : Codec.reference.unpack [0x81, 0, 0, 0x80] =
      some (.map [(.uint 0, .uint 0)], 3) := rfl
  refine (decodesPayload_iff Codec.reference _ 4 _ hlength).mpr ?_
  rintro - kvs offset ⟨h, -⟩
  cases hunpack.symm.trans h
  decide

/-- The same header map and no body: the payload of a reply that has none. -/
theorem header_without_body :
    (ofBytes [0xce, 0, 0, 0, 3, 0x81, 0, 0]).ReadsLength 3 [0x81, 0, 0] ∧
      (ofBytes [0xce, 0, 0, 0, 3, 0x81, 0, 0]).receiveMessage Codec.reference = none ∧
      ¬ (ofBytes [0xce, 0, 0, 0, 3, 0x81, 0, 0]).DecodesPayload Codec.reference 3 [0x81, 0, 0] := by
  have hnone : (ofBytes [0xce, 0, 0, 0, 3, 0x81, 0, 0]).receiveMessage Codec.reference = none := rfl
  refine ⟨(readsLength_iff .uint32 3 (by decide) _ _ rfl).mpr (by decide), hnone, ?_⟩
  rintro ⟨⟨r, hr⟩, -⟩
  cases hnone.symm.trans hr

end IprotoFraming

end Tntpp
