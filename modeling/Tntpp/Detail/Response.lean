import Tntpp.Detail.Decoders
import Tntpp.Detail.MessageLength
import Tntpp.Detail.Reassembly

/-!
# Responses

What a caller gets out of a response.  A `Response` is the two maps a server sends, and an
`Outcome` what it means by them: a value under `Data`, or the number and the text of an
error.  `response_roundTrip` takes a response off the wire and through the decoders of the
frame, which give back that outcome: the value through the adaptor of the result type, or
the error code and the error string.
-/

namespace Tntpp

open BigEndian
open MsgPack (Object Codec)

/-- What a server says to a request. -/
inductive Outcome where
  /-- The value of the call. -/
  | data (val : Object)
  /-- The number of an error, and its text. -/
  | error (number : MpUint) (message : List UInt8)

/-- A message of a server, before it is packed. -/
structure Response where
  /-- The entries of the header. -/
  header : List (Object × Object)
  /-- The entries of the body. -/
  body : List (Object × Object)

namespace Response

/-- The payload of a response. -/
def payload (mp : Codec) (r : Response) : List UInt8 :=
  mp.pack (.map r.header) ++ mp.pack (.map r.body)

/-- A response on the wire. -/
def bytes (mp : Codec) (r : Response) : List UInt8 :=
  0xce :: (BigEndian.bytes 4 (r.payload mp).length ++ r.payload mp)

/-- What a response means.  Other entries may stand in front of the one that matters, under
keys that are non-negative numbers, and any entries behind it. -/
inductive Means (r : Response) : Outcome → Prop where
  /-- A success, with a value. -/
  | data {val : Object} (htype : lastNumber .requestType r.header = some RequestType.ok.value)
    (hlead : leadingUint .data r.body = true) (hfirst : firstValue .data r.body = some val) :
    Means r (.data val)
  /-- An error the client knows, with a text. -/
  | error {number : MpUint} {message : List UInt8}
    (htype : lastNumber .requestType r.header = some (RequestType.typeErrorBegin.value + number))
    (hlo : 1 ≤ number.toNat) (hhi : number.toNat ≤ 280)
    (hlead : leadingUint .error24 r.body = true)
    (hfirst : firstValue .error24 r.body = some (.str message)) : Means r (.error number message)

/-- A response as a frame on the wire. -/
def wireFrame {mp : Codec} (hmp : mp.Lawful) (r : Response)
    (hheader : ∀ kv ∈ r.header, HeaderEntry kv)
    (hlen : (r.payload mp).length < 2 ^ 32) : WireFrame mp where
  head := mp.pack (.map r.header)
  body := mp.pack (.map r.body)
  object := .map r.header
  header := headerOf r.header
  unpack_eq := hmp.unpack_pack _ _ <| by
    rw [payload, List.length_append] at hlen
    exact Nat.lt_of_le_of_lt (Nat.le_add_right _ _) hlen
  convert_eq := convertHeader_map_eq_some_iff.mpr ⟨hheader, rfl⟩
  body_ne_nil := hmp.pack_ne_nil _
  length_lt := hlen

end Response

namespace IprotoFrame

variable {τ : Type}

/-- The tuple a conversion leaves, and its error code. -/
def converted : Except τ τ → τ × ErrorCode
  | .ok t => (t, {})
  | .error w => (w, Errc.protocolError.code)

/-- The functions of a frame give an outcome.  `convert val v` is the adaptor of the result
type, which writes into a tuple that holds `v`; a conversion that fails leaves what it has
written in the tuple of the caller. -/
def Gives (mp : Codec) (convert : Object → τ → Except τ τ) (default v : τ)
    (f : IprotoFrame (List UInt8)) : Outcome → Prop
  | .data val => f.isError = false ∧
      as mp convert default f = (convert val default).mapError (fun _ ↦ .typeError) ∧
      asEc mp convert default f {} =
        .ok (converted ((convert val default).mapError fun _ ↦ default)) ∧
      asInto mp convert f v = (convert val v).mapError (.typeError, ·) ∧
      asIntoEc mp convert f v {} = .ok (converted (convert val v))
  | .error number message => f.isError = true ∧
      f.getErrorCode = ⟨number.toNat, .tarantool⟩ ∧ f.getErrorCode.failed = true ∧
      getErrorString mp f = .ok message ∧
      as mp convert default f = .error (.systemError f.getErrorCode) ∧
      asEc mp convert default f {} = .ok (default, f.getErrorCode) ∧
      asInto mp convert f v = .error (.systemError f.getErrorCode, v) ∧
      asIntoEc mp convert f v {} = .ok (v, f.getErrorCode)

variable {mp : Codec} {f : IprotoFrame (List UInt8)}

theorem gives_data (h : f.isError = false) {val : Object} (hdata : HasData mp f.body val)
    (convert : Object → τ → Except τ τ) (default v : τ) :
    Gives mp convert default v f (.data val) := by
  have hinto (u : τ) : asInto mp convert f u = (convert val u).mapError (.typeError, ·) :=
    asInto_of_hasData h hdata u
  have has : as mp convert default f = (convert val default).mapError (fun _ ↦ .typeError) := by
    rw [as, hinto]
    cases convert val default <;> rfl
  refine ⟨h, has, ?_, hinto v, ?_⟩
  · rw [asEc, has, h, if_neg Bool.false_ne_true]
    cases convert val default <;> rfl
  · rw [asIntoEc, hinto, h, if_neg Bool.false_ne_true]
    cases convert val v <;> rfl

theorem gives_error {number : MpUint} {message : List UInt8}
    (htype : f.header.requestType = RequestType.typeErrorBegin.value + number)
    (hlo : 1 ≤ number.toNat) (hhi : number.toNat ≤ 280) {kvs : List (Object × Object)}
    {offset : Nat}
    (hunpack : mp.unpack f.body = some (.map kvs, offset))
    (hlead : leadingUint .error24 kvs = true)
    (hfirst : firstValue .error24 kvs = some (.str message))
    (convert : Object → τ → Except τ τ) (default v : τ) :
    Gives mp convert default v f (.error number message) := by
  have hnat : f.header.requestType.toNat = 0x8000 + number.toNat := by
    rw [htype, UInt64.toNat_add, RequestType.value]
    have hbegin : (0x8000 : UInt64).toNat = 0x8000 := rfl
    rw [hbegin]
    omega
  have herror : f.isError = true := by
    rw [isError, MessageHeader.isError_iff, hnat]
    omega
  have hcode : f.getErrorCode = ⟨number.toNat, .tarantool⟩ := by
    have hvalue := MessageHeader.value_getErrorCode herror
    have hcategory : f.header.getErrorCode.category = .tarantool := by
      have herror' : f.header.isError = true := herror
      rw [MessageHeader.getErrorCode, if_pos herror']
    rw [hnat, if_pos (by omega), Nat.add_sub_cancel_left] at hvalue
    rw [getErrorCode_of_isError herror, ← hvalue, ← hcategory]
  refine ⟨herror, hcode, ?_, ?_, as_of_isError herror _, asEc_of_isError herror _ _,
    asInto_of_isError herror _, asIntoEc_of_isError herror _ _⟩
  · rw [hcode, ErrorCode.failed_iff]
    dsimp only
    omega
  · rw [getErrorString, if_pos herror, hunpack]
    dsimp only
    rw [findErrorString_eq, if_pos hlead, hfirst]
    rfl

end IprotoFrame

open IprotoFrame

/-- The frame of a response gives what the response means. -/
theorem Response.Means.gives {mp : Codec} (hmp : mp.Lawful) {r : Response} {outcome : Outcome}
    (hmeans : r.Means outcome) (hlen : (r.payload mp).length < 2 ^ 32)
    {f : IprotoFrame (List UInt8)} (hheader : f.header = headerOf r.header)
    (hbody : f.body = mp.pack (.map r.body)) {τ : Type} (convert : Object → τ → Except τ τ)
    (default v : τ) : Gives mp convert default v f outcome := by
  have hunpack : mp.unpack f.body = some (.map r.body, (mp.pack (.map r.body)).length) := by
    rw [payload, List.length_append] at hlen
    rw [hbody]
    exact hmp.unpack_pack_self (Nat.lt_of_le_of_lt (Nat.le_add_left _ _) hlen)
  cases hmeans with
  | data htype hlead hfirst =>
      refine gives_data ?_ ⟨r.body, _, hunpack, hlead, hfirst⟩ convert default v
      have hok : f.header.requestType = RequestType.ok.value := by
        rw [hheader, headerOf, htype]
        rfl
      rw [isError, MessageHeader.isError, hok]
      rfl
  | error htype hlo hhi hlead hfirst =>
      refine gives_error ?_ hlo hhi hunpack hlead hfirst convert default v
      rw [hheader, headerOf, htype]
      rfl

/-- What a server says is what a caller gets.  A response that means an outcome is received
as a frame, whatever is in front of it in the buffer and behind it on the wire; and every
function of the frame gives that outcome, for every result type. -/
theorem response_roundTrip {mp : Codec} (hmp : mp.Lawful) (r : Response) (outcome : Outcome)
    (hmeans : r.Means outcome) (hheader : ∀ kv ∈ r.header, HeaderEntry kv)
    (hlen : (r.payload mp).length < 2 ^ 32) (s : IprotoFraming) (rest : List UInt8)
    (hs : s.pending = r.bytes mp ++ rest) :
    ∃ frame s', s.receiveMessage mp = some (({}, frame), s') ∧ s'.pending = rest ∧
      (frame.load s'.buffer).header = headerOf r.header ∧
      ∀ (τ : Type) (convert : Object → τ → Except τ τ) (default v : τ),
        Gives mp convert default v (frame.load s'.buffer) outcome := by
  obtain ⟨frame, s', hs', hh, -, hview, hpending, -⟩ :=
    IprotoFraming.receiveMessage_spec (r.wireFrame hmp hheader hlen) hs
  refine ⟨frame, s', hs', hpending, hh, fun τ convert default v ↦ ?_⟩
  exact hmeans.gives hmp hlen hh hview convert default v

/-- The result `[7]` of a call, in a frame with a schema version and behind a field the
decoders do not read. -/
theorem response_roundTrip_seven :
    ∃ frame s',
      (IprotoFraming.ofBytes (Response.bytes .reference
        ⟨[(.uint 0, .uint 0), (.uint 1, .uint 3), (.uint 5, .uint 80)],
          [(.uint 0x32, .nil), (.uint 0x30, .array [.uint 7])]⟩)).receiveMessage .reference =
        some (({}, frame), s') ∧
      Gives .reference oneNumber 0 5 (frame.load s'.buffer) (.data (.array [.uint 7])) := by
  have hheader : ∀ kv ∈ [(Object.uint 0, Object.uint 0), (.uint 1, .uint 3), (.uint 5, .uint 80)],
      HeaderEntry kv := by
    refine List.forall_mem_cons.mpr ⟨⟨.requestType, rfl, fun _ ↦ ⟨_, rfl⟩⟩, ?_⟩
    refine List.forall_mem_cons.mpr ⟨⟨.sync, rfl, fun _ ↦ ⟨_, rfl⟩⟩, ?_⟩
    exact List.forall_mem_singleton.mpr ⟨.schemaVersion, rfl, fun _ ↦ ⟨_, rfl⟩⟩
  obtain ⟨frame, s', hs', -, -, hgives⟩ := response_roundTrip Codec.reference_lawful
    ⟨[(.uint 0, .uint 0), (.uint 1, .uint 3), (.uint 5, .uint 80)],
      [(.uint 0x32, .nil), (.uint 0x30, .array [.uint 7])]⟩ (.data (.array [.uint 7]))
    (.data rfl rfl rfl) hheader (by decide) (IprotoFraming.ofBytes _) []
    (by rw [IprotoFraming.pending_ofBytes, List.append_nil])
  exact ⟨frame, s', hs', hgives _ oneNumber 0 5⟩

/-- The adaptor of a tuple with two numbers. -/
def twoNumbers : Object → MpUint × MpUint → Except (MpUint × MpUint) (MpUint × MpUint)
  | .array (.uint n :: .uint m :: _), _ => .ok (n, m)
  | .array (.uint n :: _ :: _), (_, m) => .error (n, m)
  | .array [.uint n], (_, m) => .ok (n, m)
  | .array [], v => .ok v
  | _, v => .error v

-- the first number is written before the second entry, a string, is found to be none
example : asIntoEc .reference twoNumbers (reply [0x81, 0x30, 0x92, 0x07, 0xa1, 0x61]) (5, 9) {} =
    .ok ((7, 9), Errc.protocolError.code) := rfl

end Tntpp
