import Tntpp.Box.Encoding
import Tntpp.Box.Select
import Tntpp.Box.Spaces
import Tntpp.Connector.Agreement
import Tntpp.Detail.Response

/-!
# Remote calls

The program as its callers see it: an operation is called with arguments, and what the
decoders of the frame give is what the server has computed from these arguments.  A server
is a function of the number and the body of a request; `Computes` is what it may answer,
whatever else it puts into the message.

Nothing is new here but the composition: what is sent is what was asked (`Asks.wireFrame`),
the answer that arrives belongs to the request (`Network.Sound.completed`), and it means
what the server meant by it (`Response.Means.gives`).
-/

namespace Tntpp

open MsgPack (Object Codec)

namespace Connector

open Transition World Network IprotoFrame

/-- What an operation asks a server: the number of the request, and its body.  A select
names no index, as the index is not sent. -/
inductive Asks (mp : Codec) : Operation → MpUint → Object → Prop where
  /-- An operation with a fixed number of fields. -/
  | request (r : Request) {op : Operation} (h : r.message mp op.id = .ok op.data) :
    Asks mp op r.type.value (.map r.entries)
  /-- A select. -/
  | select (p : SelectProgram) (hindex : p.givenIndex = none) {op : Operation}
    {packer : RequestPacker} (h : p.select mp op.id = some (.ok packer))
    (hdata : op.data = packer.stream) :
    Asks mp op RequestType.select.value (.map (entriesOf (SelectOption.sentFields p.calls p.space)))

/-- What is sent is what is asked. -/
theorem Asks.wireFrame {mp : Codec} (hmp : mp.Lawful) (hmap : mp.ReadsMap16) {op : Operation}
    {type : MpUint} {argument : Object} (h : Asks mp op type argument)
    (hlen : op.data.length < 2 ^ 32 + 5) :
    ∃ f : WireFrame mp, f.bytes = op.data ∧ f.header.requestType = type ∧
      mp.unpack f.body = some (argument, f.body.length) := by
  have hpayload {payload : List UInt8}
      (hdata : op.data = 0xce :: (BigEndian.bytes 4 payload.length ++ payload)) :
      payload.length < 2 ^ 32 := by
    rw [hdata, List.length_cons, List.length_append, BigEndian.length_bytes] at hlen
    omega
  cases h with
  | request r h =>
      have hdata := Except.ok.inj (h.symm.trans (r.message_eq_payload hmp op.id))
      have hlt := hpayload hdata
      refine ⟨r.wireFrame hmp op.id hlt, hdata.symm, rfl, hmp.unpack_pack_self ?_⟩
      refine Nat.lt_of_le_of_lt ?_ hlt
      rw [Request.payload, List.length_append]
      exact Nat.le_add_left _ _
  | select p hindex h hdata =>
      obtain ⟨packer', h', hstream⟩ := p.select_stream mp op.id
      cases h.symm.trans h'
      have hlt := hpayload (hdata.trans hstream)
      obtain ⟨frame, s, -, -, -, hview, hunpack⟩ :=
        p.receive_sent hmp hmap op.id hlt hstream
          ((IprotoFraming.pending_ofBytes _).trans (List.append_nil _).symm)
      refine ⟨p.wireFrame hmp op.id hlt, (hdata.trans hstream).symm, rfl, ?_⟩
      rw [hview] at hunpack
      exact hunpack

/-- What a server may answer to a request: a message with the identifier of the request,
and with what `serve` computes for it, if anything. -/
def Computes {mp : Codec} (serve : MpUint → Object → Option Outcome) (r : Received)
    (reply : WireFrame mp) : Prop :=
  reply.header.sync = r.1.sync ∧
    ∀ argument outcome, mp.unpack r.2 = some (argument, r.2.length) →
      serve r.1.requestType argument = some outcome →
        ∃ response : Response, response.Means outcome ∧ (∀ kv ∈ response.header, HeaderEntry kv) ∧
          (response.payload mp).length < 2 ^ 32 ∧ reply.bytes = response.bytes mp

/-- In every run of a connector and a server that computes `serve`, whatever the order of
their steps and however often the connection is lost, where requests are sent in time: if the
handler of an operation is called with success, every decoder of the frame gives what the
server computes from the arguments of that very operation. -/
theorem served {env : Environment} (hmp : env.mp.Lawful) (hmap : env.mp.ReadsMap16)
    (framing : IprotoFraming) (hframing : framing.pending = [])
    (serve : MpUint → Object → Option Outcome) {es : List (Network.Event env.mp)} {n : Network}
    (hrun : exec (Network.step env) (Network.init env framing) es = some n)
    (hsent : Meets (Network.step env) (SentInTime env) (Network.init env framing) es)
    (hhonest : Meets (Network.step env) (Honest (Computes serve)) (Network.init env framing) es)
    (hids : (n.world.issued.map Operation.id).Nodup)
    (hapi : ∀ request ∈ n.world.issued,
      FromApi env.mp request ∧ request.data.length < 2 ^ 32 + 5) :
    ∀ h ec frame, .completed h ec frame ∈ n.world.ledger.entries → ec.failed = false →
      ∃ request, n.world.issued[h]? = some request ∧
        ∀ type argument outcome, Asks env.mp request type argument →
          serve type argument = some outcome →
            ∀ (τ : Type) (convert : Object → τ → Except τ τ) (default v : τ),
              Gives env.mp convert default v frame outcome := by
  intro h ec frame hmem hec
  have hframes : ∀ request ∈ n.world.issued, IsFrame env.mp request := fun request hr ↦
    (hapi request hr).1.isFrame hmp (hapi request hr).2
  have hecho : EchoesSync (@Computes env.mp serve) := fun _ _ hanswers ↦ hanswers.1
  have hsound := sound_of_exec hecho hrun hsent hhonest hframing hids hframes
  obtain ⟨request, hrequest, asked, reply, hasked, ⟨-, hcomputes⟩, rfl⟩ :=
    hsound.completed hecho hids hframes hmem hec
  refine ⟨request, hrequest, fun type argument outcome hasks hserve τ convert default v ↦ ?_⟩
  obtain ⟨f, hf, htype, hunpack⟩ :=
    hasks.wireFrame hmp hmap (hapi request (List.mem_of_getElem? hrequest)).2
  have hsame : asked.bytes ++ [] = f.bytes ++ [] := by rw [hasked, hf]
  obtain ⟨hheader, hbody, -⟩ := WireFrame.eq_of_append hsame
  rw [hheader, hbody] at hcomputes
  obtain ⟨response, hmeans, hentries, hlen, hbytes⟩ :=
    hcomputes argument outcome hunpack (htype ▸ hserve)
  have hreply : reply.bytes ++ [] = (response.wireFrame hmp hentries hlen).bytes ++ [] := by
    rw [hbytes]
    rfl
  obtain ⟨hreplyHeader, hreplyBody, -⟩ := WireFrame.eq_of_append hreply
  exact hmeans.gives hmp hlen hreplyHeader hreplyBody convert default v

/-! ## A server to call -/

/-- A server that returns what it is given. -/
def echo (_ : MpUint) (argument : Object) : Option Outcome := some (.data argument)

/-- The call of `f` with the argument `1`. -/
def callF : Request := .call [0x66] (.array [.uint 1])

theorem callF_asked : (callF.payload .reference 0).length < 2 ^ 32 := by decide

/-- Its request, as the server reads it. -/
def callAsked : WireFrame Codec.reference := callF.wireFrame Codec.reference_lawful 0 callF_asked

/-- The answer, with an entry of the body the decoders do not read. -/
def callAnswer : Response :=
  ⟨[(.uint 0, .uint 0), (.uint 1, .uint 0)], [(.uint 0x32, .nil), (.uint 0x30, .map callF.entries)]⟩

theorem callAnswer_header : ∀ kv ∈ callAnswer.header, HeaderEntry kv :=
  List.forall_mem_cons.mpr ⟨⟨.requestType, rfl, fun _ ↦ ⟨_, rfl⟩⟩,
    List.forall_mem_singleton.mpr ⟨.sync, rfl, fun _ ↦ ⟨_, rfl⟩⟩⟩

theorem callAnswer_length : (callAnswer.payload .reference).length < 2 ^ 32 := by decide

/-- The answer on the wire. -/
def callAnswered : WireFrame Codec.reference :=
  callAnswer.wireFrame Codec.reference_lawful callAnswer_header callAnswer_length

theorem computes_echo {reply : WireFrame Codec.reference} (hsync : reply.header.sync = 0)
    (hbytes : reply.bytes = callAnswered.bytes) :
    Computes echo (callAsked.header, callAsked.body) reply := by
  refine ⟨hsync, fun argument outcome hunpack hserve ↦ ?_⟩
  have hself := Codec.reference_lawful.unpack_pack_self (o := .map callF.entries) (by decide)
  cases hself.symm.trans hunpack
  cases hserve
  exact ⟨callAnswer, .data rfl rfl rfl, callAnswer_header, callAnswer_length, hbytes⟩

/-- A call, and its answer in two portions. -/
def calledNetwork : List (Network.Event Environment.plain.mp) :=
  [.client .start, .client .generateId,
    .client (.send ⟨0, (call .reference 0 [0x66] (.array [.uint 1])).stream⟩), .take callAsked,
    .answer callAnswered, .receive [callAnswered.bytes.take 9, callAnswered.bytes.drop 9]]

/-- The caller gets its own call back. -/
theorem served_calledNetwork :
    ∃ n, exec (Network.step .plain) (Network.init .plain quietFraming) calledNetwork = some n ∧
      ∃ frame, .completed 0 {} frame ∈ n.world.ledger.entries ∧
        Gives .reference (fun o _ ↦ .ok o) Object.nil .nil frame (.data (.map callF.entries)) := by
  have hsome : (exec (Network.step .plain) (Network.init .plain quietFraming)
      calledNetwork).isSome = true := by decide +kernel
  obtain ⟨n, hrun⟩ := Option.isSome_iff_exists.mp hsome
  have hend : (exec (Network.step .plain) (Network.init .plain quietFraming) calledNetwork).map
      (fun n ↦ (n.world.issued, n.world.ledger.entries.head?)) =
        some ([⟨0, (call .reference 0 [0x66] (.array [.uint 1])).stream⟩],
          some (.completed 0 {} ⟨callAnswered.header, callAnswered.body⟩)) := by decide +kernel
  rw [hrun, Option.map_some, Option.some_inj, Prod.mk.injEq] at hend
  obtain ⟨hissued, hentry⟩ := hend
  have hhonest : Meets (Network.step .plain) (Honest (Computes echo))
      (Network.init .plain quietFraming) calledNetwork := by
    refine Meets.mono (G := Honest fun r reply ↦ r = (callAsked.header, callAsked.body) ∧
      reply.header.sync = 0 ∧ reply.bytes = callAnswered.bytes) ?_ (by decide +kernel)
    rintro n (_ | _ | _ | _) h
    case answer reply =>
      obtain ⟨r, hr, rfl, hsync, hbytes⟩ := h
      exact ⟨_, hr, computes_echo hsync hbytes⟩
    all_goals trivial
  have hsent : Meets (Network.step .plain) (SentInTime .plain) (Network.init .plain quietFraming)
      calledNetwork := by decide +kernel
  have hids : (n.world.issued.map Operation.id).Nodup := by
    rw [hissued]
    exact List.nodup_singleton 0
  have hapi : ∀ request ∈ n.world.issued,
      FromApi Codec.reference request ∧ request.data.length < 2 ^ 32 + 5 := by
    rw [hissued]
    exact List.forall_mem_singleton.mpr ⟨⟨.call _ _, 0, _, rfl, rfl⟩, by decide⟩
  have hmem := List.mem_of_head? hentry
  obtain ⟨request, hrequest, hgives⟩ := @served .plain Codec.reference_lawful
    Codec.reference_readsMap16 quietFraming rfl echo _ n hrun hsent hhonest hids hapi 0 {} _ hmem
    rfl
  rw [hissued] at hrequest
  cases hrequest
  exact ⟨n, hrun, _, hmem, hgives _ _ _ (.request callF rfl) rfl Object _ _ _⟩

end Connector

end Tntpp
