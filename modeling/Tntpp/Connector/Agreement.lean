import Tntpp.Connector.Delivery

/-!
# Agreement

What a connector and a server come to for a caller.  The server is honest: it answers the
requests it has taken off the current connection, in any order, any number of times or
never, and sends nothing else.  Then what is on its way to the receive loop is a list of
whole answers, `Sound.flight`, to requests the server has read, so that none is released
too early, `Sound.repliesRead`; and a handler that is called with success is called with the
header and the body of an answer to the very request of the handler: `agreement`.
-/

namespace Tntpp

open MsgPack (Codec)

namespace Connector

open Transition World

namespace Network

variable {mp : Codec}

/-- The server answers what it has been asked, and nothing else; `answers` is what it may
answer to a request. -/
def Honest (answers : Received → WireFrame mp → Prop) (n : Network) : Event mp → Prop
  | .answer reply => ∃ request ∈ n.requests, answers request reply
  | .client _ | .take _ | .receive _ => True

instance {answers : Received → WireFrame mp → Prop} [∀ r reply, Decidable (answers r reply)]
    (n : Network) : ∀ e, Decidable (Honest answers n e)
  | .answer reply => inferInstanceAs (Decidable (∃ request ∈ n.requests, answers request reply))
  | .client _ | .take _ | .receive _ => .isTrue trivial

/-! ## The invariant -/

/-- What a server has read is a request of the connector. -/
def Asked (mp : Codec) (w : World) (r : Received) : Prop :=
  ∃ request ∈ w.issued, ReadFrom mp request.data r

/-- A message answers a request of the connector. -/
def Answered (answers : Received → WireFrame mp → Prop) (w : World) (reply : WireFrame mp) : Prop :=
  ∃ r, Asked mp w r ∧ answers r reply

theorem Asked.mono {w w' : World} (h : w.issued <+: w'.issued) {r : Received} (hr : Asked mp w r) :
    Asked mp w' r := by
  obtain ⟨request, hmem, hread⟩ := hr
  exact ⟨request, h.subset hmem, hread⟩

theorem Answered.mono {answers : Received → WireFrame mp → Prop} {w w' : World}
    (h : w.issued <+: w'.issued) {reply : WireFrame mp} (hr : Answered answers w reply) :
    Answered answers w' reply := by
  obtain ⟨r, hasked, hanswers⟩ := hr
  exact ⟨r, hasked.mono h, hanswers⟩

/-- What every run of a network with an honest server keeps. -/
structure Sound (env : Environment) (answers : Received → WireFrame env.mp → Prop) (n : Network) :
    Prop where
  /-- The connector has run, and every message it has received is an answer. -/
  run : ∃ es, exec (Connector.step env) (World.init env) es = some n.world ∧
    ∀ ec frame, .received ec frame ∈ es → ec.failed = false →
      ∃ reply, Answered answers n.world reply ∧ frame = ⟨reply.header, reply.body⟩
  /-- The server has taken requests. -/
  requests : ∀ r ∈ n.requests, Asked env.mp n.world r
  /-- What is on its way to a loop that reads it are answers to these. -/
  flight : ¬ n.world.Detached → ∃ replies : List (WireFrame env.mp),
    n.framing.pending ++ n.downlink = replies.flatMap WireFrame.bytes ∧
    ∀ reply ∈ replies, ∃ r ∈ n.requests, answers r reply

variable {env : Environment} {answers : Received → WireFrame env.mp → Prop} {n n' : Network}

theorem sound_init (framing : IprotoFraming) (h : framing.pending = []) :
    Sound env answers (init env framing) where
  run := ⟨[], rfl, fun _ _ hmem ↦ absurd hmem List.not_mem_nil⟩
  requests _ hr := absurd hr List.not_mem_nil
  flight _ := ⟨[], (List.append_nil _).trans h, List.forall_mem_nil _⟩

/-- A step of the connector adds to its run. -/
theorem Sound.run_step (h : Sound env answers n) {e : Connector.Event} {w : World}
    (hs : Connector.step env n.world e = some w)
    (hanswer : ∀ ec frame, e = .received ec frame → ec.failed = false →
      ∃ reply, (∃ r ∈ n.requests, answers r reply) ∧ frame = ⟨reply.header, reply.body⟩) :
    ∃ es, exec (Connector.step env) (World.init env) es = some w ∧
      ∀ ec frame, .received ec frame ∈ es → ec.failed = false →
        ∃ reply, Answered answers w reply ∧ frame = ⟨reply.header, reply.body⟩ := by
  have hgrows : n.world.issued <+: w.issued := (step_move hs).issued_grows
  obtain ⟨es, hes, hreceived⟩ := h.run
  refine ⟨es ++ [e], exec_append.mpr ⟨_, hes, exec_cons.mpr ⟨w, hs, rfl⟩⟩, ?_⟩
  intro ec frame hmem hec
  rcases List.mem_append.mp hmem with hmem | hmem
  · obtain ⟨reply, hreply, hframe⟩ := hreceived ec frame hmem hec
    exact ⟨reply, hreply.mono hgrows, hframe⟩
  · obtain ⟨reply, ⟨r, hr, hanswers⟩, hframe⟩ :=
      hanswer ec frame (List.mem_singleton.mp hmem).symm hec
    exact ⟨reply, ⟨r, (h.requests r hr).mono hgrows, hanswers⟩, hframe⟩

theorem Sound.client (h : Sound env answers n) (hi : n.world.Invariant) {e : Connector.Event}
    {w : World} (hne : ∀ ec frame, e ≠ .received ec frame)
    (hs : Connector.step env n.world e = some w) : Sound env answers (n.moveTo w) := by
  have hgrows : n.world.issued <+: w.issued := (step_move hs).issued_grows
  have hrun := h.run_step hs fun ec frame he ↦ absurd he (hne ec frame)
  unfold moveTo
  split_ifs with hepoch
  · obtain ⟨-, hrequests, -, hframing, hdownlink⟩ := goTo_same n w
    constructor
    · rwa [world_goTo]
    · rw [hrequests, world_goTo]
      exact fun r hr ↦ (h.requests r hr).mono hgrows
    · rw [hrequests, hframing, hdownlink, world_goTo]
      exact fun hd ↦ h.flight fun hdn ↦ hd (hdn.step hi hs hepoch)
  · refine ⟨hrun, List.forall_mem_nil _, fun _ ↦ ⟨[], ?_, List.forall_mem_nil _⟩⟩
    rw [IprotoFraming.pending_reconnect]
    rfl

/-- What the server takes is a request. -/
theorem Sound.take (h : Sound env answers n) (horderly : Orderly env n) (hk : Kept n)
    (hframes : ∀ request ∈ n.world.issued, IsFrame env.mp request) {f : WireFrame env.mp}
    (htake : n.Readable f.bytes) :
    Sound env answers
      { n with
        taken := n.taken + f.bytes.length
        requests := n.requests ++ [(f.header, f.body)]
        asked := n.asked ++ [(f.header, f.body)] } := by
  obtain ⟨before, after, done, htakes⟩ := horderly.takes
  obtain ⟨data, -, -, hmem, hbytes⟩ :=
    htakes.next horderly.inOrder hframes hk.spoiled_eq htake
  obtain ⟨request, hrequest, hdata⟩ := mem_issuedBuffers hmem
  refine ⟨h.run, List.forall_mem_append.mpr ⟨h.requests, List.forall_mem_singleton.mpr ?_⟩,
    fun hd ↦ ?_⟩
  · exact ⟨request, List.mem_of_getElem? hrequest, f, hbytes.trans hdata, rfl⟩
  · obtain ⟨replies, hpending, hreplies⟩ := h.flight hd
    refine ⟨replies, hpending, fun reply hreply ↦ ?_⟩
    obtain ⟨r, hr, hanswers⟩ := hreplies reply hreply
    exact ⟨r, List.mem_append_left _ hr, hanswers⟩

theorem Sound.answer (h : Sound env answers n) {reply : WireFrame env.mp}
    (hreply : ∃ request ∈ n.requests, answers request reply) :
    Sound env answers { n with downlink := n.downlink ++ reply.bytes } := by
  refine ⟨h.run, h.requests, fun hd ↦ ?_⟩
  obtain ⟨replies, hpending, hreplies⟩ := h.flight hd
  refine ⟨replies ++ [reply], ?_, ?_⟩
  · rw [List.flatMap_append, List.flatMap_singleton, ← hpending, List.append_assoc]
  · exact List.forall_mem_append.mpr ⟨hreplies, List.forall_mem_singleton.mpr hreply⟩

/-- The message the loop receives is the first answer on its way. -/
theorem Sound.next (h : Sound env answers n) (hl : n.world.loop = .receiving)
    {segments : List (List UInt8)} {ec : ErrorCode} {frame : IprotoFrame FrozenBuffer}
    {framing : IprotoFraming} (harrive : segments.flatten <+: n.downlink)
    (hr : (n.framing.arrive segments).receiveMessage env.mp = some ((ec, frame), framing))
    (hec : ec.failed = false) :
    ∃ (reply : WireFrame env.mp) (replies : List (WireFrame env.mp)),
      (∃ r ∈ n.requests, answers r reply) ∧
      frame.load framing.buffer = ⟨reply.header, reply.body⟩ ∧
      framing.pending ++ n.downlink.drop segments.flatten.length =
        replies.flatMap WireFrame.bytes ∧
      ∀ reply ∈ replies, ∃ r ∈ n.requests, answers r reply := by
  have hattached : ¬ n.world.Detached := by
    rw [Detached, hl]
    exact id
  obtain ⟨replies, hpending, hreplies⟩ := h.flight hattached
  obtain ⟨later, hlater⟩ := harrive
  have hflight :
      (n.framing.arrive segments).pending ++ later = replies.flatMap WireFrame.bytes := by
    rw [IprotoFraming.pending_arrive, List.append_assoc, hlater, hpending]
  have hdrop : n.downlink.drop segments.flatten.length = later := by
    rw [← hlater, List.drop_left]
  obtain ⟨reply, replies, rfl, hload, hrest⟩ :=
    IprotoFraming.receiveMessage_of_frames hflight hr hec
  obtain ⟨hreply, hreplies⟩ := List.forall_mem_cons.mp hreplies
  exact ⟨reply, replies, hreply, hload, hdrop ▸ hrest, hreplies⟩

theorem Sound.receive (h : Sound env answers n) {segments : List (List UInt8)} {ec : ErrorCode}
    {frame : IprotoFrame FrozenBuffer} {framing : IprotoFraming} {w : World}
    (harrive : segments.flatten <+: n.downlink)
    (hr : (n.framing.arrive segments).receiveMessage env.mp = some ((ec, frame), framing))
    (hs : Connector.step env n.world (.received ec (frame.load framing.buffer)) = some w) :
    Sound env answers
      ({ n with framing, downlink := n.downlink.drop segments.flatten.length }.goTo w) := by
  have hgrows : n.world.issued <+: w.issued := (step_move hs).issued_grows
  have hnext := h.next (receiving_received hs) harrive hr
  obtain ⟨-, hrequests, -, hframing, hdownlink⟩ :=
    goTo_same { n with framing, downlink := n.downlink.drop segments.flatten.length } w
  constructor
  · rw [world_goTo]
    refine h.run_step hs ?_
    rintro ec frame ⟨⟩ hec
    obtain ⟨reply, -, hreply, hload, -⟩ := hnext hec
    exact ⟨reply, hreply, hload⟩
  · rw [hrequests, world_goTo]
    exact fun r hr ↦ (h.requests r hr).mono hgrows
  · rw [hrequests, hframing, hdownlink, world_goTo]
    intro hd
    cases hec : ec.failed with
    | true => exact absurd (detached_received hs hec) hd
    | false =>
        obtain ⟨-, replies, -, -, hrest, hreplies⟩ := hnext hec
        exact ⟨replies, hrest, hreplies⟩

theorem Sound.step (h : Sound env answers n) (horderly : Orderly env n) (hk : Kept n)
    {e : Event env.mp} (hhonest : Honest answers n e) (hf : Fires env n e n')
    (hids : (n.world.issued.map Operation.id).Nodup)
    (hframes : ∀ request ∈ n.world.issued, IsFrame env.mp request) : Sound env answers n' := by
  cases hf with
  | client hne hs => exact h.client (horderly.invariant hids) hne hs
  | take htake => exact h.take horderly hk hframes htake
  | answer reply => exact h.answer hhonest
  | receive harrive hr hs => exact h.receive harrive hr hs

/-! ## No request is answered before it was read -/

/-- The server may answer a request with a frame under the identifier of the request. -/
def EchoesSync {mp : Codec} (answers : Received → WireFrame mp → Prop) : Prop :=
  ∀ r reply, answers r reply → reply.header.sync = r.1.sync

/-- What was read was read from a buffer at the head of the stream. -/
theorem Takes.source {before after done : List Buffer} (h : Takes mp n before after done)
    {r : Received} (hr : r ∈ n.requests) : ∃ data ∈ before, ReadFrom mp data.bytes r := by
  obtain ⟨i, hi, rfl⟩ := List.mem_iff_getElem.mp hr
  have hlen := h.requests.length_eq
  have hread := h.requests.get (i := i) (by rw [hlen]; exact hi) hi
  rw [List.get_eq_getElem, List.getElem_map] at hread
  exact ⟨_, List.getElem_mem _, hread⟩

/-- The frame in a buffer is under the identifier of the request the buffer is of. -/
theorem sync_of_issued {data : Buffer} {r : Received}
    (hframes : ∀ request ∈ n.world.issued, IsFrame mp request)
    (hdata : data ∈ n.world.issuedBuffers) (hread : ReadFrom mp data.bytes r) :
    ∃ request, n.world.issued[data.owner]? = some request ∧ request.id = r.1.sync := by
  obtain ⟨request, hrequest, hbytes⟩ := mem_issuedBuffers hdata
  obtain ⟨f, hf, rfl⟩ := hread
  obtain ⟨g, hg, hgid⟩ := hframes request (List.mem_of_getElem? hrequest)
  have hsame : f.bytes ++ [] = g.bytes ++ [] := by rw [hf, hbytes, hg]
  exact ⟨request, hrequest, by rw [← hgid, (WireFrame.eq_of_append hsame).1]⟩

/-- Two requests with one identifier are one. -/
theorem owner_inj {i j : Nat} {a b : Operation}
    (hids : (n.world.issued.map Operation.id).Nodup) (ha : n.world.issued[i]? = some a)
    (hb : n.world.issued[j]? = some b) (hid : a.id = b.id) : i = j := by
  refine (List.getElem?_inj ?_ hids).mp ?_
  · rw [List.length_map]
    exact (List.getElem?_eq_some_iff.mp ha).1
  · rw [List.getElem?_map, List.getElem?_map, ha, hb, Option.map_some, Option.map_some, hid]

/-- The request that was read under an identifier is the one that has it. -/
theorem Takes.readBefore {before after done : List Buffer} (h : Takes mp n before after done)
    (hin : n.world.InOrder) (hids : (n.world.issued.map Operation.id).Nodup)
    (hframes : ∀ request ∈ n.world.issued, IsFrame mp request) {r : Received}
    (hr : r ∈ n.requests) : n.ReadBefore r.1.sync := by
  rw [ReadBefore, h.unread_eq]
  intro data hdata request hrequest hid
  have hwire : (before ++ after).Sublist n.world.issuedBuffers := by
    rw [← h.wire_eq]
    exact (List.sublist_append_right _ _).trans (wire_issued hin h.written)
  obtain ⟨asked, hasked, hread⟩ := h.source hr
  have hissued := hwire.subset (List.mem_append_left _ hasked)
  obtain ⟨own, hown, hsync⟩ := sync_of_issued hframes hissued hread
  have howner : asked.owner = data.owner := owner_inj hids hown hrequest (hsync.trans hid.symm)
  -- the buffer would be both read and unread, but it is on the wire once
  have hbuffer : asked = data := by
    refine List.inj_on_of_nodup_map (f := Buffer.owner) ?_ hissued
      (hwire.subset (List.mem_append_right _ hdata)) howner
    rw [owners_issuedBuffers]
    exact List.nodup_range
  have hnodup := hwire.nodup (nodup_issuedBuffers _)
  exact (List.nodup_append.mp hnodup).2.2 asked hasked data hdata hbuffer

/-- An honest server answers no request before it has read it. -/
theorem Sound.repliesRead (h : Sound env answers n) (horderly : Orderly env n)
    (hecho : EchoesSync answers) (hids : (n.world.issued.map Operation.id).Nodup)
    (hframes : ∀ request ∈ n.world.issued, IsFrame env.mp request) (e : Event env.mp) :
    RepliesRead env n e := by
  rintro segments rfl harrive hl ec frame framing hr hec
  obtain ⟨before, after, done, htakes⟩ := horderly.takes
  obtain ⟨reply, -, ⟨r, hmem, hanswers⟩, hload, -⟩ := h.next hl harrive hr hec
  have hsync : frame.header.sync = r.1.sync :=
    (congrArg (fun f ↦ f.header.sync) hload).trans (hecho r reply hanswers)
  rw [hsync]
  exact htakes.readBefore horderly.inOrder hids hframes hmem

theorem sound_of_exec {framing : IprotoFraming} (hecho : EchoesSync answers)
    {es : List (Event env.mp)} (hrun : exec (Network.step env) (init env framing) es = some n)
    (hsent : Meets (Network.step env) (SentInTime env) (init env framing) es)
    (hhonest : Meets (Network.step env) (Honest answers) (init env framing) es)
    (hframing : framing.pending = []) (hids : (n.world.issued.map Operation.id).Nodup)
    (hframes : ∀ request ∈ n.world.issued, IsFrame env.mp request) : Sound env answers n := by
  have halways : Always (Network.step env) (fun n ↦ (n.world.issued.map Operation.id).Nodup →
      (∀ request ∈ n.world.issued, IsFrame env.mp request) →
        Orderly env n ∧ Kept n ∧ Sound env answers n) (init env framing) es := by
    refine always_of_meets (fun n e n' hrule hs hn hids hframes ↦ ?_) (hsent.and hhonest)
      fun _ _ ↦ ⟨orderly_init framing, kept_init env framing, sound_init framing hframing⟩
    have hf := Fires.of_step hs
    have hids' := (hf.issued_grows.map Operation.id).sublist.nodup hids
    have hframes' : ∀ request ∈ n.world.issued, IsFrame env.mp request :=
      fun request hr ↦ hframes request (hf.issued_grows.subset hr)
    obtain ⟨horderly, hkept, hsound⟩ := hn hids' hframes'
    have hread := hsound.repliesRead horderly hecho hids' hframes' e
    exact ⟨horderly.step hkept hf hframes',
      hkept.step (horderly.invariant hids') hf hrule.1 hread,
      hsound.step horderly hkept hrule.2 hf hids' hframes'⟩
  exact (halways.last hrun hids hframes).2.2

end Network

open Network

/-- A handler that was called with success was called with an answer to its own request. -/
theorem Network.Sound.completed {env : Environment} {answers : Received → WireFrame env.mp → Prop}
    {n : Network} (hsound : Sound env answers n) (hecho : EchoesSync answers)
    (hids : (n.world.issued.map Operation.id).Nodup)
    (hframes : ∀ request ∈ n.world.issued, IsFrame env.mp request) {h : HandlerId} {ec : ErrorCode}
    {frame : IprotoFrame (List UInt8)} (hmem : .completed h ec frame ∈ n.world.ledger.entries)
    (hec : ec.failed = false) :
    ∃ request, n.world.issued[h]? = some request ∧
      ∃ asked reply : WireFrame env.mp, asked.bytes = request.data ∧
        answers (asked.header, asked.body) reply ∧ frame = ⟨reply.header, reply.body⟩ := by
  obtain ⟨wes, hwes, hreceived⟩ := hsound.run
  have hinvariant := always_invariant hwes hids (invariant_init env)
  obtain ⟨ec', hmem', hec'⟩ : ∃ ec', .received ec' frame ∈ wes ∧ ec'.failed = false := by
    rcases success_of_exec hwes hinvariant hec hmem with hmem' | hmem'
    · cases hmem'
    · exact hmem'
  obtain ⟨reply, ⟨r, ⟨request, hrequest, asked, hasked, rfl⟩, hanswers⟩, rfl⟩ :=
    hreceived ec' frame hmem' hec'
  -- the identifier of the answer is the one on the wire, which is the one of the request
  have hsync : request.id = reply.header.sync := by
    obtain ⟨f, hf, hid⟩ := hframes request hrequest
    have hsame : asked.bytes ++ [] = f.bytes ++ [] := by rw [hasked, hf]
    rw [hecho _ _ hanswers, ← hid, (WireFrame.eq_of_append hsame).1]
  obtain ⟨own, hown, hid⟩ := Option.map_eq_some_iff.mp
    ((hinvariant.last hwes).consistent.success_sync h ec _ hmem hec)
  obtain rfl : own = request :=
    List.inj_on_of_nodup_map hids (List.mem_of_getElem? hown) hrequest (hid.trans hsync.symm)
  exact ⟨own, hown, asked, reply, hasked, hanswers, rfl⟩

/-- In every run of a connector and an honest server, whatever the order of their steps,
the portions the bytes arrive in, and the connections that are lost and made again, where
requests are sent in time: a handler that is called with success is called with the header
and the body of an answer to its own request, as the server has read that request off the
wire. -/
theorem agreement {env : Environment} (hmp : env.mp.Lawful) (framing : IprotoFraming)
    (hframing : framing.pending = []) (answers : Received → WireFrame env.mp → Prop)
    (hecho : EchoesSync answers) {es : List (Network.Event env.mp)} {n : Network}
    (hrun : exec (Network.step env) (Network.init env framing) es = some n)
    (hsent : Meets (Network.step env) (SentInTime env) (Network.init env framing) es)
    (hhonest : Meets (Network.step env) (Honest answers) (Network.init env framing) es)
    (hids : (n.world.issued.map Operation.id).Nodup)
    (hapi : ∀ request ∈ n.world.issued,
      FromApi env.mp request ∧ request.data.length < 2 ^ 32 + 5) :
    ∀ h ec frame, .completed h ec frame ∈ n.world.ledger.entries → ec.failed = false →
      ∃ request, n.world.issued[h]? = some request ∧
        ∃ asked reply : WireFrame env.mp, asked.bytes = request.data ∧
          answers (asked.header, asked.body) reply ∧ frame = ⟨reply.header, reply.body⟩ := by
  intro h ec frame hmem hec
  have hframes : ∀ request ∈ n.world.issued, IsFrame env.mp request := fun request hr ↦
    (hapi request hr).1.isFrame hmp (hapi request hr).2
  have hsound := sound_of_exec hecho hrun hsent hhonest hframing hids hframes
  exact hsound.completed hecho hids hframes hmem hec

/-- Two requests, answered in the other order, and delivered in pieces. -/
def swappedNetwork : List (Network.Event Environment.plain.mp) :=
  [.client .start, .client .generateId, .client (.send (pingRequest 0)), .client .generateId,
    .client (.send (pingRequest 1)), .take firstPing,
    .client (.writeDone 0 {}), .take (emptyFrame (requestHeader 1 .ping)),
    .answer (emptyFrame { requestType := 0, sync := 1 }),
    .answer (emptyFrame { requestType := 0, sync := 0 }),
    .receive [[0xce, 0, 0], [0, 6, 0x82, 1, 1, 0], [0, 0x80, 0xce]],
    .receive [[0, 0, 0, 6, 0x82, 1, 0, 0, 0, 0x80]]]

/-- The first caller gets the answer that came second. -/
theorem agreement_swappedNetwork :
    ∃ n, exec (Network.step .plain) (Network.init .plain quietFraming) swappedNetwork = some n ∧
      ∃ request, n.world.issued[0]? = some request ∧
        ∃ asked reply : WireFrame Codec.reference, asked.bytes = request.data ∧
          reply.header.sync = asked.header.sync ∧
          (⟨{ requestType := 0, sync := 0 }, [0x80]⟩ : IprotoFrame (List UInt8)) =
            ⟨reply.header, reply.body⟩ := by
  have hsome : (exec (Network.step .plain) (Network.init .plain quietFraming)
      swappedNetwork).isSome = true := by decide +kernel
  obtain ⟨n, hrun⟩ := Option.isSome_iff_exists.mp hsome
  have hend : (exec (Network.step .plain) (Network.init .plain quietFraming) swappedNetwork).map
      (fun n ↦ (n.world.issued, n.world.ledger.entries.head?)) =
        some ([pingRequest 0, pingRequest 1],
          some (.completed 0 {} ⟨{ requestType := 0, sync := 0 }, [0x80]⟩)) := by decide +kernel
  rw [hrun, Option.map_some, Option.some_inj, Prod.mk.injEq] at hend
  obtain ⟨hissued, hentry⟩ := hend
  have hhonest : Meets (Network.step .plain) (Honest fun r reply ↦ reply.header.sync = r.1.sync)
      (Network.init .plain quietFraming) swappedNetwork := by decide +kernel
  have hsent : Meets (Network.step .plain) (SentInTime .plain) (Network.init .plain quietFraming)
      swappedNetwork := by decide +kernel
  refine ⟨n, hrun, @agreement .plain Codec.reference_lawful quietFraming rfl
    (fun r reply ↦ reply.header.sync = r.1.sync) (fun _ _ h ↦ h) _ n hrun hsent hhonest ?_ ?_ 0 {} _
    (List.mem_of_head? hentry) rfl⟩
  · rw [hissued]
    decide
  · rw [hissued]
    refine List.forall_mem_cons.mpr ⟨⟨⟨.ping, 0, _, rfl, rfl⟩, by decide⟩, ?_⟩
    exact List.forall_mem_singleton.mpr ⟨⟨.ping, 1, _, rfl, rfl⟩, by decide⟩

end Connector

end Tntpp
