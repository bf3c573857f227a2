import Mathlib.Data.List.Flatten
import Mathlib.Data.List.Forall2
import Tntpp.Box.Frames
import Tntpp.Connector.Replies
import Tntpp.Connector.Storage
import Tntpp.Detail.MessageLength

/-!
# A connector and a server

`Network` is a connector together with the server at the other end and the bytes between
them.  The server takes whole messages off the bytes the connector has written on the
current connection, and may send messages at any time.  What it sends arrives in portions
of any size, and the connection may be cut between any two bytes; the connector reads it
through `receive_message`.

What the server reads are the bytes in the storage of the requests.  Once the handler of a
request has been called the storage is released, and what is read of it later may be
anything: the network is `spoiled`.  `Kept.step` shows that this does not happen where
requests are sent in time and are not answered before they have been read.
-/

namespace Tntpp

open MsgPack (Codec)

/-! ## Frames on a stream -/

section

variable {mp : Codec}

/-- A stream starts with one frame at most. -/
theorem WireFrame.eq_of_append {f g : WireFrame mp} {rest rest' : List UInt8}
    (h : f.bytes ++ rest = g.bytes ++ rest') :
    f.header = g.header ∧ f.body = g.body ∧ rest = rest' := by
  obtain ⟨frame, s, hs, hheader, -, hview, hpending, -⟩ :=
    IprotoFraming.receiveMessage_spec f (IprotoFraming.pending_ofBytes (f.bytes ++ rest))
  obtain ⟨frame', s', hs', hheader', -, hview', hpending', -⟩ :=
    IprotoFraming.receiveMessage_spec g ((IprotoFraming.pending_ofBytes _).trans h)
  rw [hs] at hs'
  cases hs'
  exact ⟨hheader.symm.trans hheader', hview.symm.trans hview', hpending.symm.trans hpending'⟩

namespace IprotoFraming

variable {s : IprotoFraming}

/-- What arrives is appended to what a socket delivers. -/
def arrive (s : IprotoFraming) (segments : List (List UInt8)) : IprotoFraming :=
  { s with nextLayer := { s.nextLayer with segments := s.nextLayer.segments ++ segments } }

theorem pending_arrive (s : IprotoFraming) (segments : List (List UInt8)) :
    (s.arrive segments).pending = s.pending ++ segments.flatten := by
  simp [pending, arrive]

/-- A message that is received from a stream of frames, cut somewhere, is the first of
them. -/
theorem receiveMessage_of_frames {fs : List (WireFrame mp)} {rest : List UInt8}
    (h : s.pending ++ rest = fs.flatMap WireFrame.bytes) {ec : ErrorCode}
    {frame : IprotoFrame FrozenBuffer} {s' : IprotoFraming}
    (hs : s.receiveMessage mp = some ((ec, frame), s')) (hec : ec.failed = false) :
    ∃ f fs', fs = f :: fs' ∧ frame.load s'.buffer = ⟨f.header, f.body⟩ ∧
      s'.pending ++ rest = fs'.flatMap WireFrame.bytes := by
  have hfailed {t : IprotoFraming}
      (ht : s.receiveMessage mp = some ((s.nextLayer.error, ⟨{}, {}⟩), t)) : False := by
    cases hs.symm.trans ht
    exact Bool.false_ne_true (hec.symm.trans s.nextLayer.failed_error)
  cases fs with
  | nil =>
      obtain ⟨hnil, -⟩ := List.append_eq_nil_iff.mp h
      obtain ⟨t, ht, -⟩ := receiveMessage_nil mp hnil
      exact (hfailed ht).elim
  | cons f fs =>
      rw [List.flatMap_cons] at h
      rcases Nat.lt_or_ge s.pending.length f.bytes.length with hlt | hle
      · have htake : s.pending = f.bytes.take s.pending.length := by
          have hpending := congrArg (List.take s.pending.length) h
          rwa [List.take_left, List.take_append_of_le_length (Nat.le_of_lt hlt)] at hpending
        obtain ⟨t, ht, -⟩ := receiveMessage_short f hlt htake
        exact (hfailed ht).elim
      · obtain ⟨later, hlater⟩ : f.bytes <+: s.pending :=
          List.prefix_of_prefix_length_le (List.prefix_append _ _) (h ▸ List.prefix_append _ _) hle
        obtain ⟨frame', t, ht, hheader, -, hview, hpending, -⟩ := receiveMessage_spec f hlater.symm
        cases hs.symm.trans ht
        refine ⟨f, fs, rfl, ?_, ?_⟩
        · rw [IprotoFrame.load, hheader, hview]
        · rw [← hlater, List.append_assoc] at h
          rw [hpending]
          exact List.append_cancel_left h

end IprotoFraming

end

namespace Connector

open Transition World

/-! ## Where the loop reads nothing -/

namespace World

variable {w w' : World} {env : Environment}

/-- The loop has left its connection, and has not opened the next. -/
def Detached (w : World) : Prop :=
  match w.loop with
  | .resolving | .finished | .failed | .aborted => True
  | .spawned | .connecting _ | .greeting _ | .authenticating | .receiving => False

theorem enter_detached (hs : w.s ≠ .connected) (h : enter env w = .ok w') : w'.Detached := by
  rcases enter_cases env w with ⟨-, ⟨w₁, -, he⟩ | ⟨w₁, -, he⟩⟩ | ⟨-, loop, hl, he⟩ | ⟨hs', -⟩
  · cases h.symm.trans he
    trivial
  · cases h.symm.trans he
  · cases h.symm.trans he
    rcases hl with rfl | rfl <;> trivial
  · exact absurd hs' hs

theorem resetEnter_detached (h : w.reset.bind (enter env) = .ok w') : w'.Detached := by
  cases hr : w.reset with
  | ok w₁ =>
      rw [hr] at h
      exact enter_detached ((reset_result hr).2.2.1 ▸ w.resetState_ne_connected) h
  | error w₁ =>
      rw [hr] at h
      cases h

theorem catchAll_detached {r : Except World World} (h : ∀ w', r = .ok w' → w'.Detached) :
    (catchAll env r).Detached := by
  cases r with
  | ok w₁ => exact h w₁ rfl
  | error w₁ =>
      unfold catchAll
      dsimp only
      split_ifs
      · trivial
      · cases hr : w₁.reset.bind (enter env) with
        | ok w₂ => exact resetEnter_detached hr
        | error w₂ => trivial

/-- A lost connection is left. -/
theorem resetGoOn_detached (w : World) : (catchAll env (w.reset.bind (enter env))).Detached :=
  catchAll_detached fun _ ↦ resetEnter_detached

theorem goOn_detached (hs : w.s ≠ .connected) : (goOn env w).Detached :=
  catchAll_detached fun _ ↦ enter_detached hs

/-- A detached loop stays so until it opens a socket. -/
theorem Detached.step (hd : w.Detached) (hi : w.Invariant) {e : Event}
    (hs : step env w e = some w') (hepoch : w'.epoch = w.epoch) : w'.Detached := by
  have hne {loop : Loop} (hl : w.loop = loop) : ({ w with loop } : World).Detached := by
    subst hl
    exact hd
  have htryNext (addresses : List Endpoint) (hr : w.Reconnecting)
      (heq : (tryNext env w addresses).epoch = w.epoch) : (tryNext env w addresses).Detached := by
    cases addresses with
    | nil => exact goOn_detached (hi.of_reconnecting hr).1
    | cons address rest => exact absurd heq (Nat.succ_ne_self _)
  cases Fires.of_step hs with
  | rehash | generateId | drop | stop => exact hd
  | writeDone hi ec => exact hd
  | send request hd' =>
      have hloop : (w.sendRequest id request).loop = w.loop := by
        by_cases hs : w.s = .connected
        · rw [sendRequest_of_connected hs]
          rfl
        · rw [sendRequest_of_ne_connected hs, (afterRejection_loop _ _ _).1]
          rfl
      rwa [Detached, hloop]
  | unresolved addresses hl hec =>
      have hr : w.Reconnecting := by
        rw [Reconnecting, hl]
        trivial
      exact goOn_detached (hi.of_reconnecting hr).1
  | resolved hl hec =>
      refine htryNext _ ?_ hepoch
      rw [Reconnecting, hl]
      trivial
  | start hl | refused hl | connected hl | closed hl | vanished hl | ungreeted _ hl
  | expired _ hl | greeted _ hl | lost _ hl | message _ hl => exact (hne hl).elim

/-- Only the loop at its read receives. -/
theorem receiving_received {ec : ErrorCode} {frame : IprotoFrame (List UInt8)}
    (hs : step env w (.received ec frame) = some w') : w.loop = .receiving := by
  cases Fires.of_step hs with
  | lost _ hl => exact hl
  | message _ hl => exact hl

/-- Receiving opens nothing. -/
theorem epoch_received {ec : ErrorCode} {frame : IprotoFrame (List UInt8)}
    (hs : step env w (.received ec frame) = some w') : w'.epoch = w.epoch := by
  cases Fires.of_step hs with
  | lost => exact (Quiet.resetGoOn w).silently.epoch_eq
  | message =>
      exact (Quiet.goOn _).silently.epoch_eq.trans (silently_handleMessage w frame).epoch_eq

/-- A connection that is lost is left. -/
theorem detached_received {ec : ErrorCode} {frame : IprotoFrame (List UInt8)}
    (hs : step env w (.received ec frame) = some w') (hec : ec.failed = true) : w'.Detached := by
  cases Fires.of_step hs with
  | lost => exact resetGoOn_detached w
  | message _ _ hok => exact absurd (hec.symm.trans hok) (by decide)

/-- What is written on a connection stays written, in its place. -/
theorem writtenOn_grows (h : w.history <:+ w'.history) (epoch : Nat) :
    writtenOn w.history epoch <+: writtenOn w'.history epoch := by
  obtain ⟨acts, hacts⟩ := h
  refine ⟨writtenOn acts epoch, ?_⟩
  rw [← hacts, writtenOn, writtenOn, writtenOn, List.reverse_append, List.flatMap_append]

end World

/-! ## The network -/

/-- A request as a server reads it: its header and its body. -/
abbrev Received := MessageHeader × List UInt8

/-- A request is one frame, which carries its identifier. -/
def IsFrame (mp : Codec) (request : Operation) : Prop :=
  ∃ f : WireFrame mp, f.bytes = request.data ∧ f.header.sync = request.id

theorem FromApi.isFrame {mp : Codec} {request : Operation} (h : FromApi mp request)
    (hmp : mp.Lawful)
    (hlen : request.data.length < 2 ^ 32 + 5) : IsFrame mp request := by
  obtain ⟨call, id, p, hcall, hdata⟩ := h
  obtain ⟨f, hf, hsync⟩ := call.wireFrame_packer hmp hcall (hdata ▸ hlen)
  exact ⟨f, hf.trans hdata.symm, hsync⟩

/-- What a server makes of the bytes of a message. -/
def ReadFrom (mp : Codec) (message : List UInt8) (r : Received) : Prop :=
  ∃ f : WireFrame mp, f.bytes = message ∧ r = (f.header, f.body)

/-- A connector, a server, and the bytes between them. -/
structure Network where
  /-- The connector. -/
  world : World
  /-- The framing layer of its connection. -/
  framing : IprotoFraming
  /-- What the connector has written on the current connection while its socket was open. -/
  wire : List Buffer
  /-- The number of bytes the server has taken off the current connection. -/
  taken : Nat
  /-- The requests it has taken off the current connection. -/
  requests : List Received
  /-- Those it has taken off all connections. -/
  asked : List Received
  /-- What it has sent, behind the greeting, and what has not arrived. -/
  downlink : List UInt8
  /-- The socket had storage to read that was released. -/
  spoiled : Bool

namespace Network

/-- What can happen. -/
inductive Event (mp : Codec) where
  /-- A function of the connector runs, other than the one that awaits a message. -/
  | client (e : Connector.Event)
  /-- The server takes a message off the connection. -/
  | take (request : WireFrame mp)
  /-- The server sends a message. -/
  | answer (reply : WireFrame mp)
  /-- Bytes arrive in some portions, and `receive_message` completes. -/
  | receive (segments : List (List UInt8))

/-- A connector over a connection that was just established; `framing` has been cleared. -/
def init (env : Environment) (framing : IprotoFraming) : Network where
  world := World.init env
  framing
  wire := []
  taken := 0
  requests := []
  asked := []
  downlink := []
  spoiled := false

/-- The bytes the connector has written on the current connection. -/
def uplink (n : Network) : List UInt8 := n.wire.flatMap Buffer.bytes

/-- What the server has not read of them. -/
def unread (n : Network) : List Buffer := n.wire.drop n.requests.length

/-- Some of it is in storage that was released: its handler has been called. -/
def readsReleased (n : Network) : Bool :=
  n.unread.any fun data ↦ decide (data.owner ∈ Ledger.completions n.world.ledger.entries)

/-- A function of the connector has run, and the connection is the same.  A socket that is
closed reads nothing any more. -/
def goTo (n : Network) (w : World) : Network :=
  if w.isOpen then
    let n := { n with world := w, wire := n.wire ++ newlyWritten n.world w }
    { n with spoiled := n.spoiled || n.readsReleased }
  else { n with world := w }

/-- A function of the connector has run.  If it has opened the socket, the framing layer is
cleared, and nothing of the last connection is left. -/
def moveTo (n : Network) (w : World) : Network :=
  if w.epoch = n.world.epoch then n.goTo w
  else
    { world := w
      framing := n.framing.reconnect { n.framing.nextLayer with segments := [] }
      wire := []
      taken := 0
      requests := []
      asked := n.asked
      downlink := []
      spoiled := false }

variable {mp : Codec}

/-- The server can read a message.  Where released storage was read, it may be any message
of as many bytes. -/
def Readable (n : Network) (message : List UInt8) : Prop :=
  if n.spoiled then message.length ≤ (n.uplink.drop n.taken).length
  else message <+: n.uplink.drop n.taken

instance (n : Network) (message : List UInt8) : Decidable (n.Readable message) :=
  inferInstanceAs (Decidable (if n.spoiled then message.length ≤ (n.uplink.drop n.taken).length
    else message <+: n.uplink.drop n.taken))

/-- One step. -/
def step (env : Environment) (n : Network) : Event env.mp → Option Network
  | .client (.received ..) => none
  | .client e => (Connector.step env n.world e).map n.moveTo
  | .take request =>
    if n.Readable request.bytes then
      some { n with
        taken := n.taken + request.bytes.length
        requests := n.requests ++ [(request.header, request.body)]
        asked := n.asked ++ [(request.header, request.body)] }
    else none
  | .answer reply => some { n with downlink := n.downlink ++ reply.bytes }
  | .receive segments =>
    if segments.flatten <+: n.downlink then do
      let ((ec, frame), framing) ← (n.framing.arrive segments).receiveMessage env.mp
      let world ← Connector.step env n.world (.received ec (frame.load framing.buffer))
      let downlink := n.downlink.drop segments.flatten.length
      return { n with framing, downlink }.goTo world
    else none

/-- What one step does, branch by branch. -/
inductive Fires (env : Environment) (n : Network) : Event env.mp → Network → Prop where
  | client {e : Connector.Event} {w : World} (hne : ∀ ec frame, e ≠ .received ec frame)
    (hs : Connector.step env n.world e = some w) : Fires env n (.client e) (n.moveTo w)
  | take {request : WireFrame env.mp} (htake : n.Readable request.bytes) :
    Fires env n (.take request)
      { n with
        taken := n.taken + request.bytes.length
        requests := n.requests ++ [(request.header, request.body)]
        asked := n.asked ++ [(request.header, request.body)] }
  | answer (reply : WireFrame env.mp) :
    Fires env n (.answer reply) { n with downlink := n.downlink ++ reply.bytes }
  | receive {segments : List (List UInt8)} {ec : ErrorCode} {frame : IprotoFrame FrozenBuffer}
    {framing : IprotoFraming} {w : World} (harrive : segments.flatten <+: n.downlink)
    (hr : (n.framing.arrive segments).receiveMessage env.mp = some ((ec, frame), framing))
    (hs : Connector.step env n.world (.received ec (frame.load framing.buffer)) = some w) :
    Fires env n (.receive segments)
      ({ n with framing, downlink := n.downlink.drop segments.flatten.length }.goTo w)

theorem Fires.of_step {env : Environment} {n n' : Network} {e : Event env.mp}
    (h : step env n e = some n') : Fires env n e n' := by
  cases e with
  | client e =>
      have hclient (hne : ∀ ec frame, e ≠ .received ec frame)
          (h : (Connector.step env n.world e).map n.moveTo = some n') :
          Fires env n (.client e) n' := by
        obtain ⟨w, hw, rfl⟩ := Option.map_eq_some_iff.mp h
        exact .client hne hw
      cases e with
      | received => cases h
      | rehash | generateId | send | writeDone | start | resolved | connected | vanished
      | greeted | drop | stop => exact hclient nofun h
  | take request =>
      simp only [step] at h
      split_ifs at h with htake
      cases h
      exact .take htake
  | answer reply =>
      cases h
      exact .answer reply
  | receive segments =>
      simp only [step] at h
      split_ifs at h with harrive
      obtain ⟨⟨⟨ec, frame⟩, framing⟩, hr, h⟩ := Option.bind_eq_some_iff.mp h
      obtain ⟨w, hw, h⟩ := Option.bind_eq_some_iff.mp h
      cases h
      exact .receive harrive hr hw

variable {env : Environment} {n n' : Network}

@[simp] theorem world_goTo (n : Network) (w : World) : (n.goTo w).world = w := by
  unfold goTo
  split_ifs <;> rfl

/-- What has been read is as it was. -/
theorem goTo_same (n : Network) (w : World) :
    (n.goTo w).taken = n.taken ∧ (n.goTo w).requests = n.requests ∧ (n.goTo w).asked = n.asked ∧
      (n.goTo w).framing = n.framing ∧ (n.goTo w).downlink = n.downlink := by
  unfold goTo
  split_ifs <;> exact ⟨rfl, rfl, rfl, rfl, rfl⟩

@[simp] theorem world_moveTo (n : Network) (w : World) : (n.moveTo w).world = w := by
  unfold moveTo
  split_ifs
  · exact world_goTo n w
  · rfl

theorem Fires.issued_grows {e : Event env.mp} (hf : Fires env n e n') :
    n.world.issued <+: n'.world.issued := by
  cases hf with
  | client _ hs =>
      rw [world_moveTo]
      exact (step_move hs).issued_grows
  | take | answer => exact List.prefix_rfl
  | receive _ _ hs =>
      rw [world_goTo]
      exact (step_move hs).issued_grows

/-! ## Storage that is kept -/

/-- The server has read every request under an identifier that is on the wire. -/
def ReadBefore (n : Network) (id : OperationId) : Prop :=
  ∀ data ∈ n.unread, ∀ request, n.world.issued[data.owner]? = some request → request.id ≠ id

/-- Requests are sent while the connector is connected and somebody refers to it, none is
sent to authenticate after a reconnection, and no successful write completion finds in the
queue a request whose handler has been called. -/
def SentInTime (env : Environment) (n : Network) : Event env.mp → Prop
  | .client e => SentAlive n.world e ∧ QueueKept n.world e ∧ Unauthenticated env e
  | .take _ | .answer _ | .receive _ => True

instance SentInTime.decidable (env : Environment) (n : Network) :
    ∀ e, Decidable (SentInTime env n e)
  | .client e =>
    inferInstanceAs (Decidable (SentAlive n.world e ∧ QueueKept n.world e ∧ Unauthenticated env e))
  | .take _ | .answer _ | .receive _ => .isTrue trivial

/-- A message that is received answers no request before the server has read it. -/
def RepliesRead (env : Environment) (n : Network) (e : Event env.mp) : Prop :=
  ∀ segments, e = .receive segments → segments.flatten <+: n.downlink →
    n.world.loop = .receiving → ∀ ec frame framing,
      (n.framing.arrive segments).receiveMessage env.mp = some ((ec, frame), framing) →
        ec.failed = false → n.ReadBefore frame.header.sync

/-- What the server has not read is still stored, as long as it may be read from there. -/
structure Kept (n : Network) : Prop where
  /-- What was read was stored. -/
  spoiled_eq : n.spoiled = false
  /-- No empty handler is registered. -/
  live : n.world.Live
  /-- What is unread is stored. -/
  unread : n.world.isOpen = true → ∀ data ∈ n.unread, ¬ n.world.ledger.Completed data.owner

theorem kept_init (env : Environment) (framing : IprotoFraming) : Kept (init env framing) where
  spoiled_eq := rfl
  live := live_init env
  unread _ := List.forall_mem_nil _

theorem readsReleased_eq_false (h : ∀ data ∈ n.unread, ¬ n.world.ledger.Completed data.owner) :
    n.readsReleased = false := by
  refine List.any_eq_false.mpr fun data hdata ↦ ?_
  rw [decide_eq_true_eq, Ledger.mem_completions]
  exact h data hdata

/-- A step that lends storage that is kept. -/
theorem Kept.goTo (h : Kept n) {e : Connector.Event} {w : World} (hlive : w.Live)
    (hlends : w.isOpen = true → Lends n.world e w)
    (hreply : ∀ ec frame, e = .received ec frame → ec.failed = false →
      n.ReadBefore frame.header.sync) : Kept (n.goTo w) := by
  unfold Network.goTo
  split_ifs with hopen
  · have hl := hlends hopen
    have hunread : ∀ data ∈ (n.wire ++ newlyWritten n.world w).drop n.requests.length,
        ¬ w.ledger.Completed data.owner := by
      intro data hdata
      rw [List.drop_append] at hdata
      rcases List.mem_append.mp hdata with hold | hnew
      · intro hc
        rcases hl.called _ hc with hc | ⟨ec, frame, he, hec, hid⟩
        · exact h.unread hl.isOpen data hold hc
        · obtain ⟨request, hrequest, hid⟩ := Option.map_eq_some_iff.mp hid
          exact hreply ec frame he hec data hold request hrequest hid
      · exact hl.written data (List.mem_of_mem_drop hnew)
    refine ⟨?_, hlive, fun _ ↦ hunread⟩
    dsimp only
    rw [h.spoiled_eq, Bool.false_or]
    exact readsReleased_eq_false hunread
  · exact ⟨h.spoiled_eq, hlive, fun hopen' ↦ absurd hopen' hopen⟩

/-- Storage is kept where requests are sent in time, and read before they are answered. -/
theorem Kept.step (h : Kept n) (hi : n.world.Invariant) {e : Event env.mp}
    (hf : Fires env n e n') (hsent : SentInTime env n e) (hreplies : RepliesRead env n e) :
    Kept n' := by
  cases hf with
  | @client e w hne hs =>
      obtain ⟨halive, hqueue, hauth⟩ := hsent
      have hm := step_move hs
      have hlive := hm.live hauth halive.connected h.live
      unfold moveTo
      split_ifs with hepoch
      · refine h.goTo hlive (hm.lends hi h.live hauth halive.connected hqueue hepoch) ?_
        exact fun ec frame he ↦ absurd he (hne ec frame)
      · exact ⟨rfl, hlive, fun _ ↦ List.forall_mem_nil _⟩
  | take =>
      refine ⟨h.spoiled_eq, h.live, fun hopen data hdata ↦ h.unread hopen data ?_⟩
      refine List.drop_subset_drop_left _ ?_ hdata
      rw [List.length_append]
      exact Nat.le_add_right _ _
  | answer => exact ⟨h.spoiled_eq, h.live, h.unread⟩
  | @receive segments ec frame framing w harrive hr hs =>
      have hm := step_move hs
      have hkept : Kept
          { n with framing, downlink := n.downlink.drop segments.flatten.length } :=
        ⟨h.spoiled_eq, h.live, h.unread⟩
      have hauth : Unauthenticated env (.received ec (frame.load framing.buffer)) := by
        rintro _ _ ⟨⟩
      have hsent : SentConnected n.world (.received ec (frame.load framing.buffer)) := by
        rintro _ ⟨⟩
      have hqueue : QueueKept n.world (.received ec (frame.load framing.buffer)) := by
        rintro _ _ ⟨⟩
      refine hkept.goTo (hm.live hauth hsent h.live)
        (hm.lends hi h.live hauth hsent hqueue (epoch_received hs)) ?_
      rintro ec' frame' ⟨⟩ hec
      exact hreplies segments rfl harrive (receiving_received hs) ec frame framing hr hec

end Network

end Connector

end Tntpp
