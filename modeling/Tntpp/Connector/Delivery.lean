import Mathlib.Data.List.Forall2
import Tntpp.Connector.Network

/-!
# What a server is asked

A server takes whole messages off each connection, in the order the connector has written
them, as long as what it reads is still stored: `Takes`.  `asked_inOrder` is what it then
sees of a connector over all its connections: its requests, in the order they were issued,
none of them twice.
-/

namespace Tntpp

open MsgPack (Codec)

namespace Connector

open Transition World

namespace Network

variable {mp : Codec} {env : Environment} {n n' : Network}

/-- What was written on the connections before the current one. -/
def past (n : Network) : List Buffer :=
  (List.range n.world.epoch).flatMap (writtenOn n.world.history)

/-- The server has taken the first messages written on the current connection, and some
of those written on the connections before. -/
structure Takes (mp : Codec) (n : Network) (before after done : List Buffer) : Prop where
  /-- What is on the wire was written on the current connection. -/
  written : n.wire.Sublist (writtenOn n.world.history n.world.epoch)
  /-- The server has taken whole messages. -/
  wire_eq : n.wire = before ++ after
  /-- It has taken these bytes. -/
  taken : n.taken = (before.flatMap Buffer.bytes).length
  /-- These are the messages. -/
  requests : List.Forall₂ (ReadFrom mp) (before.map Buffer.bytes) n.requests
  /-- These are the messages on all connections. -/
  asked : List.Forall₂ (ReadFrom mp) (done.map Buffer.bytes) n.asked
  /-- It has taken each once, and in order. -/
  ordered : done.Sublist (n.past ++ before)

/-- What is on the wire are buffers of issued requests, in the order of issue. -/
theorem wire_issued (hin : n.world.InOrder)
    (h : n.wire.Sublist (writtenOn n.world.history n.world.epoch)) :
    (n.past ++ n.wire).Sublist n.world.issuedBuffers := by
  have hwritten : (n.past ++ n.wire).Sublist (written n.world.history n.world.epoch) := by
    rw [written, List.range_succ, List.flatMap_append, List.flatMap_singleton]
    exact h.append_left _
  exact hwritten.trans ((List.sublist_append_left _ _).trans hin.ordered)

/-- What the server has not read is what it has not taken. -/
theorem Takes.unread_eq {before after done : List Buffer} (h : Takes mp n before after done) :
    n.unread = after := by
  have hlen := h.requests.length_eq
  rw [List.length_map] at hlen
  rw [unread, h.wire_eq, ← hlen, List.drop_left]

/-- What a server takes is the next message. -/
theorem Takes.next {before after done : List Buffer} (h : Takes mp n before after done)
    (hin : n.world.InOrder) (hframes : ∀ request ∈ n.world.issued, IsFrame mp request)
    (hspoiled : n.spoiled = false) {f : WireFrame mp} (htake : n.Readable f.bytes) :
    ∃ data after', after = data :: after' ∧ data ∈ n.world.issuedBuffers ∧
      f.bytes = data.bytes := by
  rw [Readable, hspoiled, if_neg Bool.false_ne_true] at htake
  have hdrop : n.uplink.drop n.taken = after.flatMap Buffer.bytes := by
    rw [uplink, h.wire_eq, List.flatMap_append, h.taken, List.drop_left]
  rw [hdrop] at htake
  obtain ⟨rest, hrest⟩ := htake
  cases after with
  | nil =>
      obtain ⟨hnil, -⟩ := List.append_eq_nil_iff.mp hrest
      rw [f.bytes_eq] at hnil
      cases hnil
  | cons data after =>
      have hmem : data ∈ n.world.issuedBuffers := by
        refine (wire_issued hin h.written).subset (List.mem_append_right _ ?_)
        rw [h.wire_eq]
        exact List.mem_append_right _ List.mem_cons_self
      obtain ⟨request, hrequest, hdata⟩ := mem_issuedBuffers hmem
      obtain ⟨g, hg, -⟩ := hframes request (List.mem_of_getElem? hrequest)
      have hbytes : g.bytes = data.bytes := hg.trans hdata.symm
      rw [List.flatMap_cons, ← hbytes] at hrest
      have hrest' := (WireFrame.eq_of_append hrest).2.2
      have hsame : f.bytes = g.bytes := List.append_cancel_right (hrest' ▸ hrest)
      exact ⟨data, after, rfl, hmem, hsame.trans hbytes⟩

/-- What was written on earlier connections stays. -/
theorem past_sublist {w : World} (hs : n.world.history <:+ w.history)
    {epoch : Nat} (he : epoch ≤ w.epoch) :
    ((List.range epoch).flatMap (writtenOn n.world.history)).Sublist
      ((List.range w.epoch).flatMap (writtenOn w.history)) :=
  (List.Sublist.flatMap_right _ fun e _ ↦ (writtenOn_grows hs e).sublist).trans
    ((List.range_sublist.mpr he).flatMap _)

/-- A step of the connector writes behind what was written. -/
theorem Takes.goTo {before after done : List Buffer} (h : Takes mp n before after done)
    {w : World} (hs : n.world.history <:+ w.history) (hepoch : w.epoch = n.world.epoch) :
    ∃ after', Takes mp (n.goTo w) before after' done := by
  obtain ⟨later, hlater⟩ := writtenOn_grows hs n.world.epoch
  have hnew : newlyWritten n.world w = later := by
    refine newlyWritten_eq ?_
    rw [hepoch, hlater]
  have hordered := h.ordered.trans
    ((past_sublist hs (Nat.le_of_eq hepoch.symm)).append_right before)
  unfold Network.goTo
  split_ifs
  · refine ⟨after ++ later, ?_, ?_, h.taken, h.requests, h.asked, hordered⟩
    · dsimp only
      rw [hnew, hepoch, ← hlater]
      exact h.written.append_right later
    · dsimp only
      rw [hnew, h.wire_eq, List.append_assoc]
  · refine ⟨after, ?_, h.wire_eq, h.taken, h.requests, h.asked, hordered⟩
    dsimp only
    rw [hepoch, ← hlater]
    exact h.written.trans (List.sublist_append_left _ _)

theorem Takes.moveTo {before after done : List Buffer} (h : Takes mp n before after done)
    {w : World} (hs : n.world.history <:+ w.history) (he : n.world.epoch ≤ w.epoch) :
    ∃ before' after', Takes mp (n.moveTo w) before' after' done := by
  unfold Network.moveTo
  split_ifs with hepoch
  · exact ⟨before, h.goTo hs hepoch⟩
  · refine ⟨[], [], List.nil_sublist _, rfl, rfl, .nil, h.asked, ?_⟩
    -- the connection that was current is one of those before
    have hcurrent : (n.past ++ before).Sublist
        ((List.range (n.world.epoch + 1)).flatMap (writtenOn n.world.history)) := by
      rw [List.range_succ, List.flatMap_append, List.flatMap_singleton]
      refine List.Sublist.append_left (List.Sublist.trans ?_ h.written) _
      rw [h.wire_eq]
      exact List.sublist_append_left before after
    have hpast := past_sublist hs (Nat.lt_of_le_of_ne he (Ne.symm hepoch))
    rw [List.append_nil]
    exact h.ordered.trans (hcurrent.trans hpast)

/-- What every run of a network keeps in which nothing is spoiled. -/
structure Orderly (env : Environment) (n : Network) : Prop where
  /-- The connector has run. -/
  run : ∃ es, exec (Connector.step env) (World.init env) es = some n.world
  /-- The server has taken messages in order. -/
  takes : ∃ before after done, Takes env.mp n before after done

theorem orderly_init (framing : IprotoFraming) : Orderly env (init env framing) where
  run := ⟨[], rfl⟩
  takes := ⟨[], [], [], List.nil_sublist _, rfl, rfl, .nil, .nil, List.Sublist.refl _⟩

theorem Orderly.inOrder (h : Orderly env n) : n.world.InOrder := by
  obtain ⟨es, hes⟩ := h.run
  exact exec_invariant (fun _ _ _ hs h ↦ InOrder.step h hs) hes (inOrder_init env)

/-- The invariant of the connector, where its requests have identifiers of their own. -/
theorem Orderly.invariant (h : Orderly env n)
    (hids : (n.world.issued.map Operation.id).Nodup) : n.world.Invariant := by
  obtain ⟨es, hes⟩ := h.run
  exact (always_invariant hes hids (invariant_init env)).last hes

theorem Orderly.step (h : Orderly env n) (hk : Kept n) {e : Event env.mp}
    (hf : Fires env n e n') (hframes : ∀ request ∈ n.world.issued, IsFrame env.mp request) :
    Orderly env n' := by
  obtain ⟨es, hes⟩ := h.run
  obtain ⟨before, after, done, htakes⟩ := h.takes
  have hrun {e : Connector.Event} {w : World} (hs : Connector.step env n.world e = some w) :
      ∃ es, exec (Connector.step env) (World.init env) es = some w :=
    ⟨es ++ [e], exec_append.mpr ⟨_, hes, exec_cons.mpr ⟨w, hs, rfl⟩⟩⟩
  cases hf with
  | @client e w hne hs =>
      obtain ⟨before', after', hmoved⟩ :=
        htakes.moveTo (step_move hs).history_suffix (step_move hs).epoch_le
      exact ⟨(world_moveTo n w).symm ▸ hrun hs, before', after', done, hmoved⟩
  | @take f htake =>
      obtain ⟨data, after, rfl, -, hdata⟩ := htakes.next h.inOrder hframes hk.spoiled_eq htake
      refine ⟨⟨es, hes⟩, before ++ [data], after, done ++ [data], htakes.written,
        ?_, ?_, ?_, ?_, ?_⟩
      · rw [List.append_assoc]
        exact htakes.wire_eq
      · rw [List.flatMap_append, List.flatMap_singleton, List.length_append, ← htakes.taken,
          ← hdata]
      · rw [List.map_append]
        exact List.rel_append htakes.requests (.cons ⟨f, hdata, rfl⟩ .nil)
      · rw [List.map_append]
        exact List.rel_append htakes.asked (.cons ⟨f, hdata, rfl⟩ .nil)
      · rw [← List.append_assoc]
        exact htakes.ordered.append_right [data]
  | answer reply =>
      exact ⟨⟨es, hes⟩, before, after, done, htakes.written, htakes.wire_eq, htakes.taken,
        htakes.requests, htakes.asked, htakes.ordered⟩
  | @receive segments ec frame framing w harrive hr hs =>
      have hreceived : Takes env.mp
          { n with framing, downlink := n.downlink.drop segments.flatten.length }
          before after done :=
        ⟨htakes.written, htakes.wire_eq, htakes.taken, htakes.requests, htakes.asked,
          htakes.ordered⟩
      obtain ⟨after', hmoved⟩ := hreceived.goTo (step_move hs).history_suffix (epoch_received hs)
      exact ⟨(world_goTo _ w).symm ▸ hrun hs, before, after', done, hmoved⟩

/-- A run in which requests are sent in time and read before they are answered. -/
theorem orderly_of_exec {framing : IprotoFraming} {es : List (Event env.mp)}
    (hrun : exec (step env) (init env framing) es = some n)
    (hsent : Meets (step env) (SentInTime env) (init env framing) es)
    (hreplies : Meets (step env) (RepliesRead env) (init env framing) es)
    (hids : (n.world.issued.map Operation.id).Nodup)
    (hframes : ∀ request ∈ n.world.issued, IsFrame env.mp request) : Orderly env n := by
  have halways : Always (step env) (fun n ↦ (n.world.issued.map Operation.id).Nodup →
      (∀ request ∈ n.world.issued, IsFrame env.mp request) → Orderly env n ∧ Kept n)
      (init env framing) es := by
    refine always_of_meets (fun n e n' hrule hs hn hids hframes ↦ ?_) (hsent.and hreplies)
      fun _ _ ↦ ⟨orderly_init framing, kept_init env framing⟩
    have hf := Fires.of_step hs
    have hids' := (hf.issued_grows.map Operation.id).sublist.nodup hids
    have hframes' : ∀ request ∈ n.world.issued, IsFrame env.mp request :=
      fun request hr ↦ hframes request (hf.issued_grows.subset hr)
    obtain ⟨horderly, hkept⟩ := hn hids' hframes'
    exact ⟨horderly.step hkept hf hframes',
      hkept.step (horderly.invariant hids') hf hrule.1 hrule.2⟩
  exact (halways.last hrun hids hframes).1

end Network

open Network

/-- In every run of a connector and a server, whenever the server reads, and however many
connections are lost and made again, the messages the server has read off all connections
are requests of the connector, whole and unchanged, in the order they were issued, and none
of them twice.  Requests are sent in time, and no message arrives that answers a request
before the server has read it: the storage of a request is released with its handler. -/
theorem asked_inOrder {env : Environment} (hmp : env.mp.Lawful) (framing : IprotoFraming)
    {es : List (Network.Event env.mp)} {n : Network}
    (hrun : exec (Network.step env) (Network.init env framing) es = some n)
    (hsent : Meets (Network.step env) (SentInTime env) (Network.init env framing) es)
    (hreplies : Meets (Network.step env) (RepliesRead env) (Network.init env framing) es)
    (hids : (n.world.issued.map Operation.id).Nodup)
    (hapi : ∀ request ∈ n.world.issued,
      FromApi env.mp request ∧ request.data.length < 2 ^ 32 + 5) :
    ∃ handlers : List HandlerId, handlers.Pairwise (· < ·) ∧
      List.Forall₂
        (fun h r ↦ ∃ request, n.world.issued[h]? = some request ∧ ReadFrom env.mp request.data r)
        handlers n.asked := by
  have hframes : ∀ request ∈ n.world.issued, IsFrame env.mp request := fun request hr ↦
    (hapi request hr).1.isFrame hmp (hapi request hr).2
  have horderly := orderly_of_exec hrun hsent hreplies hids hframes
  obtain ⟨before, after, done, htakes⟩ := horderly.takes
  have hdone : done.Sublist n.world.issuedBuffers := by
    refine htakes.ordered.trans
      (List.Sublist.trans ?_ (wire_issued horderly.inOrder htakes.written))
    rw [htakes.wire_eq]
    exact (List.sublist_append_left before after).append_left _
  refine ⟨done.map Buffer.owner, ?_, ?_⟩
  · refine List.Pairwise.sublist (hdone.map Buffer.owner) ?_
    rw [owners_issuedBuffers]
    exact List.pairwise_lt_range
  · have hasked := List.forall₂_map_left_iff.mp htakes.asked
    rw [List.forall₂_map_left_iff]
    refine ((List.forall₂_and_left _ _).mpr ⟨fun data hd ↦ hdone.subset hd, hasked⟩).imp ?_
    rintro data r ⟨hmem, hread⟩
    obtain ⟨request, hrequest, hdata⟩ := mem_issuedBuffers hmem
    exact ⟨request, hrequest, hdata ▸ hread⟩

/-- The first request of `reconnectedNetwork`, as the server reads it. -/
def firstPing : WireFrame Codec.reference := emptyFrame (requestHeader 0 .ping)

/-- Nothing has arrived. -/
def quietFraming : IprotoFraming := .ofBytes []

/-- The server reads the first request, then the connection is lost, and on the next one it
reads the third. -/
def reconnectedNetwork : List (Network.Event Environment.plain.mp) :=
  [.client .start, .client .generateId, .client (.send (pingRequest 0)), .client .generateId,
    .client (.send (pingRequest 1)), .client (.writeDone 0 {}), .take firstPing, .receive [],
    .client (.writeDone 0 {}), .client (.resolved {} [1]), .client (.connected {}),
    .client (.greeted {} []), .client .generateId, .client (.send (pingRequest 2)),
    .take (emptyFrame (requestHeader 2 .ping))]

/-- No message is received. -/
def Network.Unanswered (env : Environment) (n : Network) : Network.Event env.mp → Prop
  | .receive segments =>
    ∀ r ∈ (n.framing.arrive segments).receiveMessage env.mp, r.1.1.failed = true
  | .client _ | .take _ | .answer _ => True

instance (env : Environment) (n : Network) : ∀ e, Decidable (Network.Unanswered env n e)
  | .receive segments =>
    inferInstanceAs (Decidable
      (∀ r ∈ (n.framing.arrive segments).receiveMessage env.mp, r.1.1.failed = true))
  | .client _ | .take _ | .answer _ => .isTrue trivial

theorem Network.Unanswered.repliesRead {env : Environment} {n : Network}
    {e : Network.Event env.mp} (h : Network.Unanswered env n e) : RepliesRead env n e := by
  rintro segments rfl - - ec frame framing hr hec
  have hfailed : ec.failed = true := h _ hr
  cases hec.symm.trans hfailed

/-- The second request is lost with its connection, and the others are read once. -/
theorem asked_inOrder_reconnectedNetwork :
    ∃ n, exec (Network.step .plain) (Network.init .plain quietFraming) reconnectedNetwork = some n ∧
      n.world.epoch = 1 ∧
      n.asked = [(requestHeader 0 .ping, [0x80]), (requestHeader 2 .ping, [0x80])] ∧
      ∃ handlers : List HandlerId, handlers.Pairwise (· < ·) ∧
        List.Forall₂
          (fun h r ↦ ∃ request, n.world.issued[h]? = some request ∧
            ReadFrom Codec.reference request.data r)
          handlers n.asked := by
  have hsome : (exec (Network.step .plain) (Network.init .plain quietFraming)
      reconnectedNetwork).isSome = true := by decide +kernel
  obtain ⟨n, hrun⟩ := Option.isSome_iff_exists.mp hsome
  have hend : (exec (Network.step .plain) (Network.init .plain quietFraming) reconnectedNetwork).map
      (fun n ↦ (n.world.issued, n.world.epoch, n.asked)) =
        some ([pingRequest 0, pingRequest 1, pingRequest 2], 1,
          [(requestHeader 0 .ping, [0x80]), (requestHeader 2 .ping, [0x80])]) := by decide +kernel
  rw [hrun, Option.map_some, Option.some_inj, Prod.mk.injEq, Prod.mk.injEq] at hend
  obtain ⟨hissued, hepoch, hasked⟩ := hend
  have hsent : Meets (Network.step .plain) (SentInTime .plain) (Network.init .plain quietFraming)
      reconnectedNetwork := by decide +kernel
  have hreplies : Meets (Network.step .plain) (RepliesRead .plain)
      (Network.init .plain quietFraming) reconnectedNetwork :=
    Meets.mono (G := Network.Unanswered .plain) (fun _ _ h ↦ h.repliesRead) (by decide +kernel)
  refine ⟨n, hrun, hepoch, hasked,
    @asked_inOrder .plain Codec.reference_lawful quietFraming _ n hrun hsent hreplies ?_ ?_⟩
  · rw [hissued]
    decide
  rw [hissued]
  refine List.forall_mem_cons.mpr ⟨⟨⟨.ping, 0, _, rfl, rfl⟩, by decide⟩, ?_⟩
  refine List.forall_mem_cons.mpr ⟨⟨⟨.ping, 1, _, rfl, rfl⟩, by decide⟩, ?_⟩
  exact List.forall_mem_singleton.mpr ⟨⟨.ping, 2, _, rfl, rfl⟩, by decide⟩

end Connector

end Tntpp
