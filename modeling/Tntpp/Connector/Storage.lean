import Tntpp.Connector.Completion
import Tntpp.Connector.Transmission

/-!
# The storage of requests

The bytes of a request are stored by its operation, and released when its handler has been
called.  The socket is given the storage and no copy: what a server has not read yet may be
read from there, as long as the socket is open.

`Move.lends` says when a step of a connector releases nothing the socket may still read: if
requests are sent while the connector is connected, and no successful write completion finds
in the queue a request whose handler has been called, then it is only a reply that can.
-/

namespace Tntpp

namespace Connector

open Transition World

/-- A write that has succeeded is not followed by one of a request whose handler has been
called. -/
def QueueKept (w : World) (e : Event) : Prop :=
  ∀ i ec, e = .writeDone i ec → ec.failed = false →
    ∀ data ∈ w.sender.conn.queue.active, ¬ w.ledger.Completed data.owner

theorem queueKept_writeDone_iff {w : World} {i : Nat} {ec : ErrorCode} :
    QueueKept w (.writeDone i ec) ↔ (ec.failed = false → ∀ data ∈ w.sender.conn.queue.active,
      data.owner ∉ Ledger.completions w.ledger.entries) := by
  simp only [QueueKept, Ledger.mem_completions]
  constructor
  · exact fun h ↦ h i ec rfl
  · rintro h i' ec' ⟨⟩
    exact h

instance QueueKept.decidable (w : World) : ∀ e, Decidable (QueueKept w e)
  | .writeDone _ _ => decidable_of_iff' _ queueKept_writeDone_iff
  | .rehash _ | .generateId | .send _ | .start | .resolved .. | .connected _ | .vanished
  | .greeted .. | .received .. | .drop | .stop => .isTrue nofun

/-- What a step has written on the connection. -/
def newlyWritten (w w' : World) : List Buffer :=
  (writtenOn w'.history w'.epoch).drop (writtenOn w.history w.epoch).length

/-- A step after which the socket is open, on the same connection, lends storage that is
kept, and releases none but that of a request it receives the reply to. -/
structure Lends (w : World) (e : Event) (w' : World) : Prop where
  /-- The socket was open. -/
  isOpen : w.isOpen = true
  /-- What is written now is stored. -/
  written : ∀ data ∈ newlyWritten w w', ¬ w'.ledger.Completed data.owner
  /-- A handler that is called is called with a reply to its request. -/
  called : ∀ h, w'.ledger.Completed h → w.ledger.Completed h ∨
    ∃ ec frame, e = .received ec frame ∧ ec.failed = false ∧
      (w.issued[h]?).map Operation.id = some frame.header.sync

namespace World

variable {w w' : World}

theorem newlyWritten_eq {new : List Buffer}
    (h : writtenOn w'.history w'.epoch = writtenOn w.history w.epoch ++ new) :
    newlyWritten w w' = new := by
  rw [newlyWritten, h, List.drop_left]

theorem Silently.newlyWritten_eq (h : Silently w w') : newlyWritten w w' = [] := by
  obtain ⟨acts, hacts, hsilent⟩ := h.history_eq
  refine World.newlyWritten_eq ?_
  rw [hacts, h.epoch_eq, writtenOn_append hsilent, List.append_nil]

end World

/-- A step that writes nothing. -/
theorem Lends.silent {w w' : World} {e : Event} (hsilent : World.Silently w w')
    (hopen : w.isOpen = true)
    (hcalled : ∀ h, w'.ledger.Completed h → w.ledger.Completed h ∨
      ∃ ec frame, e = .received ec frame ∧ ec.failed = false ∧
        (w.issued[h]?).map Operation.id = some frame.header.sync) : Lends w e w' where
  isOpen := hopen
  written := by
    rw [hsilent.newlyWritten_eq]
    exact List.forall_mem_nil _
  called := hcalled

namespace World

variable {w w' : World} {env : Environment} {e : Event}

/-- The handler that is called with a message is that of its request. -/
theorem completed_handleMessage (hi : w.Invariant) (frame : IprotoFrame (List UInt8))
    {h : HandlerId} (hc : (w.handleMessage frame).ledger.Completed h) :
    w.ledger.Completed h ∨ (w.issued[h]?).map Operation.id = some frame.header.sync := by
  have hconsistent : (w.handleMessage frame).ledger.Consistent := by
    rw [ledger_handleMessage]
    exact hi.consistent.reply frame
  obtain ⟨ec, frame', hmem⟩ := hc
  have hact := mem_history_iff.mpr hmem
  have hissued : (w.handleMessage frame).issued = w.issued := by rw [handleMessage_eq]
  rw [handleMessage_eq] at hact
  rcases List.mem_append.mp hact with hact | hact
  · obtain ⟨handler, -, heq⟩ := List.mem_map.mp hact
    cases heq
    right
    rw [← hissued]
    exact hconsistent.success_sync h {} frame hmem rfl
  · exact Or.inl ⟨ec, frame', mem_history_iff.mp hact⟩

/-- A request that is accepted is written at once, or queued. -/
theorem newlyWritten_sendData (w : World) (data : Buffer) :
    newlyWritten w (w.sendData data) ⊆ [data] := by
  cases hs : w.sender.conn.sending with
  | true =>
      have hsilent : Silently w { w with history := .sendData data :: w.history } :=
        ⟨⟨[_], rfl, List.forall_mem_singleton.mpr trivial⟩, rfl, rfl⟩
      have hnew : newlyWritten w (w.sendData data) = [] := by
        rw [newlyWritten, epoch_sendData, history_sendData, if_pos hs]
        exact hsilent.newlyWritten_eq
      rw [hnew]
      exact List.nil_subset _
  | false =>
      have hnew : newlyWritten w (w.sendData data) = [data] := by
        refine World.newlyWritten_eq ?_
        rw [epoch_sendData, history_sendData, if_neg (Bool.eq_false_iff.mp hs), writtenOn_cons,
          writtenOn_cons, Act.writtenOn, Act.writtenOn, if_pos rfl, List.append_nil]
        rfl
      rw [hnew]
      exact List.Subset.refl _

/-- What a write completion is followed by. -/
theorem newlyWritten_onDataSent (w : World) (i : Nat) (ec : ErrorCode) :
    newlyWritten w (w.onDataSent i ec) ⊆ w.sender.conn.queue.active := by
  have hhistory := history_onDataSent w i ec
  split_ifs at hhistory with hsend
  · have hnew : newlyWritten w (w.onDataSent i ec) = w.sender.conn.queue.active := by
      refine World.newlyWritten_eq ?_
      rw [epoch_writeDone, hhistory, writtenOn_cons, Act.writtenOn, if_pos rfl]
      rfl
    rw [hnew]
    exact List.Subset.refl _
  · have hnew : newlyWritten w (w.onDataSent i ec) = [] := by
      refine World.newlyWritten_eq ?_
      rw [epoch_writeDone, hhistory, List.append_nil]
    rw [hnew]
    exact List.nil_subset _

/-- Accepting a request calls nobody, and writes the request at most. -/
theorem lends_accepted (hi : w.Invariant) (request : Operation) (hopen : w.isOpen = true) :
    Lends w e ((w.accepted request).sendData (w.nextBuffer request)) := by
  have hcalled : ∀ h, ((w.accepted request).sendData (w.nextBuffer request)).ledger.Completed h →
      w.ledger.Completed h := by
    intro h hc
    rw [ledger_sendData, ledger_accepted] at hc
    exact Ledger.completed_accept.mp hc
  have hsame : writtenOn (w.accepted request).history w.epoch = writtenOn w.history w.epoch := by
    obtain ⟨acts, hacts, hsilent⟩ := (silently_accepted w request).history_eq
    rw [hacts, writtenOn_append hsilent]
  have hnew : newlyWritten w ((w.accepted request).sendData (w.nextBuffer request)) ⊆
      [w.nextBuffer request] := by
    have hsub := newlyWritten_sendData (w.accepted request) (w.nextBuffer request)
    rw [newlyWritten] at hsub ⊢
    rwa [(silently_accepted w request).epoch_eq, hsame] at hsub
  refine ⟨hopen, fun data hdata hc ↦ ?_, fun h hc ↦ Or.inl (hcalled h hc)⟩
  -- the handler of a request that is new has not been called
  obtain rfl := List.mem_singleton.mp (hnew hdata)
  exact Nat.lt_irrefl _ (hi.consistent.completed_lt _ (hcalled _ hc))

/-- A write completion calls nobody, and writes what is queued. -/
theorem lends_onDataSent {i : Nat} {ec : ErrorCode} (hqueue : QueueKept w (.writeDone i ec))
    (hopen : (w.onDataSent i ec).isOpen = true) :
    Lends w (.writeDone i ec) (w.onDataSent i ec) := by
  have hcalled : ∀ h, (w.onDataSent i ec).ledger.Completed h → w.ledger.Completed h := by
    intro h hc
    rwa [ledger_onDataSent] at hc
  -- a write that fails closes the socket
  have hstep : (w.sender.conn.onDataSent ec).1.socket.isOpen = true := hopen
  rw [Connection.socket_onDataSent] at hstep
  split_ifs at hstep with hec
  · cases hstep
  refine ⟨hstep, fun data hdata hc ↦ ?_, fun h hc ↦ Or.inl (hcalled h hc)⟩
  exact hqueue i ec rfl (Bool.eq_false_iff.mpr hec) data (newlyWritten_onDataSent w i ec hdata)
    (hcalled _ hc)

/-- As long as requests are sent while the connector is connected and the queue holds no
request whose handler has been called, a step lends storage that is kept. -/
theorem Move.lends (hm : Move env w e w') (hi : w.Invariant) (hl : w.Live)
    (hauth : Unauthenticated env e) (hsent : SentConnected w e) (hqueue : QueueKept w e)
    (hepoch : w'.epoch = w.epoch) (hopen : w'.isOpen = true) : Lends w e w' := by
  cases hm with
  | quiet hq =>
      exact .silent hq.silently (hq.isOpen hopen) fun h hc ↦ Or.inl (hq.calls hl hopen h hc)
  | generateId => exact .silent ⟨⟨[], rfl, nofun⟩, rfl, rfl⟩ hopen fun _ ↦ Or.inl
  | connectedAgain => exact .silent ⟨⟨[], rfl, nofun⟩, rfl, rfl⟩ hopen fun _ ↦ Or.inl
  | reopen => exact absurd hepoch (Nat.succ_ne_self _)
  | @message ec frame hloop hec =>
      have hquiet : Quiet (w.handleMessage frame) (World.goOn env _) := Quiet.goOn _
      have hhandled := hquiet.isOpen hopen
      refine .silent ((silently_handleMessage w frame).trans hquiet.silently) ?_ fun h hc ↦ ?_
      · rwa [handleMessage_eq] at hhandled
      · rcases completed_handleMessage hi frame
          (hquiet.calls (hl.handleMessage frame) hopen h hc) with hc | hid
        · exact Or.inl hc
        · exact Or.inr ⟨ec, frame, rfl, hec, hid⟩
  | authRequest salt hr hc => cases (hauth _ salt rfl).symm.trans hc
  | send request =>
      rw [sendRequest_of_connected (hsent request rfl)] at hopen ⊢
      rw [isOpen_sendData] at hopen
      exact lends_accepted hi request hopen
  | writeDone hlt ec => exact lends_onDataSent hqueue hopen

end World

end Connector

end Tntpp
