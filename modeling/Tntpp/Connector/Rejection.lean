import Tntpp.Connector.Handlers

/-!
# Rejected requests

A request that is sent while the connector is not connected is rejected: its handler is
called with `not_connected`.  `RejectsAtomically` says that this is all that happens.
It never is: the function goes on after the call, registers the empty handler and
passes the bytes of the request to `send_data`, which writes them at once unless a
write is in progress.

The handlers of a `World` return.  One that throws takes the function with it, and only
then is there nothing more: `rejectsAtomically_of_throws`.
-/

namespace Tntpp

namespace Connector

open MsgPack (Codec)
open Transition World

/-- The handler of the next request is called with `not_connected`, and nothing else
changes: neither the registry, nor the queue, nor the socket, and no byte of the
request is passed to `send_data`. -/
structure RejectsAtomically (w w' : World) : Prop where
  /-- The handler is called. -/
  completed : w'.ledger.entries =
    .completed w.issued.length Errc.notConnected.code .empty :: w.ledger.entries
  /-- The registry is unchanged. -/
  requests_eq : w'.requests = w.requests
  /-- The send queue is unchanged. -/
  queue_eq : w'.sender.conn.queue = w.sender.conn.queue
  /-- `m_sending` is unchanged. -/
  sending_eq : w'.sender.conn.sending = w.sender.conn.sending
  /-- The socket is unchanged. -/
  socket_eq : w'.sender.conn.socket = w.sender.conn.socket
  /-- Nothing is passed to `send_data`. -/
  not_sent : ∀ data : Buffer, data.owner = w.issued.length → .sendData data ∉ w'.history

namespace World

variable {w w' : World} {env : Environment} {request : Operation}

/-- What the function does with a request it rejects. -/
theorem step_send_of_ne_connected (hs : w.s ≠ .connected)
    (h : step env w (.send request) = some w') :
    w' = { w.rejected request with requests := w.requests.insert request.id none }.sendData
      (w.nextBuffer request) := by
  have hl := loop_ne_aborted h
  cases Fires.of_step h
  rw [sendRequest_of_ne_connected hs, World.afterRejection]
  exact if_neg hl

/-- The bytes of a rejected request are passed to `send_data`. -/
theorem sendData_of_rejected (hs : w.s ≠ .connected) (h : step env w (.send request) = some w') :
    .sendData (w.nextBuffer request) ∈ w'.history := by
  rw [step_send_of_ne_connected hs h, history_sendData]
  split_ifs <;> simp

/-- They are written at once, whatever the state of the socket, unless a write is in
progress. -/
theorem asyncWrite_of_rejected (hs : w.s ≠ .connected)
    (h : step env w (.send request) = some w') (hidle : w.sender.conn.sending = false) :
    .asyncWrite (.single (w.nextBuffer request)) w.epoch ∈ w'.history := by
  rw [step_send_of_ne_connected hs h, history_sendData, if_neg]
  · exact List.mem_cons_self
  · exact Bool.eq_false_iff.mp hidle

/-- If one is, they are queued. -/
theorem queue_of_rejected (hs : w.s ≠ .connected) (h : step env w (.send request) = some w')
    (hbusy : w.sender.conn.sending = true) :
    w'.sender.conn.queue.active = w.sender.conn.queue.active ++ [w.nextBuffer request] := by
  rw [step_send_of_ne_connected hs h]
  show (Connection.sendData w.sender.conn (w.nextBuffer request)).1.queue.active = _
  unfold Connection.sendData
  rw [if_pos hbusy]
  rfl

end World

/-- In no state is the rejection of any request atomic whose handler returns.  The handler is
called with `not_connected`, but the bytes of the request are passed to `send_data`; if no write is
in progress they are written to the socket, and if one is, they are queued. -/
theorem not_rejectsAtomically {env : Environment} {w w' : World} {request : Operation}
    (hs : w.s ≠ .connected) (h : step env w (.send request) = some w') :
    ¬ RejectsAtomically w w' ∧
      w'.ledger.Completed w.issued.length ∧
      .sendData ⟨w.issued.length, request.data⟩ ∈ w'.history ∧
      (w.sender.conn.sending = false →
        .asyncWrite (.single ⟨w.issued.length, request.data⟩) w.epoch ∈ w'.history) ∧
      (w.sender.conn.sending = true →
        w'.sender.conn.queue.active =
          w.sender.conn.queue.active ++ [⟨w.issued.length, request.data⟩]) := by
  refine ⟨fun hr ↦ ?_, ?_, sendData_of_rejected hs h, asyncWrite_of_rejected hs h,
    queue_of_rejected hs h⟩
  · exact hr.not_sent _ rfl (sendData_of_rejected hs h)
  · have hw' := step_send_of_ne_connected hs h
    refine ⟨Errc.notConnected.code, .empty, ?_⟩
    rw [hw', ledger_sendData]
    exact List.mem_cons_self

/-- Where the handler throws instead, the exception leaves the function before the request is
registered and before its bytes are passed on. -/
theorem rejectsAtomically_of_throws {s : Iteration} (hs : s.world.s ≠ .connected) (e : Exception)
    (request : Operation)
    (hnew : ∀ data : Buffer, data.owner = s.world.issued.length →
      .sendData data ∉ s.world.history) :
    ∃ t, Running.sendRequest (throw e) request s = .error e t ∧
      RejectsAtomically s.world t.world := by
  refine ⟨⟨s.world.rejected request, s.inserted⟩, congrFun (if_pos hs) s,
    rfl, rfl, rfl, rfl, rfl, fun data hd hmem ↦ ?_⟩
  rcases List.mem_cons.mp hmem with heq | hmem
  · cases heq
  · exact hnew data hd hmem

/-- The handler of a request that is sent once the connector has stopped is called, and its
bytes go to the closed socket. -/
theorem not_rejectsAtomically_stopped :
    ∃ w w', exec (step .plain) (init .plain) [.start, .drop, .stop] = some w ∧
      step .plain w (.send (pingRequest 0)) = some w' ∧ w.s = .stopped ∧ w.isOpen = false ∧
      .asyncWrite (.single ⟨0, (pingRequest 0).data⟩) 0 ∈ w'.history := by
  have hwrite : ∀ w w', exec (step .plain) (init .plain) [.start, .drop, .stop] = some w →
      step .plain w (.send (pingRequest 0)) = some w' → w.s = .stopped →
      w.sender.conn.sending = false → w.issued.length = 0 → w.epoch = 0 →
      .asyncWrite (.single ⟨0, (pingRequest 0).data⟩) 0 ∈ w'.history := by
    intro w w' _ hw hs hidle hlen hepoch
    have hne : w.s ≠ .connected := by
      rw [hs]
      exact State.noConfusion
    have h := (not_rejectsAtomically hne hw).2.2.2.1 hidle
    rwa [hlen, hepoch] at h
  exact ⟨_, _, rfl, rfl, rfl, rfl, hwrite _ _ rfl rfl rfl rfl rfl rfl⟩

/-- The connector has lost its connection, and awaits the greeting of the next: the bytes
of a request that is rejected now are the first that are written to it. -/
theorem rejected_written_before_greeting :
    ∃ w w', exec (step .plain) (init .plain)
        [.start, connectionReset, .resolved {} [1], .connected {}] = some w ∧
      step .plain w (.send (pingRequest 0)) = some w' ∧
      w.s = .connecting ∧ w.loop = .greeting [] ∧ w.isOpen = true ∧
      .asyncWrite (.single ⟨0, (pingRequest 0).data⟩) w.epoch ∈ w'.history ∧
      ¬ RejectsAtomically w w' := by
  refine ⟨_, _, rfl, rfl, rfl, rfl, rfl, by decide, fun h ↦ ?_⟩
  exact h.not_sent ⟨0, (pingRequest 0).data⟩ rfl (by decide)

end Connector

end Tntpp
