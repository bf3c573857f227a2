import Tntpp.Connector.Steps

/-!
# Exactly-once completion

`ExactlyOnce` is what the registry of requests promises in every state.  A connector
keeps it as long as requests are sent while it is connected, and only then: the
function that `send_request` dispatches calls the handler of a request it rejects, and
then registers the handler it has just called.  The next reset that meets it throws,
and what was registered behind it is never completed.
-/

namespace Tntpp

namespace Connector

open MsgPack (Codec)
open Transition World

/-- The promise of the registry: no handler is called twice, only handlers that were not
called are registered, every reset returns normally having called each registered
handler, and an accepted request is registered until it is completed. -/
structure ExactlyOnce (w : World) : Prop where
  /-- No handler is called twice. -/
  completions_nodup : (Ledger.completions w.ledger.entries).Nodup
  /-- Every registration holds a handler that was not called. -/
  registered : ∀ id x, (id, x) ∈ w.requests → ∃ h, x = some h ∧ ¬ w.ledger.Completed h
  /-- Every reset has returned normally, having called each registered handler. -/
  resets : ∀ registered called threw, .reset registered called threw ∈ w.history →
    threw = false ∧ called = registered
  /-- An accepted request is registered until it is completed. -/
  accepted : ∀ h epoch, w.ledger.Accepted h epoch → w.ledger.Completed h ∨ w.ledger.Pending h
  /-- Where the connector reconnects, and where its loop has ended, every accepted
  request is completed. -/
  settled : w.Reconnecting ∨ w.loop = .finished → w.ledger.Settled

/-- A request is sent only while the connector is connected. -/
def SentConnected (w : World) (e : Event) : Prop :=
  ∀ request, e = .send request → w.s = .connected

/-- A request is sent only while the connector is connected, and while somebody refers to it:
the function that sends it reads `this`. -/
def SentAlive (w : World) (e : Event) : Prop :=
  ∀ request, e = .send request → w.s = .connected ∧ w.destructor = .alive

theorem SentAlive.connected {w : World} {e : Event} (h : SentAlive w e) : SentConnected w e :=
  fun request he ↦ (h request he).1

instance SentAlive.decidable (w : World) : ∀ e, Decidable (SentAlive w e)
  | .send request =>
    decidable_of_iff (w.s = .connected ∧ w.destructor = .alive)
      ⟨fun h _ _ ↦ h, fun h ↦ h request rfl⟩
  | .rehash _ | .generateId | .writeDone .. | .start | .resolved .. | .connected _ | .vanished
  | .greeted .. | .received .. | .drop | .stop => .isTrue nofun

/-- A greeting is read only where there is nothing to authenticate with, so that no
authentication is rejected. -/
def Unauthenticated (env : Environment) (e : Event) : Prop :=
  ∀ ec salt, e = .greeted ec salt → env.credentials = none

instance Unauthenticated.decidable (env : Environment) : ∀ e, Decidable (Unauthenticated env e)
  | .greeted ec salt =>
    decidable_of_iff (env.credentials.isNone = true)
      ⟨fun h _ _ _ ↦ Option.isNone_iff_eq_none.mp h,
        fun h ↦ Option.isNone_iff_eq_none.mpr (h ec salt rfl)⟩
  | .rehash _ | .generateId | .send _ | .writeDone .. | .start | .resolved .. | .connected _
  | .vanished | .received .. | .drop | .stop => .isTrue nofun

namespace World

variable {w w' : World} {env : Environment}

/-! ## No empty handler is registered -/

theorem Live.start (h : w.Live) (r : Connection Buffer × Option (Write Buffer)) :
    (w.start r).Live where
  handler_ne := h.handler_ne
  resets := List.forall_mem_append.mpr ⟨List.forall_mem_map.mpr fun _ _ ↦ trivial, h.resets⟩

theorem Live.sendData (h : w.Live) (data : Buffer) : (w.sendData data).Live := by
  apply Live.start
  exact ⟨h.handler_ne, List.forall_mem_cons.mpr ⟨trivial, h.resets⟩⟩

theorem Live.onDataSent (h : w.Live) (i : Nat) (ec : ErrorCode) : (w.onDataSent i ec).Live := by
  apply Live.start
  exact ⟨h.handler_ne, h.resets⟩

theorem Live.accepted (h : w.Live) (request : Operation) : (w.accepted request).Live where
  handler_ne := by
    intro id x hx
    rcases Requests.mem_insert hx with heq | hx
    · cases heq
      exact Option.some_ne_none _
    · exact h.handler_ne id x hx
  resets := List.forall_mem_cons.mpr ⟨trivial, h.resets⟩

theorem Live.handleMessage (h : w.Live) (frame : IprotoFrame (List UInt8)) :
    (w.handleMessage frame).Live := by
  rw [handleMessage_eq]
  constructor
  · intro id x hx
    exact h.handler_ne id x (List.mem_of_mem_eraseP hx)
  · exact List.forall_mem_append.mpr ⟨List.forall_mem_map.mpr fun _ _ ↦ trivial, h.resets⟩

/-- As long as requests are sent only while the connector is connected, no empty handler
is registered and every reset returns normally. -/
theorem Move.live {e : Event} (hm : Move env w e w') (hc : Unauthenticated env e)
    (hsent : SentConnected w e) (h : w.Live) : w'.Live := by
  cases hm with
  | quiet hq => exact hq.live h
  | generateId | reopen | connectedAgain => exact ⟨h.handler_ne, h.resets⟩
  | message hl hec => exact (Quiet.goOn _).live (h.handleMessage _)
  | authRequest salt hr hsome => cases (hc _ salt rfl).symm.trans hsome
  | send request =>
      rw [sendRequest_of_connected (hsent request rfl)]
      exact (h.accepted request).sendData _
  | writeDone hi ec => exact h.onDataSent _ ec

theorem live_init (env : Environment) : (World.init env).Live := by
  constructor <;> simp [World.init]

/-! ## The promise -/

theorem Invariant.exactlyOnce (h : w.Invariant) (hl : w.Live) : ExactlyOnce w where
  completions_nodup := h.consistent.completions_nodup
  registered id x hx := by
    obtain ⟨handler, rfl⟩ := Option.ne_none_iff_exists'.mp (hl.handler_ne id x hx)
    exact ⟨handler, rfl, h.consistent.pending_not_completed handler ⟨id, hx⟩⟩
  resets _ _ _ hmem := hl.resets _ hmem
  accepted := h.consistent.accepted_pending
  settled hr := by
    rcases hr with hr | hfinished
    · exact (h.of_reconnecting hr).2
    · have hloop := h.loop
      rw [LoopInvariant, hfinished] at hloop
      exact hloop.2

/-- A rejected request leaves an empty handler registered. -/
theorem requests_of_rejected {request : Operation} (h : w.Invariant) (hs : w.s ≠ .connected)
    (hid : request.id ∉ w.issued.map Operation.id) (hl : w.loop ≠ .aborted) :
    (w.sendRequest id request).requests = (request.id, none) :: w.requests := by
  rw [sendRequest_of_ne_connected hs, World.afterRejection]
  have hfree : request.id ∉ w.requests.keys := mt (h.consistent.key_issued _) hid
  rw [if_neg (by exact hl)]
  exact Requests.insert_of_not_mem hfree none

end World

/-- Completion is exactly-once along a run, with any interleaving of sends, replies,
errors, reconnections and the destructor, if and only if every request is sent while
the connector is connected. -/
theorem exactlyOnce_iff {env : Environment} (hc : env.credentials = none) {es : List Event}
    {w : World} (hrun : exec (step env) (init env) es = some w)
    (hids : (w.issued.map Operation.id).Nodup) :
    Always (step env) ExactlyOnce (init env) es ↔
      Meets (step env) SentConnected (init env) es := by
  refine always_iff_meets (F := Fresh) (I := fun w ↦ w.Invariant ∧ w.Live) ?_ ?_ ?_ hrun
    (meets_fresh hrun hids) ⟨invariant_init env, live_init env⟩
  · exact fun w h ↦ h.1.exactlyOnce h.2
  · intro w e w' hf hsent hs h
    have hm := step_move hs
    exact ⟨hm.invariant hf h.1, hm.live (fun _ _ _ ↦ hc) hsent h.2⟩
  · intro w e w' hf hsent hs h hP
    simp only [SentConnected, not_forall] at hsent
    obtain ⟨request, rfl, hne⟩ := hsent
    have hreq := requests_of_rejected h.1 hne (hf request rfl) (loop_ne_aborted hs)
    cases Fires.of_step hs
    have hmem : (request.id, none) ∈ (w.sendRequest id request).requests := by
      rw [hreq]
      exact List.mem_cons_self
    obtain ⟨handler, hh, -⟩ := hP.registered _ _ hmem
    cases hh

/-- A request that is sent while connected is completed exactly once, by the reset. -/
theorem exactlyOnce_ping :
    Always (step .plain) ExactlyOnce (init .plain)
      [.start, .generateId, .send (pingRequest 0), connectionReset] := by
  refine (exactlyOnce_iff rfl rfl (by decide)).mpr ?_
  have hother : ∀ w e, (∀ request, e ≠ .send request) → SentConnected w e :=
    fun _ _ hne request heq ↦ absurd heq (hne request)
  refine .cons rfl (hother _ _ nofun) (.cons rfl (hother _ _ nofun) (.cons rfl ?_
    (.cons rfl (hother _ _ nofun) trivial)))
  exact fun _ _ ↦ rfl

/-- A run in which the first request is sent during a reconnection.  Its empty handler
stays registered across the reconnection, and when the second request, which was
accepted, has to be failed by a reset, the reset throws before it gets there. -/
def rejectedRun : List Event :=
  [.start, connectionReset, .generateId, .send (pingRequest 0), .resolved {} [1], .connected {},
    .greeted {} [], .generateId, .send (pingRequest 1), .rehash [(0, none), (1, some 1)],
    connectionReset]

/-- In this run completion is not exactly-once: the second request was accepted, its
handler was never called, and the receive loop has ended with an exception. -/
theorem accepted_never_completed :
    ∃ w, exec (step .plain) (init .plain) rejectedRun = some w ∧
      (w.issued.map Operation.id).Nodup ∧
      w.loop = .failed ∧ w.ledger.Accepted 1 1 ∧ ¬ w.ledger.Completed 1 ∧
      ¬ Always (step .plain) ExactlyOnce (init .plain) rejectedRun := by
  refine ⟨_, rfl, by decide, rfl, ?_, ?_, fun h ↦ ?_⟩
  · show Entry.accepted 1 1 ∈ _
    decide
  · rw [Ledger.Completed, ← Ledger.mem_completions]
    decide
  · have hlast := (h.last rfl).resets [1] [] true (by decide)
    exact absurd hlast.1 (by decide)

end Connector

end Tntpp
