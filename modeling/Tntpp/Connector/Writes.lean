import Tntpp.Connector.Steps

/-!
# Writes and completions

The bytes of a request belong to its operation, which ends when the handler is called;
after that they may not be written.  `WritesInTime` says of an account that no buffer
of an accepted request was handed to `async_write` after the handler was called, or on
another connection than the one the request was accepted on.

A reset completes all requests and closes the socket, but it leaves the send queue as
it is, and only a failed write clears it.  A write that has succeeded before the socket
was closed, and whose completion is handled after the reset, therefore sends what is
queued.  `writesInTime_iff` shows that this is the only way to miss the rule.
-/

namespace Tntpp

namespace Connector

open MsgPack (Codec)
open Transition World

/-- The buffers of accepted requests an act hands to `async_write` belong to requests
that are not completed and were accepted on the same connection; `earlier` is what
has happened before the act, latest first. -/
def Act.InTime (earlier : List Act) : Act → Prop
  | .asyncWrite write epoch =>
    ∀ data ∈ write.buffers, ∀ e, .ledger (.accepted data.owner e) ∈ earlier →
      (∀ ec frame, .ledger (.completed data.owner ec frame) ∉ earlier) ∧ epoch = e
  | .ledger _ | .sendData _ | .reset .. => True

/-- No buffer of an accepted request was handed to `async_write` after the completion of
the request, or on another connection. -/
def WritesInTime : List Act → Prop
  | [] => True
  | act :: earlier => act.InTime earlier ∧ WritesInTime earlier

/-- Where a write has succeeded, no accepted request in the queue is completed. -/
def QueuePending (w : World) (e : Event) : Prop :=
  ∀ i ec, e = .writeDone i ec → ec.failed = false →
    ∀ data ∈ w.sender.conn.queue.active, ∀ epoch, w.ledger.Accepted data.owner epoch →
      ¬ w.ledger.Completed data.owner

theorem WritesInTime.append {acts earlier : List Act} (h : WritesInTime earlier)
    (hacts : ∀ act ∈ acts, ∀ before, act.InTime before) : WritesInTime (acts ++ earlier) := by
  induction acts with
  | nil => exact h
  | cons act acts ih =>
      refine ⟨hacts act List.mem_cons_self _, ih ?_⟩
      exact fun act' hact' ↦ hacts act' (List.mem_cons_of_mem _ hact')

theorem Act.Quiet.inTime {act : Act} (h : act.Quiet) (earlier : List Act) :
    act.InTime earlier := by
  cases act with
  | ledger | reset => trivial
  | sendData | asyncWrite => exact h.elim

namespace World

variable {w w' : World} {env : Environment}

theorem Quiet.writesInTime (hq : Quiet w w') (h : WritesInTime w.history) :
    WritesInTime w'.history := by
  obtain ⟨acts, hacts, hquiet⟩ := hq.history_eq
  rw [hacts]
  exact h.append fun act hact ↦ (hquiet act hact).inTime

/-- Nothing is accepted by a quiet step. -/
theorem Quiet.accepted (hq : Quiet w w') {h : HandlerId} {epoch : Nat}
    (ha : w'.ledger.Accepted h epoch) : w.ledger.Accepted h epoch := by
  obtain ⟨acts, hacts, hquiet⟩ := hq.history_eq
  have hmem := mem_history_iff.mpr ha
  rw [hacts] at hmem
  rcases List.mem_append.mp hmem with hmem | hmem
  · exact (hquiet _ hmem).elim
  · exact mem_history_iff.mp hmem

/-- A buffer may be passed to `send_data` if its request is not accepted, or was accepted
on the current connection and is not completed. -/
theorem writesInTime_sendData (h : WritesInTime w.history) (data : Buffer)
    (hdata : ∀ e, w.ledger.Accepted data.owner e → ¬ w.ledger.Completed data.owner ∧ w.epoch = e) :
    WritesInTime (w.sendData data).history := by
  rw [history_sendData]
  split_ifs
  · exact ⟨trivial, h⟩
  · refine ⟨?_, trivial, h⟩
    intro data' hmem e ha
    obtain rfl := List.mem_singleton.mp hmem
    have ha' : w.ledger.Accepted data'.owner e := by
      rcases List.mem_cons.mp ha with heq | ha
      · cases heq
      · exact mem_history_iff.mp ha
    obtain ⟨hc, he⟩ := hdata e ha'
    refine ⟨fun ec frame hmem' ↦ hc ⟨ec, frame, ?_⟩, he⟩
    rcases List.mem_cons.mp hmem' with heq | hmem'
    · cases heq
    · exact mem_history_iff.mp hmem'

theorem writesInTime_afterRejection (h : WritesInTime w.history) (id : OperationId)
    {data : Buffer} (hdata : ∀ e, ¬ w.ledger.Accepted data.owner e) :
    WritesInTime (w.afterRejection id data).history := by
  unfold World.afterRejection
  split_ifs
  · exact h
  · refine writesInTime_sendData (w := { w with requests := w.requests.insert id none }) h data ?_
    exact fun e ha ↦ absurd ha (hdata e)

/-! ## The connection of a connector

Whatever a connector does, its connection is a sender of its own, so the order and the
exclusion of writes that hold of senders hold of connectors. -/

theorem Quiet.sender (hq : Quiet w w') : ∃ ses, exec Sender.step w.sender ses = some w'.sender := by
  rcases hq.sender_eq with heq | heq
  · exact ⟨[], by rw [heq]; rfl⟩
  · exact ⟨[.stop], by rw [heq]; rfl⟩

theorem sender_afterRejection (w : World) (id : OperationId) (data : Buffer) :
    ∃ ses, exec Sender.step w.sender ses = some (w.afterRejection id data).sender := by
  unfold World.afterRejection
  split_ifs
  · exact ⟨[], rfl⟩
  · exact ⟨[.sendData data], rfl⟩

theorem sender_sendRequest {resume : World → World} (hr : ∀ w, Quiet w (resume w)) (w : World)
    (request : Operation) :
    ∃ ses, exec Sender.step w.sender ses = some (w.sendRequest resume request).sender := by
  by_cases hs : w.s = .connected
  · rw [sendRequest_of_connected hs]
    exact ⟨[.sendData (w.nextBuffer request)], rfl⟩
  · rw [sendRequest_of_ne_connected hs]
    obtain ⟨ses, hses⟩ := (hr (w.rejected request)).sender
    obtain ⟨ses', hses'⟩ := sender_afterRejection (resume (w.rejected request)) request.id
      (w.nextBuffer request)
    exact ⟨ses ++ ses', exec_append.mpr ⟨_, hses, hses'⟩⟩

/-- A step of a connector is a run of its sender. -/
theorem Move.sender {e : Event} (hm : Move env w e w') :
    ∃ ses, exec Sender.step w.sender ses = some w'.sender := by
  cases hm with
  | quiet hq => exact hq.sender
  | generateId | connectedAgain => exact ⟨[], rfl⟩
  | reopen => exact ⟨[.stop, .opened], rfl⟩
  | @message ec frame hl hec =>
      have hsame : (w.handleMessage frame).sender = w.sender := by rw [handleMessage_eq]
      rw [← hsame]
      exact (Quiet.goOn _).sender
  | authRequest salt hr hc hscramble =>
      rw [authenticate_of_scramble (w := { w with salt }) hc hscramble]
      exact sender_sendRequest Quiet.goOn (authenticating { w with salt }) _
  | send request => exact sender_sendRequest Quiet.refl w request
  | @writeDone i hi ec => exact ⟨[.writeDone i ec], by rw [exec_cons]; exact ⟨_, if_pos hi, rfl⟩⟩

/-- The connection of a connector keeps to the discipline of a sender in every run. -/
theorem wellFormed_sender {es : List Event} (hrun : exec (step env) (init env) es = some w) :
    w.sender.WellFormed := by
  refine exec_invariant (I := fun w ↦ w.sender.WellFormed) ?_ hrun (Sender.wellFormed_new _)
  intro w e w' hs hw
  obtain ⟨ses, hses⟩ := (step_move hs).sender
  exact hw.exec hses

/-! ## Writes in time -/

/-- A rejected request is not accepted. -/
theorem not_accepted_rejected (hi : w.ledger.Consistent) (request : Operation) (e : Nat) :
    ¬ (w.rejected request).ledger.Accepted w.issued.length e := by
  rw [ledger_rejected]
  exact fun ha ↦ Nat.lt_irrefl _ (hi.accepted_lt _ e (Ledger.accepted_complete.mp ha))

/-- A request that is accepted is accepted now, and is not completed. -/
theorem accepted_accepted (hi : w.ledger.Consistent) (request : Operation) {e : Nat}
    (ha : (w.accepted request).ledger.Accepted w.issued.length e) :
    ¬ (w.accepted request).ledger.Completed w.issued.length ∧ (w.accepted request).epoch = e := by
  rw [ledger_accepted] at ha ⊢
  constructor
  · exact fun hc ↦ Nat.lt_irrefl _ (hi.completed_lt _ (Ledger.completed_accept.mp hc))
  · rcases Ledger.accepted_accept.mp ha with ⟨-, rfl⟩ | ha
    · rfl
    · exact absurd (hi.accepted_lt _ e ha) (Nat.lt_irrefl _)

/-- The queue is written in time if none of its accepted requests is completed. -/
theorem writesInTime_onDataSent (hi : w.ledger.Consistent) (h : WritesInTime w.history) {i : Nat}
    {ec : ErrorCode} (hq : QueuePending w (.writeDone i ec)) :
    WritesInTime (w.onDataSent i ec).history := by
  rw [history_onDataSent]
  split_ifs with hsent
  · refine ⟨?_, h⟩
    intro data hdata e ha
    have ha' := mem_history_iff.mp ha
    have hc := hq i ec rfl hsent.1 data hdata e ha'
    refine ⟨fun ec' frame hmem ↦ hc ⟨ec', frame, mem_history_iff.mp hmem⟩, ?_⟩
    rcases hi.accepted_epoch _ e ha' with hc' | he
    · exact absurd hc' hc
    · exact he.symm
  · exact h

/-- A step writes in time if it does not pick up what is completed from the queue. -/
theorem Move.writesInTime {e : Event} (hm : Move env w e w') (hi : w.Invariant)
    (hq : QueuePending w e) (h : WritesInTime w.history) : WritesInTime w'.history := by
  cases hm with
  | quiet hquiet => exact hquiet.writesInTime h
  | generateId | reopen | connectedAgain => exact h
  | message hl hec =>
      refine (Quiet.goOn _).writesInTime ?_
      rw [handleMessage_eq]
      refine h.append ?_
      intro act hact before
      obtain ⟨handler, -, rfl⟩ := List.mem_map.mp hact
      trivial
  | authRequest salt hr hc hscramble =>
      obtain ⟨hs, -⟩ := hi.of_reconnecting hr
      obtain ⟨request, -, heq⟩ :=
        authenticate_of_credentials (w := { w with salt }) hc hscramble hs
      rw [heq]
      have hquiet : Quiet ((authenticating { w with salt }).rejected request) (World.goOn env _) :=
        Quiet.goOn _
      refine writesInTime_afterRejection (hquiet.writesInTime ?_) _ fun e ha ↦ ?_
      · exact ⟨trivial, h⟩
      · refine not_accepted_rejected (w := authenticating { w with salt }) ?_ request e ?_
        · exact hi.consistent
        · exact hquiet.accepted ha
  | send request =>
      by_cases hs : w.s = .connected
      · rw [sendRequest_of_connected hs]
        refine writesInTime_sendData (w := w.accepted request) ⟨trivial, h⟩ _ ?_
        exact fun e ha ↦ accepted_accepted hi.consistent request ha
      · rw [sendRequest_of_ne_connected hs]
        refine writesInTime_afterRejection (w := w.rejected request) ⟨trivial, h⟩ _ ?_
        exact not_accepted_rejected hi.consistent request
  | writeDone hlt ec => exact writesInTime_onDataSent hi.consistent h hq

/-- Picking up a completed request from the queue is a write out of time. -/
theorem not_writesInTime {e : Event} (h : step env w e = some w') (hq : ¬ QueuePending w e) :
    ¬ WritesInTime w'.history := by
  simp only [QueuePending, not_forall, not_not] at hq
  obtain ⟨i, ec, rfl, hec, data, hdata, epoch, ha, ec', frame, hc⟩ := hq
  cases Fires.of_step h
  rw [history_onDataSent, if_pos ⟨hec, List.ne_nil_of_mem hdata⟩]
  rintro ⟨hwrite, -⟩
  exact (hwrite data hdata epoch (mem_history_iff.mpr ha)).1 ec' frame (mem_history_iff.mpr hc)

end World

/-- The buffers of accepted requests are written before their handlers are called and on
the connection of their acceptance, along a run with any order of write completions,
replies, errors, resets and reconnections, if and only if no successful write completion
finds a completed request in the queue. -/
theorem writesInTime_iff {env : Environment} {es : List Event} {w : World}
    (hrun : exec (step env) (init env) es = some w)
    (hids : (w.issued.map Operation.id).Nodup) :
    Always (step env) (fun w ↦ WritesInTime w.history) (init env) es ↔
      Meets (step env) QueuePending (init env) es := by
  refine always_iff_meets (F := Fresh) (I := fun w ↦ w.Invariant ∧ WritesInTime w.history) ?_ ?_ ?_
    hrun (meets_fresh hrun hids) ⟨invariant_init env, trivial⟩
  · exact fun w h ↦ h.2
  · intro w e w' hf hq hs h
    have hm := step_move hs
    exact ⟨hm.invariant hf h.1, hm.writesInTime h.1 hq h.2⟩
  · exact fun w e w' _ hq hs _ ↦ not_writesInTime hs hq

/-- Two requests are sent, and the second waits in the queue. -/
def queuedRun : List Event :=
  [.start, .generateId, .send (pingRequest 0), .generateId, .send (pingRequest 1)]

/-- If the write ends before the connection is lost, all writes are in time. -/
theorem writesInTime_queuedRun :
    Always (step .plain) (fun w ↦ WritesInTime w.history) (init .plain)
      (queuedRun ++ [.writeDone 0 {}, connectionReset]) := by
  refine (writesInTime_iff rfl (by decide)).mpr ?_
  have hother : ∀ w e, (∀ i ec, e ≠ .writeDone i ec) → QueuePending w e :=
    fun _ _ hne i ec heq ↦ absurd heq (hne i ec)
  refine .cons rfl (hother _ _ nofun) (.cons rfl (hother _ _ nofun) (.cons rfl (hother _ _ nofun)
    (.cons rfl (hother _ _ nofun) (.cons rfl (hother _ _ nofun) (.cons rfl ?_
      (.cons rfl (hother _ _ nofun) trivial))))))
  intro i ec _ _ data _ epoch _ hc
  have hmem : data.owner ∈ ([] : List HandlerId) := Ledger.mem_completions.mpr hc
  exact absurd hmem List.not_mem_nil

/-- If the connection is lost first, the second request is completed with `broken_pipe`, and
then its bytes are written. -/
theorem written_after_completion :
    ∃ w, exec (step .plain) (init .plain) (queuedRun ++ [connectionReset, .writeDone 0 {}]) =
        some w ∧
      w.history.head? = some (.asyncWrite (.batch [⟨1, (pingRequest 1).data⟩]) 0) ∧
      w.ledger.Accepted 1 0 ∧ .completed 1 Errc.brokenPipe.code .empty ∈ w.ledger.entries ∧
      ¬ WritesInTime w.history := by
  refine ⟨_, rfl, rfl, ?_, by decide, ?_⟩
  · show Entry.accepted 1 0 ∈ _
    decide
  · rintro ⟨hwrite, -⟩
    refine (hwrite ⟨1, (pingRequest 1).data⟩ List.mem_cons_self 0 (by decide)).1
      Errc.brokenPipe.code .empty (by decide)

end Connector

end Tntpp
