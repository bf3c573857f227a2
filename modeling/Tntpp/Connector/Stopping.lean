import Tntpp.Connector.Steps

/-!
# Stopping

The destructor of a connector sets `m_s = Stopped` on the strand, at whatever point the
receive loop is suspended.  The loop assigns `m_s = Connected` after it has connected and
authenticated, without looking at what `m_s` is by then; it holds a reference to the
connector while it does, so the destructor cannot have run.  If the reference it holds is
the last one, the destructor runs where the loop lets go of it: after the assignment, or
before the next attempt.  `StopEvent` adds this to the events of a connector.

`Halting` is what every function does once the connector is stopped.
-/

namespace Tntpp

namespace Connector

open Transition

namespace World

/-- The job of the destructor. -/
def destroy (w : World) : World := { w with s := .stopped, destructor := .done }.stop

/-- The rest of `send_request`, behind the call of the handler, reads `this`. -/
def readsThis (env : Environment) (w : World) : World :=
  if w.destructor = .alive ∨ env.freedReadable then w else { w with loop := .aborted }

/-- `authenticate`, where letting go of the connector does `release`. -/
def authenticateReleasing (env : Environment) (release : World → World) (w : World) : World :=
  match asyncAuth env.scramblePassword env.credentials w.salt with
  | .completed ec =>
    if ec.failed then goOn env (release w)
    else { release { w with s := .connected } with loop := .receiving }
  | .sent username scramble =>
    let id := w.requestId
    let packer := authRequest env.mp id username scramble
    { w with requestId := id + 1, loop := .authenticating }.sendRequest
      (fun w ↦ readsThis env (goOn env (release w))) ⟨id, packer.stream⟩
  | .thrown | .undefined _ => { w with loop := .aborted }

end World

/-- What can happen on the strand, with the loop's own reference to the connector. -/
inductive StopEvent where
  /-- An event after which someone else still refers to the connector, or nobody has. -/
  | event (e : Event)
  /-- The greeting is read and the connector locked, and everybody else drops it while the
  loop authenticates. -/
  | greetedLast (salt : List UInt8)

/-- The event resumes the receive loop. -/
def StopEvent.resumes : StopEvent → Bool
  | .event .start | .event (.resolved ..) | .event (.connected _) | .event .vanished
  | .event (.greeted ..) | .event (.received ..) | .greetedLast _ => true
  | .event (.rehash _) | .event .generateId | .event (.send _) | .event (.writeDone ..)
  | .event .drop | .event .stop => false

/-- One function on the strand. -/
def stepStopping (env : Environment) (w : World) : StopEvent → Option World
  | .event e => step env w e
  | .greetedLast salt =>
    match w.loop with
    | .greeting _ =>
      if w.destructor = .alive then
        some (World.authenticateReleasing env World.destroy { w with salt })
      else none
    | _ => none

/-! ## The place of the loop -/

/-- The loop has ended. -/
def Loop.Ended : Loop → Prop
  | .finished | .failed | .aborted => True
  | .spawned | .resolving | .connecting _ | .greeting _ | .authenticating | .receiving => False

/-- The loop has ended, or it is in the middle of a call of `connect`. -/
def Loop.Quits : Loop → Prop
  | .connecting _ | .greeting _ | .finished | .failed | .aborted => True
  | .spawned | .resolving | .authenticating | .receiving => False

theorem Loop.Ended.quits {loop : Loop} (h : loop.Ended) : loop.Quits := by
  cases loop <;> trivial

/-! ## What is recorded once the connector is stopped -/

/-- Every reset has completed what it has called with `operation_canceled`, and nothing else
was completed with `broken_pipe`.  The latest act comes first. -/
inductive CanceledOnly : List Act → Prop where
  /-- Nothing has happened. -/
  | nil : CanceledOnly []
  /-- A handler is completed, and not by a reset. -/
  | completed {acts : List Act} (h : HandlerId) {ec : ErrorCode} (frame : IprotoFrame (List UInt8))
    (hec : ec ≠ Errc.brokenPipe.code) (hacts : CanceledOnly acts) :
    CanceledOnly (.ledger (.completed h ec frame) :: acts)
  /-- A request is accepted. -/
  | accepted {acts : List Act} (h : HandlerId) (epoch : Nat) (hacts : CanceledOnly acts) :
    CanceledOnly (.ledger (.accepted h epoch) :: acts)
  /-- Bytes are sent. -/
  | sendData {acts : List Act} (data : Buffer) (hacts : CanceledOnly acts) :
    CanceledOnly (.sendData data :: acts)
  /-- Bytes are written. -/
  | asyncWrite {acts : List Act} (write : Write Buffer) (epoch : Nat) (hacts : CanceledOnly acts) :
    CanceledOnly (.asyncWrite write epoch :: acts)
  /-- A reset. -/
  | reset {acts : List Act} (registered called : List HandlerId) (threw : Bool)
    (hacts : CanceledOnly acts) :
    CanceledOnly (.reset registered called threw ::
      ((Ledger.callsOf Errc.operationCanceled.code called).map Act.ledger ++ acts))

theorem CanceledOnly.append {acts acts' : List Act} (h' : CanceledOnly acts')
    (h : CanceledOnly acts) : CanceledOnly (acts' ++ acts) := by
  induction h' with
  | nil => exact h
  | completed handler frame hec _ ih => exact .completed handler frame hec ih
  | accepted handler epoch _ ih => exact .accepted handler epoch ih
  | sendData data _ ih => exact .sendData data ih
  | asyncWrite write epoch _ ih => exact .asyncWrite write epoch ih
  | reset registered called threw _ ih =>
      rw [List.cons_append, List.append_assoc]
      exact .reset registered called threw ih

namespace World

variable {env : Environment} {w w' : World}

/-- The account goes on with acts of a stopped connector. -/
def OnlyCancels (w w' : World) : Prop :=
  ∃ acts, w'.history = acts ++ w.history ∧ CanceledOnly acts

theorem OnlyCancels.trans {w'' : World} (h : OnlyCancels w w') (h' : OnlyCancels w' w'') :
    OnlyCancels w w'' := by
  obtain ⟨acts, hacts, hc⟩ := h
  obtain ⟨acts', hacts', hc'⟩ := h'
  refine ⟨acts' ++ acts, ?_, hc'.append hc⟩
  rw [hacts', hacts, List.append_assoc]

theorem OnlyCancels.of_eq (h : w'.history = w.history) : OnlyCancels w w' := ⟨[], h, .nil⟩

/-- A function that neither starts nor stops a connector: one that is stopped stays so, and
only cancels. -/
structure Halting (w w' : World) : Prop where
  /-- The destructor is where it was. -/
  destructor_eq : w'.destructor = w.destructor
  /-- A stopped connector stays stopped. -/
  stopped : w.s = .stopped → w'.s = .stopped
  /-- All that is completed is canceled. -/
  cancels : w.s = .stopped → OnlyCancels w w'

namespace Halting

theorem trans {w'' : World} (h : Halting w w') (h' : Halting w' w'') : Halting w w'' where
  destructor_eq := h'.destructor_eq.trans h.destructor_eq
  stopped hs := h'.stopped (h.stopped hs)
  cancels hs := (h.cancels hs).trans (h'.cancels (h.stopped hs))

/-- Functions that complete nothing. -/
theorem of_eq (hd : w'.destructor = w.destructor) (hs : w'.s = w.s)
    (hh : w'.history = w.history) : Halting w w' :=
  ⟨hd, fun h ↦ hs.trans h, fun _ ↦ .of_eq hh⟩

theorem resetCode_of_stopped (hs : w.s = .stopped) : w.resetCode = Errc.operationCanceled.code :=
  if_pos hs

theorem resetState_of_stopped (hs : w.s = .stopped) : w.resetState = .stopped := by
  rw [resetState, hs]
  rfl

theorem onlyCancels_recordReset (w : World) (called : List HandlerId) (threw : Bool) :
    OnlyCancels w (w.recordReset Errc.operationCanceled.code called threw) := by
  refine ⟨_, ?_, .reset (w.requests.filterMap Prod.snd) called threw .nil⟩
  rw [List.append_nil]
  rfl

theorem reset_ok (h : w.reset = .ok w') : Halting w w' := by
  rw [reset_eq] at h
  split_ifs at h
  obtain rfl := Except.ok.inj h
  refine ⟨rfl, resetState_of_stopped, fun hs ↦ ?_⟩
  rw [resetCode_of_stopped hs]
  exact onlyCancels_recordReset w _ _

theorem reset_error (h : w.reset = .error w') : Halting w w' := by
  rw [reset_eq] at h
  split_ifs at h
  obtain rfl := Except.error.inj h
  refine ⟨rfl, resetState_of_stopped, fun hs ↦ ?_⟩
  rw [resetCode_of_stopped hs]
  exact onlyCancels_recordReset w _ _

theorem setLoop (w : World) (loop : Loop) : Halting w { w with loop } := .of_eq rfl rfl rfl

theorem loopRelation : LoopRelation Halting := ⟨trans, setLoop, reset_ok, reset_error⟩

theorem sendData (w : World) (data : Buffer) : Halting w (w.sendData data) := by
  refine ⟨rfl, fun hs ↦ hs, fun _ ↦ ?_⟩
  have hh := history_sendData w data
  split_ifs at hh
  · exact ⟨[.sendData data], hh, .sendData data .nil⟩
  · exact ⟨[.asyncWrite (.single data) w.epoch, .sendData data], hh,
      .asyncWrite _ _ (.sendData data .nil)⟩

theorem onDataSent (w : World) (i : Nat) (ec : ErrorCode) : Halting w (w.onDataSent i ec) := by
  refine ⟨rfl, fun hs ↦ hs, fun _ ↦ ?_⟩
  have hh := history_onDataSent w i ec
  split_ifs at hh
  · exact ⟨[.asyncWrite (.batch w.sender.conn.queue.active) w.epoch], hh, .asyncWrite _ _ .nil⟩
  · exact .of_eq hh

theorem handleMessage (w : World) (frame : IprotoFrame (List UInt8)) :
    Halting w (w.handleMessage frame) := by
  rw [handleMessage_eq]
  refine ⟨rfl, fun hs ↦ hs, fun _ ↦ ⟨_, rfl, ?_⟩⟩
  cases (w.requests.lookup frame.header.sync).join with
  | none => exact .nil
  | some h => exact .completed h frame (by decide) .nil

theorem afterRejection (w : World) (id : OperationId) (data : Buffer) :
    Halting w (w.afterRejection id data) := by
  unfold World.afterRejection
  split_ifs
  · exact .of_eq rfl rfl rfl
  · have hinsert : Halting w { w with requests := w.requests.insert id none } := .of_eq rfl rfl rfl
    exact hinsert.trans (sendData _ _)

/-- A stopped connector rejects a request. -/
theorem sendRequest {resume : World → World} (hr : ∀ w, Halting w (resume w)) (w : World)
    (request : Operation) : Halting w (w.sendRequest resume request) := by
  by_cases hs : w.s = .connected
  · rw [sendRequest_of_connected hs]
    refine ⟨rfl, fun hstopped ↦ ?_, fun hstopped ↦ ?_⟩
    all_goals cases hs.symm.trans hstopped
  rw [sendRequest_of_ne_connected hs]
  have hrejected : Halting w (w.rejected request) := by
    refine ⟨rfl, fun hs ↦ hs, fun _ ↦ ⟨[_], rfl, ?_⟩⟩
    exact .completed _ _ (by decide) .nil
  exact (hrejected.trans (hr _)).trans (afterRejection _ _ _)

theorem tryNext (w : World) (addresses : List Endpoint) :
    Halting w (World.tryNext env w addresses) := by
  cases addresses with
  | nil => exact loopRelation.goOn w
  | cons address rest => exact .of_eq rfl rfl rfl

end Halting

/-! ## Back at the top -/

theorem enter_of_stopped (hs : w.s = .stopped) (h : World.enter env w = .ok w') :
    Loop.Ended w'.loop := by
  rcases enter_cases env w with ⟨-, ⟨w₁, -, he⟩ | ⟨w₁, -, he⟩⟩ | ⟨hc, -⟩ | ⟨hc, -⟩
  · obtain rfl := Except.ok.inj (he.symm.trans h)
    trivial
  · cases he.symm.trans h
  · cases hs.symm.trans hc
  · cases hs.symm.trans hc

theorem resetEnter_of_stopped (hs : w.s = .stopped)
    (h : w.reset.bind (World.enter env) = .ok w') : Loop.Ended w'.loop := by
  cases hr : w.reset with
  | ok w₁ =>
      rw [hr] at h
      exact enter_of_stopped ((Halting.reset_ok hr).stopped hs) h
  | error w₁ =>
      rw [hr] at h
      cases h

/-- A stopped connector whose loop throws ends it, one way or another. -/
theorem catchAll_of_stopped {r : Except World World} (hok : ∀ w, r = .ok w → Loop.Ended w.loop)
    (herror : ∀ w, r = .error w → w.s = .stopped) : Loop.Ended (World.catchAll env r).loop := by
  cases r with
  | ok w₁ => exact hok w₁ rfl
  | error w₁ =>
      have hs := herror w₁ rfl
      unfold World.catchAll
      dsimp only
      split_ifs
      · trivial
      · cases hr : w₁.reset.bind (World.enter env) with
        | ok w₂ => exact resetEnter_of_stopped hs hr
        | error w₂ => trivial

/-- Back at its top, the loop of a stopped connector ends. -/
theorem goOn_of_stopped (hs : w.s = .stopped) : Loop.Ended (World.goOn env w).loop :=
  catchAll_of_stopped (fun _ ↦ enter_of_stopped hs) fun _ h ↦
    (Halting.loopRelation.enter (Or.inr h)).stopped hs

theorem resetGoOn_of_stopped (hs : w.s = .stopped) :
    Loop.Ended (World.catchAll env (w.reset.bind (World.enter env))).loop :=
  catchAll_of_stopped (fun _ ↦ resetEnter_of_stopped hs) fun _ h ↦
    (Halting.loopRelation.resetEnter (Or.inr h)).stopped hs

theorem tryNext_of_stopped (hs : w.s = .stopped) (addresses : List Endpoint) :
    (World.tryNext env w addresses).loop.Quits := by
  cases addresses with
  | nil => exact (goOn_of_stopped hs).quits
  | cons address rest => trivial

/-! ## What a step does -/

/-- The connector is stopped once the destructor has run. -/
def StopsWhenDone (w : World) : Prop := w.destructor = .done → w.s = .stopped

theorem Halting.stopsWhenDone (h : Halting w w') (hw : w.StopsWhenDone) : w'.StopsWhenDone :=
  fun hd ↦ h.stopped (hw (h.destructor_eq.symm.trans hd))

theorem halting_readsThis (w : World) : Halting w (readsThis env w) := by
  unfold readsThis
  split_ifs
  · exact .of_eq rfl rfl rfl
  · exact Halting.setLoop w _

/-- A connector that others refer to is not released. -/
theorem authenticateReleasing_id (hd : w.destructor = .alive) :
    authenticateReleasing env id w = authenticate env w := by
  have hresume (v : World) (hv : v.destructor = .alive) :
      readsThis env (goOn env (id v)) = goOn env v :=
    if_pos (Or.inl ((Halting.loopRelation.goOn v).destructor_eq.trans hv))
  unfold authenticateReleasing World.authenticate
  cases asyncAuth env.scramblePassword env.credentials w.salt with
  | completed | thrown | undefined => rfl
  | sent username scramble =>
      by_cases hs : w.s = .connected
      · exact (sendRequest_of_connected (w := w.authenticating) hs _ _).trans
          (sendRequest_of_connected (w := w.authenticating) hs _ _).symm
      · refine (sendRequest_of_ne_connected (w := w.authenticating) hs _ _).trans ?_
        rw [hresume (w.authenticating.rejected _) hd]
        exact (sendRequest_of_ne_connected (w := w.authenticating) hs _ _).symm

/-- However the loop lets go of the connector, if that stops the connector it stays so. -/
theorem authenticateReleasing_stops {release : World → World}
    (hrelease : ∀ w : World, w.destructor = .alive → (release w).StopsWhenDone)
    (hw : w.destructor = .alive) : (authenticateReleasing env release w).StopsWhenDone := by
  unfold authenticateReleasing
  cases asyncAuth env.scramblePassword env.credentials w.salt with
  | completed ec =>
      dsimp only
      split_ifs
      · exact (Halting.loopRelation.goOn _).stopsWhenDone (hrelease w hw)
      · exact hrelease { w with s := .connected } hw
  | thrown | undefined =>
      intro hd
      cases hw.symm.trans hd
  | sent username scramble =>
      dsimp only
      generalize (authRequest env.mp w.requestId username scramble).stream = data
      by_cases hs : w.s = .connected
      · have heq := sendRequest_of_connected (w := w.authenticating) hs
          (fun w ↦ readsThis env (goOn env (release w))) ⟨w.requestId, data⟩
        intro hd
        change (w.authenticating.sendRequest _ _).destructor = _ at hd
        rw [heq] at hd
        cases hw.symm.trans hd
      · have heq := sendRequest_of_ne_connected (w := w.authenticating) hs
          (fun w ↦ readsThis env (goOn env (release w))) ⟨w.requestId, data⟩
        change (w.authenticating.sendRequest _ _).StopsWhenDone
        rw [heq]
        have hreleased := hrelease (w.authenticating.rejected ⟨w.requestId, data⟩) hw
        have hread (v : World) : Halting v (readsThis env (goOn env v)) :=
          (Halting.loopRelation.goOn v).trans (halting_readsThis _)
        exact (Halting.afterRejection _ _ _).stopsWhenDone
          ((hread _).stopsWhenDone hreleased)

/-- A step is that of a connector that is not being stopped, or it starts with a connector
that is not stopped yet. -/
theorem step_halting {e : StopEvent} (h : stepStopping env w e = some w') :
    Halting w w' ∨ w.destructor ≠ .done ∧ w'.StopsWhenDone := by
  cases e with
  | greetedLast salt =>
      simp only [stepStopping] at h
      split at h
      · split_ifs at h with hd
        cases h
        refine Or.inr ⟨by simp [hd], authenticateReleasing_stops ?_ hd⟩
        exact fun _ _ _ ↦ rfl
      · cases h
  | event e =>
      cases Fires.of_step h with
      | rehash | generateId => exact Or.inl (.of_eq rfl rfl rfl)
      | send request hd =>
          exact Or.inl (Halting.sendRequest (fun _ ↦ .of_eq rfl rfl rfl) w request)
      | writeDone hi ec => exact Or.inl (Halting.onDataSent w _ ec)
      | start | unresolved => exact Or.inl (Halting.loopRelation.goOn w)
      | resolved | refused | ungreeted => exact Or.inl (Halting.tryNext w _)
      | connected | closed | vanished => exact Or.inl (Halting.setLoop w _)
      | expired => exact Or.inl (.of_eq rfl rfl rfl)
      | greeted salt hl hec hd =>
          have hne : w.destructor ≠ .done := by simp [hd]
          rw [← authenticateReleasing_id (w := { w with salt }) hd]
          refine Or.inr ⟨hne, authenticateReleasing_stops ?_ hd⟩
          intro v hv hdone
          cases hv.symm.trans hdone
      | lost => exact Or.inl (Halting.loopRelation.resetGoOn w)
      | message frame =>
          exact Or.inl ((Halting.handleMessage w frame).trans (Halting.loopRelation.goOn _))
      | drop hd =>
          have hne : w.destructor ≠ .done := by simp [hd]
          exact Or.inr ⟨hne, fun hdone ↦ by cases hdone⟩
      | stop hd =>
          have hne : w.destructor ≠ .done := by simp [hd]
          exact Or.inr ⟨hne, fun _ ↦ rfl⟩

theorem loop_send (w : World) (request : Operation) : (w.sendRequest id request).loop = w.loop := by
  by_cases hs : w.s = .connected
  · rw [sendRequest_of_connected hs]
    rfl
  · rw [sendRequest_of_ne_connected hs]
    exact (afterRejection_loop _ _ _).1

/-- Once the connector is stopped, an event that resumes the loop leaves it in the middle
of `connect` or ends it, and the others leave it where it is. -/
theorem loop_of_stopped (hs : w.s = .stopped) (hd : w.destructor = .done) {e : StopEvent}
    (h : stepStopping env w e = some w') :
    if e.resumes then w'.loop.Quits else w'.loop = w.loop := by
  have halive : w.destructor ≠ .alive := by simp [hd]
  cases e with
  | greetedLast salt =>
      simp only [stepStopping, if_neg halive] at h
      split at h <;> cases h
  | event e =>
      cases Fires.of_step h with
      | rehash | generateId | writeDone => rfl
      | send request hd => exact loop_send w request
      | start | unresolved => exact (goOn_of_stopped hs).quits
      | resolved | refused | ungreeted => exact tryNext_of_stopped hs _
      | connected | closed | vanished | expired => trivial
      | greeted _ _ _ hd' => exact absurd hd' halive
      | lost => exact (resetGoOn_of_stopped hs).quits
      | message frame => exact (goOn_of_stopped ((Halting.handleMessage w frame).stopped hs)).quits
      | drop hd' => exact absurd hd' halive
      | stop hd' => cases hd.symm.trans hd'

end World

open World

/-! ## Runs -/

/-- The loop calls `connect` no more and waits for no message. -/
def NeverResumes (env : Environment) (w : World) (e : StopEvent) : Prop :=
  ∀ w', stepStopping env w e = some w' → if e.resumes then w'.loop.Quits else w'.loop = w.loop

theorem stopsWhenDone_of_exec {env : Environment} {w w' : World} {es : List StopEvent}
    (hrun : exec (stepStopping env) w es = some w') (h : w.StopsWhenDone) : w'.StopsWhenDone := by
  refine exec_invariant (I := StopsWhenDone) ?_ hrun h
  intro w e w' hstep h
  rcases step_halting hstep with hh | ⟨-, hstops⟩
  · exact hh.stopsWhenDone h
  · exact hstops

/-- A run that begins after the destructor has run. -/
theorem halting_of_exec {env : Environment} {w w' : World} {es : List StopEvent}
    (hrun : exec (stepStopping env) w es = some w') : w.destructor = .done → Halting w w' := by
  refine exec_related (R := fun w w' ↦ w.destructor = .done → Halting w w') ?_ ?_ hrun
  · exact fun _ _ ↦ .of_eq rfl rfl rfl
  · intro v e t ht u hu hd
    rcases step_halting ht with hh | ⟨hne, -⟩
    · exact hh.trans (hu (hh.destructor_eq.trans hd))
    · exact absurd hd hne

/-- After the destructor has run, whatever happens the connector stays stopped, whatever a
reset completes is canceled, and the loop neither calls `connect` nor waits for a message. -/
theorem stopped_final (env : Environment) {es fs : List StopEvent} {w w' : World}
    (hrun : exec (stepStopping env) (World.init env) es = some w) (hdone : w.destructor = .done)
    (hrest : exec (stepStopping env) w fs = some w') :
    w'.s = .stopped ∧ OnlyCancels w w' ∧ Meets (stepStopping env) (NeverResumes env) w fs := by
  have hinit : (World.init env).StopsWhenDone := fun h ↦ by cases h
  have hstopped : w.s = .stopped := stopsWhenDone_of_exec hrun hinit hdone
  have hh := halting_of_exec hrest hdone
  refine ⟨hh.stopped hstopped, hh.cancels hstopped, ?_⟩
  refine meets_of_invariant (I := fun v : World ↦ v.s = .stopped ∧ v.destructor = .done) ?_ ?_ fs
    ⟨hstopped, hdone⟩
  · intro v e v' hv' hv
    rcases step_halting hv' with hh | ⟨hne, -⟩
    · exact ⟨hh.stopped hv.1, hh.destructor_eq.trans hv.2⟩
    · exact absurd hv.2 hne
  · exact fun v e hv v' hv' ↦ loop_of_stopped hv.1 hv.2 hv'

/-- The connector is dropped while the loop resolves the host, and stopped while it waits for
the greeting. -/
def droppedRun : List StopEvent :=
  [.event .start, .event connectionReset, .event .drop, .event (.resolved {} [1]),
    .event (.connected {}), .event .stop]

/-- The greeting comes in all the same, and the loop ends. -/
theorem stopped_final_greeted :
    ∃ w w', exec (stepStopping .plain) (World.init .plain) droppedRun = some w ∧
      exec (stepStopping .plain) w [.event (.greeted {} [0x41])] = some w' ∧
      w'.s = .stopped ∧ OnlyCancels w w' ∧
      Meets (stepStopping .plain) (NeverResumes .plain) w [.event (.greeted {} [0x41])] := by
  have hruns : ∃ w, exec (stepStopping .plain) (World.init .plain) droppedRun = some w ∧
      w.destructor = .done ∧
      ∃ w', exec (stepStopping .plain) w [.event (.greeted {} [0x41])] = some w' :=
    ⟨_, rfl, rfl, _, rfl⟩
  obtain ⟨w, hrun, hdone, w', hrest⟩ := hruns
  exact ⟨w, w', hrun, hrest, stopped_final .plain hrun hdone hrest⟩

end Connector

end Tntpp
