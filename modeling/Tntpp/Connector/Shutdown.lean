import Tntpp.Connector.Completion
import Tntpp.Connector.Recovery

/-!
# Shutdown

Once the job of the destructor has run, the receive loop ends: it tries the addresses it
has, one after the other, and no others.  When it has ended, nobody is left waiting: every
handler that was ever passed to `send_request` has been called, each once.  That is
`shuts_down`, for connectors without credentials whose requests are sent while they are
connected and somebody refers to them.

`remaining` is a potential.  Every event of the loop is paid for by it, or by the addresses
a resolver returns.
-/

namespace Tntpp

namespace Connector

open Transition World

/-- The events of the loop that the addresses of a host can cost: a connection and a
greeting for each. -/
def Event.attempts : Event → Nat
  | .resolved _ addresses => 2 * addresses.length
  | .rehash _ | .generateId | .send _ | .writeDone .. | .start | .connected _ | .vanished
  | .greeted .. | .received .. | .drop | .stop => 0

namespace World

variable {w w' : World} {env : Environment}

/-- The events that a stopped loop needs to end, apart from those that resolving a host
adds. -/
def remaining (w : World) : Nat :=
  match w.loop with
  | .spawned | .receiving | .resolving => 1
  | .connecting rest => 2 * rest.length + 2
  | .greeting rest => 2 * rest.length + 1
  | .authenticating | .finished | .failed | .aborted => 0

/-! ## The loop ends -/

theorem remaining_of_ended (h : w.loop.Ended) : w.remaining = 0 := by
  rw [remaining]
  cases hl : w.loop with
  | authenticating | finished | failed | aborted => rfl
  | spawned | resolving | connecting | greeting | receiving =>
      rw [hl] at h
      exact h.elim

/-- A stopped loop tries the addresses that are left, and no others. -/
theorem remaining_tryNext (hs : w.s = .stopped) (addresses : List Endpoint) :
    (tryNext env w addresses).remaining ≤ 2 * addresses.length := by
  cases addresses with
  | nil => exact Nat.le_of_eq (remaining_of_ended (goOn_of_stopped hs))
  | cons address rest => exact Nat.le_refl (2 * rest.length + 2)

/-- What an event of the loop of a stopped connector costs. -/
theorem remaining_step (hs : w.s = .stopped) (hd : w.destructor = .done) {e : Event}
    (hstep : step env w e = some w') :
    e.resumesLoop.toNat + w'.remaining ≤ e.attempts + w.remaining := by
  have halive : w.destructor ≠ .alive := by
    rw [hd]
    exact Destructor.noConfusion
  have hends {v : World} (hv : v.loop.Ended) (hpos : 1 ≤ w.remaining) :
      1 + v.remaining ≤ 0 + w.remaining := by
    rw [remaining_of_ended hv, Nat.zero_add]
    exact hpos
  cases Fires.of_step hstep with
  | rehash | generateId | writeDone => exact Nat.le_refl _
  | send request hd' =>
      have hl : (w.sendRequest id request).remaining = w.remaining := by
        rw [remaining, remaining, loop_send]
      rw [hl]
      exact Nat.le_refl _
  | start hl =>
      refine hends (goOn_of_stopped hs) ?_
      rw [remaining, hl]
  | unresolved addresses hl =>
      have hended : (goOn env w).remaining = 0 := remaining_of_ended (goOn_of_stopped hs)
      rw [hended, remaining, hl]
      exact Nat.le_add_left 1 _
  | @resolved ec addresses hl =>
      have hle : (tryNext env w addresses).remaining ≤ 2 * addresses.length :=
        remaining_tryNext hs addresses
      have hw : w.remaining = 1 := by rw [remaining, hl]
      rw [hw, Nat.add_comm]
      exact Nat.add_le_add_right hle 1
  | @refused ec rest hl =>
      have hle : (tryNext env w rest).remaining ≤ 2 * rest.length := remaining_tryNext hs rest
      have hw : w.remaining = 2 * rest.length + 2 := by rw [remaining, hl]
      show 1 + _ ≤ 0 + _
      omega
  | @connected ec rest hl =>
      have hw : w.remaining = 2 * rest.length + 2 := by rw [remaining, hl]
      rw [hw]
      show 1 + (2 * rest.length + 1) ≤ 0 + (2 * rest.length + 2)
      omega
  | closed hl | vanished hl =>
      refine hends (v := { w with loop := .aborted }) trivial ?_
      rw [remaining, hl]
      exact Nat.le_add_left 1 _
  | @ungreeted ec salt rest hl =>
      have hle : (tryNext env w rest).remaining ≤ 2 * rest.length := remaining_tryNext hs rest
      have hw : w.remaining = 2 * rest.length + 1 := by rw [remaining, hl]
      show 1 + _ ≤ 0 + _
      omega
  | expired salt hl =>
      refine hends (v := { w with salt, loop := .finished }) trivial ?_
      rw [remaining, hl]
      exact Nat.le_add_left 1 _
  | greeted _ _ _ hd' => exact absurd hd' halive
  | lost frame hl =>
      refine hends (resetGoOn_of_stopped hs) ?_
      rw [remaining, hl]
  | message frame hl =>
      refine hends (goOn_of_stopped ((Halting.handleMessage w frame).stopped hs)) ?_
      rw [remaining, hl]
  | drop hd' => exact absurd hd' halive
  | stop hd' => cases hd.symm.trans hd'

/-- As long as the loop has not ended, an event it waits for can happen. -/
theorem Invariant.loop_progress (h : w.Invariant) (hl : ¬ w.loop.Ended) :
    ∃ e w', e.resumesLoop = true ∧ step env w e = some w' := by
  have hal : w.loop ≠ .aborted := by
    intro haborted
    rw [haborted] at hl
    exact hl trivial
  have hfires : ∃ e w', e.resumesLoop = true ∧ Fires env w e w' := by
    have hloop := h.loop
    rw [LoopInvariant] at hloop
    cases hw : w.loop with
    | spawned => exact ⟨.start, _, rfl, .start hw⟩
    | resolving => exact ⟨.resolved {} [], _, rfl, .resolved hw rfl⟩
    | connecting rest => exact ⟨.connected Errc.notConnected.code, _, rfl, .refused hw rfl⟩
    | greeting rest => exact ⟨.greeted Errc.notConnected.code [], _, rfl, .ungreeted [] hw rfl⟩
    | receiving => exact ⟨.received {} .empty, _, rfl, .message .empty hw rfl⟩
    | authenticating =>
        rw [hw] at hloop
        exact hloop.elim
    | finished | failed | aborted =>
        rw [hw] at hl
        exact absurd trivial hl
  obtain ⟨e, w', he, hfires⟩ := hfires
  exact ⟨e, w', he, step_eq_some_iff.mpr ⟨hal, hfires⟩⟩

/-! ## Nobody is left waiting -/

/-- Every request was accepted or completed. -/
def Accounted (w : World) : Prop :=
  ∀ h < w.issued.length, (∃ epoch, w.ledger.Accepted h epoch) ∨ w.ledger.Completed h

theorem Accounted.mono (h : w.Accounted) (hsuffix : w.history <:+ w'.history) {handler : HandlerId}
    (hlt : handler < w.issued.length) :
    (∃ epoch, w'.ledger.Accepted handler epoch) ∨ w'.ledger.Completed handler := by
  rcases h handler hlt with ⟨epoch, ha⟩ | ⟨ec, frame, hc⟩
  · exact Or.inl ⟨epoch, mem_entries_of_suffix hsuffix ha⟩
  · exact Or.inr ⟨ec, frame, mem_entries_of_suffix hsuffix hc⟩

/-- A request that is sent is accepted, or rejected at once. -/
theorem accounted_send (w : World) (request : Operation) :
    (∃ epoch, (w.sendRequest id request).ledger.Accepted w.issued.length epoch) ∨
      (w.sendRequest id request).ledger.Completed w.issued.length := by
  by_cases hs : w.s = .connected
  · left
    rw [sendRequest_of_connected hs, ledger_sendData]
    exact ⟨w.epoch, List.mem_cons_self⟩
  · right
    rw [sendRequest_of_ne_connected hs]
    exact ⟨_, _, mem_entries_of_suffix (history_suffix_afterRejection _ _ _) List.mem_cons_self⟩

theorem Accounted.step (h : w.Accounted) (hc : env.credentials = none) {e : Event}
    (hstep : step env w e = some w') : w'.Accounted := by
  have hm := step_move hstep
  have hsuffix := hm.history_suffix
  have hsame (hissued : w'.issued = w.issued) : w'.Accounted := by
    intro handler hlt
    rw [hissued] at hlt
    exact h.mono hsuffix hlt
  cases hm with
  | quiet hq => exact hsame hq.issued_eq
  | generateId | reopen | connectedAgain | writeDone => exact hsame rfl
  | message hl hec =>
      refine hsame ?_
      rw [(Quiet.goOn _).issued_eq, handleMessage_eq]
  | authRequest salt hr hsome => exact absurd (hc.symm.trans hsome) (Option.some_ne_none _).symm
  | send request =>
      intro handler hlt
      have hissued : (w.sendRequest id request).issued = w.issued ++ [request] :=
        issued_sendRequest (fun _ ↦ rfl) w request
      rw [hissued, List.length_append, List.length_singleton] at hlt
      rcases Nat.lt_succ_iff_lt_or_eq.mp hlt with hlt | rfl
      · exact h.mono hsuffix hlt
      · exact accounted_send w request

/-! ## No reset throws -/

theorem Live.reset_ok (h : w.Live) : ∃ v, w.reset = .ok v := by
  rw [reset_eq, (Requests.invokeAll_threw_iff _).mpr h.handler_ne]
  exact ⟨_, rfl⟩

theorem Live.enter_ok (h : w.Live) : ∃ v, enter env w = .ok v ∧ v.loop ≠ .failed := by
  obtain ⟨v, hv⟩ := h.reset_ok
  rcases enter_cases env w with ⟨-, ⟨v', -, he⟩ | ⟨v', hr, -⟩⟩ | ⟨-, loop, rfl | rfl, he⟩ | ⟨-, he⟩
  · exact ⟨_, he, Loop.noConfusion⟩
  · cases hv.symm.trans hr
  · exact ⟨_, he, Loop.noConfusion⟩
  · exact ⟨_, he, Loop.noConfusion⟩
  · exact ⟨_, he, Loop.noConfusion⟩

theorem Live.goOn_ne_failed (h : w.Live) : (goOn env w).loop ≠ .failed := by
  obtain ⟨v, hv, hl⟩ : ∃ v, enter env w = .ok v ∧ v.loop ≠ .failed := h.enter_ok
  rw [goOn, hv]
  exact hl

theorem Live.resetGoOn_ne_failed (h : w.Live) :
    (catchAll env (w.reset.bind (enter env))).loop ≠ .failed := by
  obtain ⟨v, hv⟩ := h.reset_ok
  obtain ⟨v', hv', hl⟩ : ∃ v', enter env v = .ok v' ∧ v'.loop ≠ .failed :=
    ((Quiet.reset_ok hv).live h).enter_ok
  have hbind : w.reset.bind (enter env) = .ok v' := by
    rw [hv]
    exact hv'
  rw [hbind]
  exact hl

theorem Live.tryNext_ne_failed (h : w.Live) (addresses : List Endpoint) :
    (tryNext env w addresses).loop ≠ .failed := by
  cases addresses with
  | nil => exact h.goOn_ne_failed
  | cons address rest => exact Loop.noConfusion

/-- The loop of a connector in which no empty handler is registered does not fail. -/
theorem Live.step_ne_failed (h : w.Live) (hc : env.credentials = none) (hl : w.loop ≠ .failed)
    {e : Event} (hstep : step env w e = some w') : w'.loop ≠ .failed := by
  cases Fires.of_step hstep with
  | rehash | generateId | writeDone | drop | stop => exact hl
  | send request hd =>
      rw [loop_send]
      exact hl
  | start | unresolved => exact h.goOn_ne_failed
  | resolved | refused | ungreeted => exact h.tryNext_ne_failed _
  | connected | closed | vanished | expired => exact Loop.noConfusion
  | greeted salt =>
      rw [authenticate_of_none (w := { w with salt }) hc]
      exact Loop.noConfusion
  | lost => exact h.resetGoOn_ne_failed
  | message frame => exact (h.handleMessage frame).goOn_ne_failed

end World

/-- After the destructor has run, the loop ends: each of its events is paid for by the
addresses it has left to try or is given, and until it has ended the next one can happen.
If the process is still there then, every handler has been called, each once. -/
theorem shuts_down {env : Environment} (hc : env.credentials = none) {es fs : List Event}
    {w w' : World} (hrun : exec (step env) (init env) es = some w) (hdone : w.destructor = .done)
    (hrest : exec (step env) w fs = some w')
    (hsent : Meets (step env) SentAlive (init env) (es ++ fs))
    (hids : (w'.issued.map Operation.id).Nodup) :
    fs.countP Event.resumesLoop + w'.remaining ≤ (fs.map Event.attempts).sum + w.remaining ∧
    (¬ w'.loop.Ended → ∃ e w'', e.resumesLoop = true ∧ step env w' e = some w'') ∧
    (w'.loop.Ended → w'.loop = .aborted ∨ w'.loop = .finished ∧
      (Ledger.completions w'.ledger.entries).Perm (List.range w'.issued.length)) := by
  have hwhole : exec (step env) (init env) (es ++ fs) = some w' := exec_append.mpr ⟨w, hrun, hrest⟩
  have hi : w'.Invariant := (always_invariant hwhole hids (invariant_init env)).last hwhole
  have hstopped : w.StopsWhenDone := by
    refine exec_invariant (I := StopsWhenDone) (fun v e v' hstep h ↦ ?_) hrun nofun
    rcases step_halting (e := .event e) hstep with hh | ⟨-, hstops⟩
    · exact hh.stopsWhenDone h
    · exact hstops
  refine ⟨?_, hi.loop_progress, fun hended ↦ ?_⟩
  · refine (exec_potential (I := fun v ↦ v.s = .stopped ∧ v.destructor = .done) ?_ hrest
      ⟨hstopped hdone, hdone⟩).2
    intro v e v' hstep hv
    refine ⟨?_, remaining_step hv.1 hv.2 hstep⟩
    rcases step_halting (e := .event e) hstep with hh | ⟨hne, -⟩
    · exact ⟨hh.stopped hv.1, hh.destructor_eq.trans hv.2⟩
    · exact absurd hv.2 hne
  · have hlive : w'.Live ∧ w'.loop ≠ .failed := by
      refine (always_of_meets (I := fun v ↦ v.Live ∧ v.loop ≠ .failed) ?_ hsent
        ⟨live_init env, Loop.noConfusion⟩).last hwhole
      intro v e v' hsent hstep hv
      have hm := step_move hstep
      exact ⟨hm.live (fun _ _ _ ↦ hc) hsent.connected hv.1, hv.1.step_ne_failed hc hv.2 hstep⟩
    have haccounted : w'.Accounted :=
      exec_invariant (fun _ _ _ hstep h ↦ World.Accounted.step h hc hstep) hwhole nofun
    have hloop := hi.loop
    rw [LoopInvariant] at hloop
    cases hl : w'.loop with
    | aborted => exact Or.inl rfl
    | finished =>
        rw [hl] at hloop
        refine Or.inr ⟨rfl, ?_⟩
        refine (List.perm_ext_iff_of_nodup hi.consistent.completions_nodup List.nodup_range).mpr ?_
        intro handler
        rw [Ledger.mem_completions, List.mem_range]
        refine ⟨hi.consistent.completed_lt handler, fun hlt ↦ ?_⟩
        rcases haccounted handler hlt with ⟨epoch, ha⟩ | hcompleted
        · exact hloop.2 handler epoch ha
        · exact hcompleted
    | failed => exact absurd hl hlive.2
    | spawned | resolving | connecting | greeting | authenticating | receiving =>
        rw [hl] at hended
        exact hended.elim

/-- The connection is lost under a request, and the connector is destroyed while it tries the
first of three addresses. -/
def destroyedRun : List Event :=
  [.start, .generateId, .send (pingRequest 0), connectionReset, .resolved {} [1, 2, 3], .drop,
    .stop]

/-- No address answers. -/
def refusingRun : List Event :=
  [.connected ⟨125, .system⟩, .connected ⟨111, .system⟩, .connected ⟨111, .system⟩]

/-- The loop tries them all, and ends. -/
theorem shuts_down_destroyedRun :
    ∃ w w', exec (step .plain) (init .plain) destroyedRun = some w ∧ w.remaining = 6 ∧
      exec (step .plain) w refusingRun = some w' ∧
      (Ledger.completions w'.ledger.entries).Perm (List.range 1) := by
  refine ⟨_, _, rfl, rfl, rfl, ?_⟩
  obtain ⟨-, -, hended⟩ := @shuts_down .plain rfl destroyedRun refusingRun _ _ rfl rfl rfl
    (by decide) (by decide)
  rcases hended trivial with haborted | ⟨-, hperm⟩
  · cases haborted
  · exact hperm

end Connector

end Tntpp
