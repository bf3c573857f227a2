import Tntpp.Connector.Stopping

/-!
# Recovery

A connector without credentials comes back.  After any run it is in a state from which it
gets connected, whatever the callers do in the meantime, as soon as the network works for
five events of the receive loop: `recovers`.  The exceptions are a connector that nobody
refers to, a loop that has ended, and a lost connection under an empty handler, which the
reset will meet.

That the network works includes that no write fails on an open socket.  A write of an
earlier connection whose failure is handled after the next socket was opened closes that
socket, so such failures are excluded as well.

`distance` is the number of events the loop still needs.  While the network works no event
makes it larger, and every event of the loop makes it smaller.
-/

namespace Tntpp

namespace Connector

open Transition World

/-- The events the receive loop is resumed by. -/
def Event.resumesLoop (e : Event) : Bool := (StopEvent.event e).resumes

namespace World

variable {w w' : World} {env : Environment}

/-- The network works: the host has an address, what is done on an open socket succeeds and
what is done on a closed one fails, and no write fails while the socket is open, not even
one of an earlier connection.  No peer is gone at once.  Somebody refers to the
connector. -/
def Works (w : World) : Event → Prop
  | .resolved ec addresses => ec.failed = false ∧ addresses ≠ []
  | .connected ec | .greeted ec _ | .received ec _ => ec.failed = !w.isOpen
  | .writeDone _ ec => ec.failed = true → w.isOpen = false
  | .vanished | .drop => False
  | .rehash _ | .generateId | .send _ | .start | .stop => True

instance Works.decidable (w : World) : ∀ e, Decidable (w.Works e)
  | .resolved ec addresses => inferInstanceAs (Decidable (ec.failed = false ∧ addresses ≠ []))
  | .connected ec => inferInstanceAs (Decidable (ec.failed = !w.isOpen))
  | .greeted ec _ => inferInstanceAs (Decidable (ec.failed = !w.isOpen))
  | .received ec _ => inferInstanceAs (Decidable (ec.failed = !w.isOpen))
  | .writeDone _ ec => inferInstanceAs (Decidable (ec.failed = true → w.isOpen = false))
  | .vanished => .isFalse fun h ↦ h
  | .drop => .isFalse fun h ↦ h
  | .rehash _ => .isTrue trivial
  | .generateId => .isTrue trivial
  | .send _ => .isTrue trivial
  | .start => .isTrue trivial
  | .stop => .isTrue trivial

/-- No registered handler is empty. -/
def HandlersSet (w : World) : Prop := ∀ id x, (id, x) ∈ w.requests → x ≠ none

/-- A connector the network can bring back. -/
structure Recoverable (w : World) : Prop where
  /-- Somebody refers to it. -/
  alive : w.destructor = .alive
  /-- Its loop has not ended. -/
  running : w.loop ≠ .finished ∧ w.loop ≠ .failed ∧ w.loop ≠ .aborted
  /-- It has been through the reset, or does not need one, or the reset will return. -/
  resets : w.Reconnecting ∨ w.isOpen = true ∨ w.HandlersSet

/-- It is connected. -/
structure Connected (w : World) : Prop where
  /-- The loop awaits a message. -/
  loop_eq : w.loop = .receiving
  /-- Requests are accepted. -/
  s_eq : w.s = .connected
  /-- The socket is open. -/
  isOpen_eq : w.isOpen = true

/-- How many events of the loop a connector is away from being connected. -/
def distance (w : World) : Nat :=
  match w.loop with
  | .spawned => if w.isOpen then 1 else 5
  | .resolving => 3
  | .connecting _ => if w.isOpen then 2 else 4
  | .greeting _ => if w.isOpen then 1 else 4
  | .receiving => if w.isOpen then 0 else 4
  | .authenticating | .finished | .failed | .aborted => 0

/-- On its way: the place of the loop says what `m_s` is. -/
structure Recovering (w : World) : Prop where
  /-- Somebody refers to the connector. -/
  alive : w.destructor = .alive
  /-- Outside `connect` it is connected, and a reset it needs will return. -/
  loop :
    match w.loop with
    | .spawned | .receiving => w.s = .connected ∧ (w.isOpen = true ∨ w.HandlersSet)
    | .resolving | .connecting _ | .greeting _ => w.s = .connecting
    | .authenticating | .finished | .failed | .aborted => False

/-! ## What the loop does on its way -/

theorem goOn_of_connected (hs : w.s = .connected) : goOn env w = { w with loop := .receiving } := by
  simp [goOn, enter, catchAll, hs]

/-- No assertion fails where the socket is closed. -/
theorem goOn_of_closed (hs : w.s = .connecting) (hclosed : w.isOpen = false) :
    goOn env w = { w with loop := .resolving } := by
  simp [goOn, enter, catchAll, hs, hclosed]

/-- A connector that has lost its connection resets and connects again. -/
theorem resetEnter_of_connected (hs : w.s = .connected) (hh : w.HandlersSet) :
    ∃ v : World, catchAll env (w.reset.bind (enter env)) = { v with loop := .resolving } ∧
      v.s = .connecting ∧ v.destructor = w.destructor := by
  cases hr : w.reset with
  | error v =>
      rw [reset_eq, if_neg] at hr
      · cases hr
      · rw [(Requests.invokeAll_threw_iff _).mpr hh]
        exact Bool.false_ne_true
  | ok v =>
      obtain ⟨-, hclosed, hs', -⟩ := reset_result hr
      have hv : v.s = .connecting := by
        rw [hs', resetState, if_pos hs]
      refine ⟨v, ?_, hv, (Halting.reset_ok hr).destructor_eq⟩
      show goOn env v = _
      exact goOn_of_closed hv hclosed

theorem recovering_of_connecting (hd : w.destructor = .alive) (hs : w.s = .connecting)
    (hr : w.Reconnecting) : w.Recovering := by
  refine ⟨hd, ?_⟩
  unfold Reconnecting at hr
  cases hl : w.loop <;> simp only [hl] at hr ⊢
  all_goals exact hs

/-- A connector that has to do with the next address is at most three events away. -/
theorem tryNext_recovering (hd : w.destructor = .alive) (hs : w.s = .connecting)
    (hclosed : w.isOpen = false) (rest : List Endpoint) :
    (tryNext env w rest).Recovering ∧ (tryNext env w rest).distance ≤ 3 := by
  cases rest with
  | nil =>
      rw [tryNext, goOn_of_closed hs hclosed]
      exact ⟨recovering_of_connecting hd hs trivial, Nat.le_refl 3⟩
  | cons address rest =>
      refine ⟨recovering_of_connecting hd hs trivial, ?_⟩
      show 2 ≤ 3
      exact Nat.le_succ 2

/-! ## A step -/

/-- What leaves the loop and the socket where they are. -/
theorem Recovering.congr (h : w.Recovering) (hd : w'.destructor = w.destructor)
    (hl : w'.loop = w.loop) (hs : w'.s = w.s) (hopen : w'.isOpen = w.isOpen)
    (hh : w.s = .connected → w.HandlersSet → w'.HandlersSet) :
    w'.Recovering ∧ w'.distance ≤ w.distance := by
  refine ⟨⟨hd.trans h.alive, ?_⟩, ?_⟩
  · have hloop := h.loop
    rw [hl, hs, hopen]
    cases hw : w.loop <;> simp only [hw] at hloop ⊢
    case spawned | receiving => exact ⟨hloop.1, hloop.2.imp_right (hh hloop.1)⟩
    case resolving | connecting | greeting => exact hloop
  · rw [distance, distance, hl, hopen]

theorem Recovering.send (h : w.Recovering) (request : Operation) :
    (w.sendRequest id request).Recovering ∧ (w.sendRequest id request).distance ≤ w.distance := by
  have hd : (w.sendRequest id request).destructor = w.destructor :=
    (Halting.sendRequest (fun _ ↦ .of_eq rfl rfl rfl) w request).destructor_eq
  by_cases hs : w.s = .connected
  · rw [sendRequest_of_connected hs] at hd ⊢
    refine h.congr hd rfl rfl (isOpen_sendData _ _) fun _ hh id x hx ↦ ?_
    rcases Requests.mem_insert hx with heq | hx
    · cases heq
      exact Option.some_ne_none _
    · exact hh id x hx
  · have hl := loop_send w request
    rw [sendRequest_of_ne_connected hs] at hd hl ⊢
    obtain ⟨-, hopen⟩ := afterRejection_loop (w.rejected request) request.id (w.nextBuffer request)
    refine h.congr hd hl ?_ hopen fun hs' ↦ absurd hs' hs
    exact (afterRejection_same _ _ _).1

theorem Recovering.onDataSent (h : w.Recovering) (i : Nat) {ec : ErrorCode}
    (hec : ec.failed = true → w.isOpen = false) :
    (w.onDataSent i ec).Recovering ∧ (w.onDataSent i ec).distance ≤ w.distance := by
  refine h.congr rfl rfl rfl ?_ fun _ hh ↦ hh
  show (w.sender.conn.onDataSent ec).1.socket.isOpen = _
  rw [Connection.socket_onDataSent]
  split_ifs with hfailed
  · exact (hec hfailed).symm
  · rfl

theorem recovering_of_connected (hd : w.destructor = .alive) (hs : w.s = .connected)
    (hl : w.loop = .receiving) (hh : w.isOpen = true ∨ w.HandlersSet) : w.Recovering := by
  refine ⟨hd, ?_⟩
  rw [hl]
  exact ⟨hs, hh⟩

/-- While the network works, a connector stays on its way, and every event of the loop
brings it nearer. -/
theorem Recovering.step (h : w.Recovering) (hc : env.credentials = none) {e : Event}
    (hworks : w.Works e) (hstep : step env w e = some w') :
    w'.Recovering ∧ w'.distance ≤ w.distance - e.resumesLoop.toNat := by
  have hd := h.alive
  have hloop := h.loop
  cases Fires.of_step hstep with
  | rehash hperm => exact h.congr rfl rfl rfl rfl fun _ hh id x hx ↦ hh id x (hperm.subset hx)
  | generateId => exact h.congr rfl rfl rfl rfl fun _ hh ↦ hh
  | send request hd' => exact h.send request
  | writeDone hi ec => exact h.onDataSent _ hworks
  | start hl =>
      rw [hl] at hloop
      rw [goOn_of_connected hloop.1]
      refine ⟨recovering_of_connected hd hloop.1 rfl hloop.2, ?_⟩
      show (if w.isOpen then 0 else 4) ≤ w.distance - 1
      rw [distance, hl]
      cases w.isOpen <;> exact Nat.le_refl _
  | unresolved addresses hl hec => cases hworks.1.symm.trans hec
  | @resolved ec addresses hl hec =>
      rw [hl] at hloop
      obtain ⟨address, rest, rfl⟩ := List.exists_cons_of_ne_nil hworks.2
      have hw : w.distance = 3 := by rw [distance, hl]
      rw [hw]
      exact ⟨recovering_of_connecting hd hloop trivial, Nat.le_refl 2⟩
  | refused hl hec =>
      rw [hl] at hloop
      have hclosed : w.isOpen = false := Bool.not_eq_true' _ ▸ (hworks.symm.trans hec)
      have hw : w.distance = 4 := by
        rw [distance, hl, hclosed]
        rfl
      rw [hw]
      exact tryNext_recovering hd hloop hclosed _
  | connected hl hec hopen =>
      rw [hl] at hloop
      have hw : w.distance = 2 := by
        rw [distance, hl, hopen]
        rfl
      rw [hw]
      refine ⟨recovering_of_connecting hd hloop trivial, ?_⟩
      show (if w.isOpen then 1 else 4) ≤ 1
      rw [hopen]
      exact Nat.le_refl 1
  | closed hl hec hclosed => cases hec.symm.trans (hworks.trans (congrArg not hclosed))
  | ungreeted salt hl hec =>
      rw [hl] at hloop
      have hclosed : w.isOpen = false := Bool.not_eq_true' _ ▸ (hworks.symm.trans hec)
      have hw : w.distance = 4 := by
        rw [distance, hl, hclosed]
        rfl
      rw [hw]
      exact tryNext_recovering hd hloop hclosed _
  | expired salt hl hec hd' => exact absurd hd hd'
  | greeted salt hl hec hd' =>
      have hopen : w.isOpen = true := Bool.not_eq_false' _ ▸ (hworks.symm.trans hec)
      have heq : authenticate env { w with salt } =
          { w with salt, s := .connected, loop := .receiving } :=
        authenticate_of_none (w := { w with salt }) hc
      rw [heq]
      refine ⟨recovering_of_connected hd rfl rfl (Or.inl hopen), ?_⟩
      show (if w.isOpen then 0 else 4) ≤ _
      rw [hopen]
      exact Nat.zero_le _
  | lost frame hl hec =>
      rw [hl] at hloop
      have hclosed : w.isOpen = false := Bool.not_eq_true' _ ▸ (hworks.symm.trans hec)
      have hh := hloop.2.resolve_left (by rw [hclosed]; exact Bool.false_ne_true)
      obtain ⟨v, hv, hs, hdv⟩ : ∃ v : World, catchAll env (w.reset.bind (enter env)) =
          { v with loop := .resolving } ∧ v.s = .connecting ∧ v.destructor = w.destructor :=
        resetEnter_of_connected hloop.1 hh
      have hw : w.distance = 4 := by
        rw [distance, hl, hclosed]
        rfl
      rw [hv, hw]
      exact ⟨recovering_of_connecting (hdv.trans hd) hs trivial, Nat.le_refl 3⟩
  | message frame hl hec =>
      rw [hl] at hloop
      have hopen : w.isOpen = true := Bool.not_eq_false' _ ▸ (hworks.symm.trans hec)
      have hs : (w.handleMessage frame).s = .connected := by
        rw [handleMessage_eq]
        exact hloop.1
      rw [goOn_of_connected hs, handleMessage_eq]
      refine ⟨recovering_of_connected hd hloop.1 rfl (Or.inl hopen), ?_⟩
      show (if w.isOpen then 0 else 4) ≤ _
      rw [hopen]
      exact Nat.zero_le _
  | vanished | drop => exact hworks.elim
  | stop hd' => cases hd.symm.trans hd'

/-- The event the loop waits for can always happen, and the network can deliver it. -/
theorem Recovering.progress (h : w.Recovering) :
    ∃ e w', e.resumesLoop = true ∧ w.Works e ∧ Connector.step env w e = some w' := by
  have hloop := h.loop
  obtain ⟨ec, hec⟩ : ∃ ec : ErrorCode, ec.failed = !w.isOpen := by
    cases w.isOpen
    · exact ⟨Errc.brokenPipe.code, rfl⟩
    · exact ⟨{}, rfl⟩
  have hal : w.loop ≠ .aborted := by
    intro hl
    rw [hl] at hloop
    exact hloop
  have hfires : ∃ e w', e.resumesLoop = true ∧ w.Works e ∧ Fires env w e w' := by
    cases hl : w.loop with
    | spawned => exact ⟨.start, _, rfl, trivial, .start hl⟩
    | resolving => exact ⟨.resolved {} [0], _, rfl, ⟨rfl, List.cons_ne_nil _ _⟩, .resolved hl rfl⟩
    | connecting rest =>
        refine ⟨.connected ec, ?_⟩
        cases hopen : w.isOpen with
        | true => exact ⟨_, rfl, hec, .connected hl (hec.trans (congrArg not hopen)) hopen⟩
        | false => exact ⟨_, rfl, hec, .refused hl (hec.trans (congrArg not hopen))⟩
    | greeting rest =>
        refine ⟨.greeted ec [], ?_⟩
        cases hopen : w.isOpen with
        | true => exact ⟨_, rfl, hec, .greeted [] hl (hec.trans (congrArg not hopen)) h.alive⟩
        | false => exact ⟨_, rfl, hec, .ungreeted [] hl (hec.trans (congrArg not hopen))⟩
    | receiving =>
        refine ⟨.received ec .empty, ?_⟩
        cases hopen : w.isOpen with
        | true => exact ⟨_, rfl, hec, .message .empty hl (hec.trans (congrArg not hopen))⟩
        | false => exact ⟨_, rfl, hec, .lost .empty hl (hec.trans (congrArg not hopen))⟩
    | authenticating | finished | failed | aborted =>
        rw [hl] at hloop
        exact hloop.elim
  obtain ⟨e, w', he, hworks, hfires⟩ := hfires
  exact ⟨e, w', he, hworks, step_eq_some_iff.mpr ⟨hal, hfires⟩⟩

/-! ## How a connector gets on its way -/

/-- A connector is stopped by nobody but its destructor. -/
def StoppedByDestructor (w : World) : Prop := w.s = .stopped → w.destructor ≠ .alive

theorem StoppedByDestructor.congr (h : w.StoppedByDestructor) (hd : w'.destructor = w.destructor)
    (hs : w'.s = .stopped → w.s = .stopped) : w'.StoppedByDestructor := by
  intro hs'
  rw [hd]
  exact h (hs hs')

/-- Back at its top, the loop stops no connector. -/
theorem stopped_loopRelation : LoopRelation fun w w' ↦ w'.s = .stopped → w.s = .stopped := by
  have hreset : ∀ w : World, w.resetState = .stopped → w.s = .stopped := by
    intro w hs
    rw [resetState] at hs
    split_ifs at hs
    exact hs
  refine ⟨fun h h' hs ↦ h (h' hs), fun _ _ hs ↦ hs, fun {w _} hr hs ↦ ?_, fun {w _} hr hs ↦ ?_⟩
  all_goals
    rw [reset_eq] at hr
    split_ifs at hr
    cases hr
    exact hreset w hs

theorem StoppedByDestructor.goOn (h : w.StoppedByDestructor) :
    (World.goOn env w).StoppedByDestructor :=
  h.congr (Halting.loopRelation.goOn w).destructor_eq (stopped_loopRelation.goOn w)

theorem StoppedByDestructor.tryNext (h : w.StoppedByDestructor) (addresses : List Endpoint) :
    (World.tryNext env w addresses).StoppedByDestructor := by
  cases addresses with
  | nil => exact h.goOn
  | cons address rest => exact h

theorem StoppedByDestructor.step (h : w.StoppedByDestructor) (hc : env.credentials = none)
    {e : Event} (hstep : Connector.step env w e = some w') : w'.StoppedByDestructor := by
  cases Fires.of_step hstep with
  | rehash | generateId | writeDone | connected | closed | vanished | expired => exact h
  | send request hd =>
      refine h.congr (Halting.sendRequest (fun _ ↦ .of_eq rfl rfl rfl) w request).destructor_eq ?_
      by_cases hs : w.s = .connected
      · rw [sendRequest_of_connected hs]
        exact fun hs' ↦ hs'
      · rw [sendRequest_of_ne_connected hs, (afterRejection_same _ _ _).1]
        exact fun hs' ↦ hs'
  | start | unresolved => exact h.goOn
  | resolved | refused | ungreeted => exact h.tryNext _
  | greeted salt hl hec hd =>
      have hs : (authenticate env { w with salt }).s = .connected := by
        rw [authenticate_of_none (w := { w with salt }) hc]
      intro hs'
      cases hs.symm.trans hs'
  | lost =>
      exact h.congr (Halting.loopRelation.resetGoOn w).destructor_eq
        (stopped_loopRelation.resetGoOn w)
  | message frame =>
      have hm : (w.handleMessage frame).StoppedByDestructor := by
        rw [handleMessage_eq]
        exact h
      exact hm.goOn
  | drop =>
      intro _
      exact Destructor.noConfusion
  | stop =>
      intro _
      exact Destructor.noConfusion

/-- In a run, a connector the network can bring back is on its way. -/
theorem Recoverable.recovering (h : w.Recoverable) (hi : w.Invariant) (hs : w.StoppedByDestructor) :
    w.Recovering := by
  have hns : w.s ≠ .stopped := fun hs' ↦ hs hs' h.alive
  have hrunning := h.running
  have hresets := h.resets
  have hloop := hi.loop
  have hcases : w.s = .connecting ∨ w.s = .connected := by
    cases hws : w.s with
    | connecting => exact Or.inl rfl
    | connected => exact Or.inr rfl
    | stopped => exact absurd hws hns
  refine ⟨h.alive, ?_⟩
  rw [LoopInvariant] at hloop
  rw [Reconnecting] at hresets
  cases hl : w.loop <;> simp only [hl] at hloop hrunning hresets ⊢
  case spawned | receiving => exact ⟨hcases.resolve_left hloop, hresets.resolve_left id⟩
  case resolving | connecting | greeting => exact hcases.resolve_right hloop.1
  case finished => exact hrunning.1 rfl
  case failed => exact hrunning.2.1 rfl
  case aborted => exact hrunning.2.2 rfl

/-- Nothing is more than five events away. -/
theorem distance_le (w : World) : w.distance ≤ 5 := by
  rw [distance]
  cases w.loop <;> cases w.isOpen <;> simp

theorem Recovering.connected (h : w.Recovering) (hd : w.distance = 0) : w.Connected := by
  have hloop := h.loop
  rw [distance] at hd
  cases hl : w.loop <;> simp only [hl] at hloop hd
  case receiving =>
    refine ⟨hl, hloop.1, ?_⟩
    by_contra hclosed
    rw [if_neg hclosed] at hd
    cases hd
  case spawned | connecting | greeting =>
    split_ifs at hd
  case resolving => cases hd

end World

/-- However a run has gone, as soon as the network works the connector gets connected: five
events of its receive loop are enough, whatever requests are sent and whatever writes
succeed between them, it stays connected after them, and the next of them can always
happen. -/
theorem recovers {env : Environment} (hc : env.credentials = none) {es fs : List Event}
    {w w' : World} (hrun : exec (step env) (init env) es = some w)
    (hids : (w.issued.map Operation.id).Nodup) (h : w.Recoverable)
    (hrun' : exec (step env) w fs = some w') (hworks : Meets (step env) Works w fs) :
    (5 ≤ fs.countP Event.resumesLoop → w'.Connected) ∧
    ∃ e w'', e.resumesLoop = true ∧ w'.Works e ∧ step env w' e = some w'' := by
  have hi := (always_invariant hrun hids (invariant_init env)).last hrun
  have hs : w.StoppedByDestructor :=
    exec_invariant (fun _ _ _ hstep h ↦ World.StoppedByDestructor.step h hc hstep) hrun nofun
  have hend : w'.Recovering ∧ w'.distance ≤ w.distance - fs.countP Event.resumesLoop :=
    exec_rank (fun _ _ _ hworks hstep h ↦ World.Recovering.step h hc hworks hstep) hrun' hworks
      (h.recovering hi hs)
  obtain ⟨hrecovering, hrank⟩ := hend
  refine ⟨fun hcount ↦ hrecovering.connected ?_, hrecovering.progress⟩
  have hle := w.distance_le
  omega

/-- A write has failed. -/
def brokenRun : List Event :=
  [.start, .generateId, .send (pingRequest 0), .writeDone 0 ⟨32, .system⟩]

/-- Five events of the loop, and a request that comes too early. -/
def recoveryRun : List Event :=
  [connectionReset, .resolved {} [1, 2], .generateId, .send (pingRequest 1), .connected {},
    .writeDone 0 {}, .greeted {} [], .received {} .empty]

/-- The connection that was lost under a request is replaced, although another request comes
too early. -/
theorem recovers_brokenRun :
    ∃ w w', exec (step .plain) (init .plain) brokenRun = some w ∧ w.isOpen = false ∧
      exec (step .plain) w recoveryRun = some w' ∧ w'.Connected := by
  refine ⟨_, _, rfl, rfl, rfl, (@recovers .plain rfl brokenRun recoveryRun _ _ rfl (by decide)
    ⟨rfl, ⟨nofun, nofun, nofun⟩, Or.inr (Or.inr ?_)⟩ rfl (by decide)).1 (by decide)⟩
  intro id x hx
  cases List.mem_singleton.mp hx
  exact Option.some_ne_none _

end Connector

end Tntpp
