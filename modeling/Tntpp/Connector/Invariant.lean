import Tntpp.Connector.World

/-!
# What every run of a connector keeps

Every function of the connector does to the ledger of its requests what one of the
ledger's own operations does, or nothing.  With that, consistency of the ledger is an
invariant as soon as one thing is known of the receive loop: that it opens a socket
only when no accepted request is left uncompleted.  `LoopInvariant` ties the state
`m_s` to the place where the loop is suspended, and says just that.

The invariant needs the identifiers of the requests to be distinct, as those of
`generate_id` are: a second request under a registered identifier would lose its
handler.  `Fresh` is this rule for one event.
-/

namespace Tntpp

namespace Connector

open MsgPack (Codec)

/-- What an act is to the ledger. -/
def Act.entry? : Act → Option Entry
  | .ledger entry => some entry
  | .sendData _ | .asyncWrite .. | .reset .. => none

/-- Acts in which nothing is accepted or sent, and nothing succeeds. -/
def Act.Quiet : Act → Prop
  | .ledger (.completed _ ec _) => ec.failed = true
  | .reset .. => True
  | .ledger (.accepted ..) | .sendData _ | .asyncWrite .. => False

/-- A reset that returned normally and has called every registered handler, each once. -/
def Act.ResetReturns : Act → Prop
  | .reset registered called threw => threw = false ∧ called = registered
  | .ledger _ | .sendData _ | .asyncWrite .. => True

namespace World

variable {w w' : World} {env : Environment}

/-- The account of the requests. -/
def ledger (w : World) : Ledger where
  issued := w.issued
  requests := w.requests
  entries := w.history.filterMap Act.entry?
  epoch := w.epoch

theorem mem_history_iff {entry : Entry} :
    .ledger entry ∈ w.history ↔ entry ∈ w.ledger.entries := by
  constructor
  · exact fun h ↦ List.mem_filterMap.mpr ⟨_, h, rfl⟩
  · intro h
    obtain ⟨act, hact, heq⟩ := List.mem_filterMap.mp h
    cases act with
    | ledger => exact Option.some.inj heq ▸ hact
    | sendData | asyncWrite | reset => cases heq

/-! ## The functions of the connection leave the ledger alone -/

theorem ledger_start (w : World) (r : Connection Buffer × Option (Write Buffer)) :
    (w.start r).ledger = { w.ledger with epoch := r.1.socket.epoch } := by
  obtain ⟨c, o⟩ := r
  cases o <;> rfl

@[simp] theorem ledger_sendData (w : World) (data : Buffer) :
    (w.sendData data).ledger = w.ledger := by
  rw [sendData, ledger_start, Connection.socket_sendData]
  rfl

@[simp] theorem ledger_onDataSent (w : World) (i : Nat) (ec : ErrorCode) :
    (w.onDataSent i ec).ledger = w.ledger := by
  rw [onDataSent, ledger_start, Connection.epoch_onDataSent]
  rfl

@[simp] theorem ledger_stop (w : World) : w.stop.ledger = w.ledger := rfl

/-! ## Reset -/

/-- The state after a reset. -/
def resetState (w : World) : State := if w.s = .connected then .connecting else w.s

/-- The error code of a reset. -/
def resetCode (w : World) : ErrorCode :=
  if w.s = .stopped then Errc.operationCanceled.code else Errc.brokenPipe.code

@[simp] theorem failed_resetCode (w : World) : w.resetCode.failed = true := by
  unfold resetCode
  split_ifs <;> rfl

theorem resetState_ne_connected (w : World) : w.resetState ≠ .connected := by
  unfold resetState
  split_ifs with h
  · exact State.noConfusion
  · exact h

/-- What `reset` does: it completes handlers until it meets an empty one. -/
theorem reset_eq (w : World) :
    w.reset =
      if w.requests.invokeAll.2.2 then
        .error { w.recordReset w.resetCode w.requests.invokeAll.1 true with
          s := w.resetState
          requests := w.requests.invokeAll.2.1 }
      else
        .ok { w.recordReset w.resetCode w.requests.invokeAll.1 false with
          s := w.resetState
          requests := [] }.stop := by
  cases hs : w.s <;> cases ht : w.requests.invokeAll.2.2 <;>
    simp [reset, resetState, resetCode, recordReset, hs, ht]

theorem ledger_recordReset (w : World) (ec : ErrorCode) (called : List HandlerId)
    (threw : Bool) : (w.recordReset ec called threw).ledger = w.ledger.completeAll ec called := by
  have hentries : ((Ledger.callsOf ec called).map Act.ledger ++ w.history).filterMap Act.entry? =
      Ledger.callsOf ec called ++ w.history.filterMap Act.entry? := by
    rw [List.filterMap_append, List.filterMap_map]
    congr 1
    exact List.filterMap_some
  simp only [ledger, recordReset, List.filterMap_cons, Act.entry?, hentries]
  rfl

/-- The ledger after the loop of a reset that leaves `rs` registered. -/
theorem ledger_afterCalls (w : World) (ec : ErrorCode) (called : List HandlerId) (threw : Bool)
    (s : State) (rs : Requests) :
    ({ w.recordReset ec called threw with s := s, requests := rs } : World).ledger =
      { w.ledger.completeAll ec called with requests := rs } := by
  rw [← ledger_recordReset w ec called threw]
  rfl

/-- A reset that returns normally leaves nothing registered and the socket closed, and
has called every registered handler. -/
theorem reset_result (h : w.reset = .ok w') :
    w'.requests = [] ∧ w'.isOpen = false ∧ w'.s = w.resetState ∧
      w'.ledger.entries =
        Ledger.callsOf w.resetCode (w.requests.filterMap Prod.snd) ++ w.ledger.entries := by
  rw [reset_eq] at h
  split_ifs at h with hthrew
  rw [Bool.not_eq_true] at hthrew
  obtain rfl := Except.ok.inj h
  refine ⟨rfl, rfl, rfl, ?_⟩
  rw [ledger_stop, ledger_afterCalls, Requests.invokeAll_called hthrew]
  rfl

/-- What the ledger keeps when a reset returns normally: every accepted request is
completed, and nothing is registered. -/
structure ResetDone (w w' : World) : Prop where
  /-- The ledger is consistent. -/
  consistent : w'.ledger.Consistent
  /-- Every accepted request is completed. -/
  settled : w'.ledger.Settled
  /-- The connector is not connected. -/
  s_eq : w'.s = w.resetState
  /-- Nothing is registered. -/
  requests_eq : w'.requests = []
  /-- No request was issued. -/
  issued_eq : w'.issued = w.issued

theorem reset_done (hw : w.ledger.Consistent) (h : w.reset = .ok w') : ResetDone w w' := by
  rw [reset_eq] at h
  split_ifs at h with hthrew
  rw [Bool.not_eq_true] at hthrew
  obtain rfl := Except.ok.inj h
  refine ⟨?_, ?_, rfl, rfl, rfl⟩
  · rw [ledger_stop, ledger_afterCalls]
    exact (hw.invokeAll w.failed_resetCode).forget (List.nil_sublist _) fun id h hmem ↦
      absurd (Requests.invokeAll_left _ hthrew hmem) (Option.some_ne_none h)
  · rw [ledger_stop, ledger_afterCalls]
    intro h epoch ha
    have ha' : w.ledger.Accepted h epoch := by
      rcases List.mem_append.mp ha with hmem | hmem
      · simp [Ledger.callsOf] at hmem
      · exact hmem
    rcases hw.accepted_pending h epoch ha' with ⟨ec, frame, hc⟩ | ⟨id, hp⟩
    · exact ⟨ec, frame, List.mem_append_right _ hc⟩
    · refine ⟨w.resetCode, .empty, List.mem_append_left _ ?_⟩
      have hcalled : h ∈ w.requests.invokeAll.1 := by
        rw [Requests.invokeAll_called hthrew]
        exact List.mem_filterMap.mpr ⟨(id, some h), hp, rfl⟩
      simpa [Ledger.callsOf] using hcalled

/-- A reset that throws leaves the ledger consistent too. -/
theorem reset_threw (hw : w.ledger.Consistent) (h : w.reset = .error w') :
    w'.ledger.Consistent ∧ w'.issued = w.issued := by
  rw [reset_eq] at h
  split_ifs at h
  obtain rfl := Except.error.inj h
  refine ⟨?_, rfl⟩
  rw [ledger_afterCalls]
  exact hw.invokeAll w.failed_resetCode

/-! ## Between two suspensions of the loop -/

/-- What the loop does at its top. -/
theorem enter_cases (env : Environment) (w : World) :
    (w.s = .stopped ∧
      ((∃ w₁, w.reset = .ok w₁ ∧ enter env w = .ok { w₁ with loop := .finished }) ∨
        ∃ w₁, w.reset = .error w₁ ∧ enter env w = .error w₁)) ∨
    (w.s = .connecting ∧
      ∃ loop, (loop = .aborted ∨ loop = .resolving) ∧ enter env w = .ok { w with loop }) ∨
    (w.s = .connected ∧ enter env w = .ok { w with loop := .receiving }) := by
  unfold enter
  split
  · rename_i hs
    refine Or.inl ⟨hs, ?_⟩
    cases hr : w.reset with
    | ok w₁ => exact Or.inl ⟨w₁, rfl, rfl⟩
    | error w₁ => exact Or.inr ⟨w₁, rfl, rfl⟩
  · rename_i hs
    refine Or.inr (Or.inl ⟨hs, ?_⟩)
    split_ifs
    · exact ⟨_, Or.inl rfl, rfl⟩
    · exact ⟨_, Or.inr rfl, rfl⟩
  · rename_i hs
    exact Or.inr (Or.inr ⟨hs, rfl⟩)

/-- A relation between the worlds before and after what the loop does between two
suspensions: it holds of a reset and of a move of the loop, and it composes. -/
structure LoopRelation (R : World → World → Prop) : Prop where
  /-- One after the other. -/
  trans : ∀ {w w' w'' : World}, R w w' → R w' w'' → R w w''
  /-- Only the place of the loop changes. -/
  setLoop : ∀ (w : World) (loop : Loop), R w { w with loop }
  /-- A reset that returns. -/
  reset_ok : ∀ {w w' : World}, w.reset = .ok w' → R w w'
  /-- A reset that throws. -/
  reset_error : ∀ {w w' : World}, w.reset = .error w' → R w w'

namespace LoopRelation

variable {R : World → World → Prop}

theorem enter (hR : LoopRelation R) {w w' : World}
    (h : enter env w = .ok w' ∨ enter env w = .error w') : R w w' := by
  rcases enter_cases env w with ⟨-, ⟨w₁, hr, he⟩ | ⟨w₁, hr, he⟩⟩ | ⟨-, loop, -, he⟩ | ⟨-, he⟩ <;>
    rw [he] at h
  · rcases h with h | h <;> cases h
    exact hR.trans (hR.reset_ok hr) (hR.setLoop w₁ _)
  · rcases h with h | h <;> cases h
    exact hR.reset_error hr
  · rcases h with h | h <;> cases h
    exact hR.setLoop w loop
  · rcases h with h | h <;> cases h
    exact hR.setLoop w _

theorem resetEnter (hR : LoopRelation R) {w w' : World}
    (h : w.reset.bind (World.enter env) = .ok w' ∨ w.reset.bind (World.enter env) = .error w') :
    R w w' := by
  cases hr : w.reset with
  | ok w₁ =>
      rw [hr] at h
      exact hR.trans (hR.reset_ok hr) (hR.enter h)
  | error w₁ =>
      rw [hr] at h
      rcases h with h | h
      · cases h
      · obtain rfl := Except.error.inj h
        exact hR.reset_error hr

theorem catchAll (hR : LoopRelation R) {w : World} {r : Except World World}
    (h : ∀ w', r = .ok w' ∨ r = .error w' → R w w') : R w (catchAll env r) := by
  cases r with
  | ok w₁ => exact h w₁ (Or.inl rfl)
  | error w₁ =>
      have h₁ := h w₁ (Or.inr rfl)
      unfold World.catchAll
      dsimp only
      split_ifs
      · exact hR.trans h₁ (hR.setLoop w₁ _)
      · cases hr : w₁.reset.bind (World.enter env) with
        | ok w₂ => exact hR.trans h₁ (hR.resetEnter (Or.inl hr))
        | error w₂ => exact hR.trans (hR.trans h₁ (hR.resetEnter (Or.inr hr))) (hR.setLoop w₂ _)

theorem goOn (hR : LoopRelation R) (w : World) : R w (goOn env w) :=
  hR.catchAll fun _ h ↦ hR.enter h

theorem resetGoOn (hR : LoopRelation R) (w : World) :
    R w (World.catchAll env (w.reset.bind (World.enter env))) :=
  hR.catchAll fun _ h ↦ hR.resetEnter h

end LoopRelation

/-- No registered handler is empty, and every reset so far has returned normally. -/
structure Live (w : World) : Prop where
  /-- No registered handler is empty. -/
  handler_ne : ∀ id x, (id, x) ∈ w.requests → x ≠ none
  /-- Every reset has returned normally. -/
  resets : ∀ act ∈ w.history, act.ResetReturns

/-- What a step may do that sends nothing, receives nothing and connects to nothing:
call registered handlers, and close the socket.  This is all the receive loop does
between two suspensions. -/
structure Quiet (w w' : World) : Prop where
  /-- No request is issued. -/
  issued_eq : w'.issued = w.issued
  /-- No identifier is generated. -/
  requestId_eq : w'.requestId = w.requestId
  /-- The connector does not get connected. -/
  ne_connected : w.s ≠ .connected → w'.s ≠ .connected
  /-- Nothing but calls of handlers and resets is recorded. -/
  history_eq : ∃ acts, w'.history = acts ++ w.history ∧ ∀ act ∈ acts, act.Quiet
  /-- The connection is the same, and its socket at most closed. -/
  sender_eq : w'.sender = w.sender ∨ w'.sender = w.sender.onSocket Socket.close
  /-- Where no registered handler is empty, none becomes so and stays, and a reset
  returns normally. -/
  live : w.Live → w'.Live
  /-- Where no registered handler is empty, handlers are called by resets only, which close
  the socket. -/
  calls : w.Live → w'.isOpen = true → ∀ h, w'.ledger.Completed h → w.ledger.Completed h

namespace Quiet

/-- Nothing is recorded, and nothing is registered. -/
theorem of_eq (hissued : w'.issued = w.issued) (hid : w'.requestId = w.requestId)
    (hs : w.s ≠ .connected → w'.s ≠ .connected) (hhistory : w'.history = w.history)
    (hsender : w'.sender = w.sender ∨ w'.sender = w.sender.onSocket Socket.close)
    (hrequests : w'.requests ⊆ w.requests) : Quiet w w' where
  issued_eq := hissued
  requestId_eq := hid
  ne_connected := hs
  history_eq := ⟨[], hhistory, List.forall_mem_nil _⟩
  sender_eq := hsender
  live hl := ⟨fun id x hx ↦ hl.handler_ne id x (hrequests hx), hhistory ▸ hl.resets⟩
  calls _ _ h hc := by
    have hentries : w'.ledger.entries = w.ledger.entries :=
      congrArg (List.filterMap Act.entry?) hhistory
    rwa [Ledger.Completed, hentries] at hc

theorem refl (w : World) : Quiet w w :=
  .of_eq rfl rfl (fun hs ↦ hs) rfl (Or.inl rfl) (List.Subset.refl _)

/-- A socket that is open was open. -/
theorem isOpen (h : Quiet w w') (hopen : w'.isOpen = true) : w.isOpen = true := by
  rcases h.sender_eq with hs | hs
  · rwa [World.isOpen, hs] at hopen
  · rw [World.isOpen, hs] at hopen
    cases hopen

theorem trans {w w' w'' : World} (h : Quiet w w') (h' : Quiet w' w'') : Quiet w w'' where
  issued_eq := h'.issued_eq.trans h.issued_eq
  requestId_eq := h'.requestId_eq.trans h.requestId_eq
  ne_connected hs := h'.ne_connected (h.ne_connected hs)
  history_eq := by
    obtain ⟨acts, hacts, hq⟩ := h.history_eq
    obtain ⟨acts', hacts', hq'⟩ := h'.history_eq
    refine ⟨acts' ++ acts, by rw [hacts', hacts, List.append_assoc], ?_⟩
    intro act hact
    rcases List.mem_append.mp hact with hact | hact
    · exact hq' act hact
    · exact hq act hact
  sender_eq := by
    rcases h.sender_eq with hs | hs <;> rcases h'.sender_eq with hs' | hs'
    · exact Or.inl (hs'.trans hs)
    · exact Or.inr (hs'.trans (by rw [hs]))
    · exact Or.inr (hs'.trans hs)
    · exact Or.inr (hs'.trans (by rw [hs]; rfl))
  live hl := h'.live (h.live hl)
  calls hl hopen handler hc :=
    h.calls hl (h'.isOpen hopen) handler (h'.calls (h.live hl) hopen handler hc)

/-- Only the place of the loop changes. -/
theorem setLoop (w : World) (loop : Loop) : Quiet w { w with loop } :=
  .of_eq rfl rfl (fun hs ↦ hs) rfl (Or.inl rfl) (List.Subset.refl _)

/-- What the loop of a reset records is quiet. -/
theorem history_recordReset (w : World) {ec : ErrorCode} (hec : ec.failed = true)
    (called : List HandlerId) (threw : Bool) :
    ∃ acts, (w.recordReset ec called threw).history = acts ++ w.history ∧
      ∀ act ∈ acts, act.Quiet := by
  refine ⟨.reset (w.requests.filterMap Prod.snd) called threw ::
    (Ledger.callsOf ec called).map Act.ledger, rfl, ?_⟩
  refine List.forall_mem_cons.mpr ⟨trivial, List.forall_mem_map.mpr ?_⟩
  intro entry hentry
  obtain ⟨h, -, rfl⟩ := List.mem_map.mp (List.mem_reverse.mp hentry)
  exact hec

theorem reset_ok {w w' : World} (h : w.reset = .ok w') : Quiet w w' := by
  rw [reset_eq] at h
  split_ifs at h with hthrew
  rw [Bool.not_eq_true] at hthrew
  obtain rfl := Except.ok.inj h
  refine ⟨rfl, rfl, fun _ ↦ w.resetState_ne_connected,
    history_recordReset _ w.failed_resetCode _ _, Or.inr rfl, ?_, nofun⟩
  intro hl
  constructor
  · intro id x hx
    exact absurd hx List.not_mem_nil
  · refine List.forall_mem_cons.mpr ⟨⟨rfl, Requests.invokeAll_called hthrew⟩, ?_⟩
    exact List.forall_mem_append.mpr ⟨List.forall_mem_map.mpr fun _ _ ↦ trivial, hl.resets⟩

theorem reset_error {w w' : World} (h : w.reset = .error w') : Quiet w w' := by
  rw [reset_eq] at h
  split_ifs at h with hthrew
  obtain rfl := Except.error.inj h
  have hdead : ¬ w.Live := by
    intro hl
    rw [(Requests.invokeAll_threw_iff _).mpr hl.handler_ne] at hthrew
    cases hthrew
  exact ⟨rfl, rfl, fun _ ↦ w.resetState_ne_connected,
    history_recordReset _ w.failed_resetCode _ _, Or.inl rfl, fun hl ↦ absurd hl hdead,
    fun hl ↦ absurd hl hdead⟩

theorem loopRelation : LoopRelation Quiet := ⟨trans, setLoop, reset_ok, reset_error⟩

theorem goOn (w : World) : Quiet w (goOn env w) := loopRelation.goOn w

theorem resetGoOn (w : World) : Quiet w (World.catchAll env (w.reset.bind (World.enter env))) :=
  loopRelation.resetGoOn w

end Quiet

/-! ## The invariant of the loop -/

/-- Where the loop can be in which state: it awaits a message only if it does not have
to connect, and on its way to the next connection, and once it has ended, the connector
is not connected and nothing that was accepted is left. -/
def LoopInvariant (w : World) : Prop :=
  match w.loop with
  | .spawned | .receiving => w.s ≠ .connecting
  | .resolving | .connecting _ | .greeting _ | .finished => w.s ≠ .connected ∧ w.ledger.Settled
  | .authenticating => False
  | .failed | .aborted => True

/-- What every run keeps. -/
structure Invariant (w : World) : Prop where
  /-- The ledger is consistent. -/
  consistent : w.ledger.Consistent
  /-- The loop is where it can be. -/
  loop : w.LoopInvariant

/-- What the loop needs at its top. -/
structure Ready (w : World) : Prop where
  /-- The ledger is consistent. -/
  consistent : w.ledger.Consistent
  /-- If the loop has to connect, nothing that was accepted is left. -/
  settled : w.s = .connecting → w.ledger.Settled

theorem LoopInvariant.congr (h : w.LoopInvariant) (hloop : w'.loop = w.loop)
    (hs : w'.s = w.s ∨ w'.s = .stopped)
    (hsettled : w.s ≠ .connected → w.ledger.Settled → w'.ledger.Settled) : w'.LoopInvariant := by
  have hne : ∀ s, s ≠ .stopped → w.s ≠ s → w'.s ≠ s := by
    intro s hstop hne
    rcases hs with hs | hs <;> rw [hs]
    · exact hne
    · exact hstop.symm
  unfold LoopInvariant at h ⊢
  rw [hloop]
  cases hl : w.loop <;> simp only [hl] at h ⊢
  case spawned | receiving => exact hne _ State.noConfusion h
  case resolving | connecting | greeting | finished =>
    exact ⟨hne _ State.noConfusion h.1, hsettled h.1 h.2⟩

theorem ResetDone.ready (h : ResetDone w w') : w'.Ready := ⟨h.consistent, fun _ ↦ h.settled⟩

theorem Ready.enter_ok (h : w.Ready) (h' : enter env w = .ok w') : w'.Invariant := by
  rcases enter_cases env w with ⟨-, ⟨w₁, hr, he⟩ | ⟨w₁, hr, he⟩⟩ | ⟨hs, loop, hl, he⟩ | ⟨hs, he⟩ <;>
    rw [he] at h' <;> cases h'
  · have hd := reset_done h.consistent hr
    have hne : w₁.s ≠ .connected := hd.s_eq ▸ w.resetState_ne_connected
    exact ⟨hd.consistent, hne, hd.settled⟩
  · rcases hl with rfl | rfl
    · exact ⟨h.consistent, trivial⟩
    · have hne : w.s ≠ .connected := by
        rw [hs]
        decide
      exact ⟨h.consistent, hne, h.settled hs⟩
  · have hne : w.s ≠ .connecting := by
      rw [hs]
      decide
    exact ⟨h.consistent, hne⟩

theorem Ready.enter_error (h : w.Ready) (h' : enter env w = .error w') : w'.ledger.Consistent := by
  rcases enter_cases env w with ⟨-, ⟨w₁, hr, he⟩ | ⟨w₁, hr, he⟩⟩ | ⟨-, loop, -, he⟩ | ⟨-, he⟩ <;>
    rw [he] at h' <;> cases h'
  exact (reset_threw h.consistent hr).1

theorem resetEnter_ok (h : w.ledger.Consistent) (he : w.reset.bind (enter env) = .ok w') :
    w'.Invariant := by
  cases hr : w.reset with
  | ok w₁ =>
      rw [hr] at he
      exact (reset_done h hr).ready.enter_ok he
  | error w₁ =>
      rw [hr] at he
      cases he

theorem resetEnter_error (h : w.ledger.Consistent) (he : w.reset.bind (enter env) = .error w') :
    w'.ledger.Consistent := by
  cases hr : w.reset with
  | ok w₁ =>
      rw [hr] at he
      exact (reset_done h hr).ready.enter_error he
  | error w₁ =>
      rw [hr] at he
      obtain rfl := Except.error.inj he
      exact (reset_threw h hr).1

/-- The `catch` clause restores the invariant from consistency alone. -/
theorem invariant_catchAll {r : Except World World} (hok : ∀ w, r = .ok w → w.Invariant)
    (herror : ∀ w, r = .error w → w.ledger.Consistent) : (catchAll env r).Invariant := by
  cases r with
  | ok w₁ => exact hok w₁ rfl
  | error w₁ =>
      have h₁ := herror w₁ rfl
      unfold catchAll
      dsimp only
      split_ifs
      · exact ⟨h₁, trivial⟩
      · cases hr : w₁.reset.bind (enter env) with
        | ok w₂ => exact resetEnter_ok h₁ hr
        | error w₂ =>
            have h₂ := resetEnter_error h₁ hr
            exact ⟨h₂, trivial⟩

theorem Ready.goOn (h : w.Ready) : (goOn env w).Invariant :=
  invariant_catchAll (fun _ ↦ h.enter_ok) fun _ ↦ h.enter_error

theorem invariant_resetGoOn (h : w.ledger.Consistent) :
    (catchAll env (w.reset.bind (enter env))).Invariant :=
  invariant_catchAll (fun _ ↦ resetEnter_ok h) fun _ ↦ resetEnter_error h

end World

end Connector

end Tntpp
