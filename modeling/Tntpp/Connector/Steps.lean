import Tntpp.Connector.Invariant

/-!
# Steps and runs of a connector

`Fires` has one constructor for each branch of a step, and `step_eq_some_iff` is where a
step is taken apart.  `Move` says what the branches have in common: a step is quiet, or it
opens the socket for the next address, handles a message, ends a reconnection, sends a
request or completes a write.

`always_invariant` is the run lemma: the invariant holds in every state of a run whose
requests have distinct identifiers.
-/

namespace Tntpp

namespace Connector

open MsgPack (Codec)

namespace World

variable {w w' : World} {env : Environment}

/-! ## Sending a request -/

/-- The connector after the handler of a rejected request was called. -/
def rejected (w : World) (request : Operation) : World :=
  { w with issued := w.issued ++ [request] }.record
    (.completed w.issued.length Errc.notConnected.code .empty)

/-- The connector after a request was registered. -/
def accepted (w : World) (request : Operation) : World :=
  let w' := { w with issued := w.issued ++ [request] }.record (.accepted w.issued.length w.epoch)
  { w' with requests := w.requests.insert request.id (some w.issued.length) }

/-- The bytes of the next request. -/
def nextBuffer (w : World) (request : Operation) : Buffer := ⟨w.issued.length, request.data⟩

/-- What the function goes on with after it has called the handler: it registers the
empty handler and sends the bytes. -/
def afterRejection (w : World) (id : OperationId) (data : Buffer) : World :=
  if w.loop = .aborted then w
  else { w with requests := w.requests.insert id none }.sendData data

theorem sendRequest_of_connected (hs : w.s = .connected) (resume : World → World)
    (request : Operation) :
    w.sendRequest resume request = (w.accepted request).sendData (w.nextBuffer request) := by
  simp only [sendRequest, hs, ne_eq, not_true_eq_false, if_false]
  rw [← hs]
  rfl

theorem sendRequest_of_ne_connected (hs : w.s ≠ .connected) (resume : World → World)
    (request : Operation) :
    w.sendRequest resume request =
      (resume (w.rejected request)).afterRejection request.id (w.nextBuffer request) := by
  simp only [sendRequest, hs, ne_eq, not_false_eq_true, if_true]
  rfl

/-- What a call of `send_data` adds to the account. -/
theorem history_sendData (w : World) (data : Buffer) :
    (w.sendData data).history =
      if w.sender.conn.sending then .sendData data :: w.history
      else .asyncWrite (.single data) w.epoch :: .sendData data :: w.history := by
  unfold sendData start Connection.sendData
  split_ifs <;> rfl

/-- What the completion of a write adds to the account: the next write, unless the queue
is empty or has just been cleared. -/
theorem history_onDataSent (w : World) (i : Nat) (ec : ErrorCode) :
    (w.onDataSent i ec).history =
      if ec.failed = false ∧ w.sender.conn.queue.active ≠ [] then
        .asyncWrite (.batch w.sender.conn.queue.active) w.epoch :: w.history
      else w.history := by
  unfold onDataSent start Connection.onDataSent
  cases hec : ec.failed with
  | true => simp [DBQueue.clear, DBQueue.isReady, vectorClear]
  | false =>
      by_cases ha : w.sender.conn.queue.active = []
      · simp [DBQueue.isReady, ha]
      · simp [DBQueue.isReady, ha, Connection.initQueueSend, DBQueue.swap, epoch]

@[simp] theorem ledger_rejected (w : World) (request : Operation) :
    (w.rejected request).ledger = w.ledger.reject request Errc.notConnected.code := rfl

@[simp] theorem ledger_accepted (w : World) (request : Operation) :
    (w.accepted request).ledger = w.ledger.accept request := rfl

@[simp] theorem ledger_handleMessage (w : World) (frame : IprotoFrame (List UInt8)) :
    (w.handleMessage frame).ledger = w.ledger.reply frame := by
  have hex : w.ledger.requests = w.requests := rfl
  unfold handleMessage Ledger.reply
  rw [hex]
  dsimp only
  rcases h : w.requests.extract frame.header.sync with _ | ⟨_ | handler, rs⟩ <;> rfl

/-! ## The invariant, function by function -/

theorem Settled.reject {l : Ledger} (h : l.Settled) (request : Operation) (ec : ErrorCode) :
    (l.reject request ec).Settled := by
  intro h' epoch ha
  obtain ⟨ec', frame, hc⟩ := h h' epoch (Ledger.accepted_complete.mp ha)
  exact ⟨ec', frame, List.mem_cons_of_mem _ hc⟩

/-- Registering an empty handler for a rejected request keeps the invariant. -/
theorem Invariant.afterRejection (h : w.Invariant) {id : OperationId}
    (hid : id ∈ w.issued.map Operation.id) (data : Buffer) :
    (w.afterRejection id data).Invariant := by
  unfold World.afterRejection
  split_ifs
  · exact h
  · refine ⟨?_, h.loop.congr rfl (Or.inl rfl) fun _ hs ↦ ?_⟩
    · rw [ledger_sendData]
      exact h.consistent.insertEmpty hid
    · rw [ledger_sendData]
      exact hs

theorem Invariant.rejected (h : w.Invariant) (request : Operation) :
    (w.rejected request).Invariant := by
  refine ⟨?_, h.loop.congr rfl (Or.inl rfl) fun _ hs ↦ ?_⟩
  · rw [ledger_rejected]
    exact h.consistent.reject request rfl
  · rw [ledger_rejected]
    exact Settled.reject hs request _

theorem Invariant.send (h : w.Invariant) {request : Operation}
    (hid : request.id ∉ w.issued.map Operation.id) :
    (w.sendRequest id request).Invariant := by
  by_cases hs : w.s = .connected
  · rw [sendRequest_of_connected hs]
    refine ⟨?_, h.loop.congr rfl (Or.inl rfl) fun hne ↦ absurd hs hne⟩
    rw [ledger_sendData, ledger_accepted]
    exact h.consistent.accept hid
  · rw [sendRequest_of_ne_connected hs]
    refine (h.rejected request).afterRejection ?_ _
    exact List.mem_map_of_mem (List.mem_append_right _ (List.mem_singleton.mpr rfl))

/-- Handling a message removes the entry with its identifier, if there is one, and calls
its handler, unless that is empty. -/
theorem handleMessage_eq (w : World) (frame : IprotoFrame (List UInt8)) :
    w.handleMessage frame =
      { w with
        schemaVersion := frame.header.schemaVersion
        requests := w.requests.eraseP fun r ↦ frame.header.sync == r.1
        history :=
          ((w.requests.lookup frame.header.sync).join.toList.map
            fun h ↦ .ledger (.completed h {} frame)) ++ w.history } := by
  unfold handleMessage
  simp only [Requests.extract]
  rcases h : w.requests.lookup frame.header.sync with _ | _ | handler
  · have herase : (w.requests.eraseP fun r ↦ frame.header.sync == r.1) = w.requests := by
      apply List.eraseP_of_forall_not
      intro r hr
      simpa using bne_iff_ne.mp (List.lookup_eq_none_iff.mp h r hr)
    simp [herase]
  · rfl
  · rfl

theorem ready_handleMessage (h : w.Invariant) (hl : w.loop = .receiving)
    (frame : IprotoFrame (List UInt8)) : (w.handleMessage frame).Ready := by
  have hs : w.s ≠ .connecting := by
    have := h.loop
    rwa [LoopInvariant, hl] at this
  refine ⟨?_, fun hs' ↦ absurd ?_ hs⟩
  · rw [ledger_handleMessage]
    exact h.consistent.reply frame
  · rw [handleMessage_eq] at hs'
    exact hs'

/-- The connector while it authenticates. -/
def authenticating (w : World) : World :=
  { w with requestId := w.requestId + 1, loop := .authenticating }

/-- Without credentials there is nothing to authenticate. -/
theorem authenticate_of_none (hc : env.credentials = none) :
    authenticate env w = { w with s := .connected, loop := .receiving } := by
  unfold authenticate
  rw [hc]
  rfl

/-- What the scramble throws ends the process. -/
theorem authenticate_of_fault {credentials : Credentials} {fault : ScrambleFault}
    (hc : env.credentials = some credentials)
    (hscramble : env.scramblePassword credentials.password w.salt = .error fault) :
    authenticate env w = { w with loop := .aborted } := by
  unfold authenticate
  rw [hc]
  by_cases hfault : fault = .dataflow
  · rw [asyncAuth_of_dataflow (hfault ▸ hscramble)]
  · rw [asyncAuth_of_fault hfault hscramble]

/-- With a scramble a request is sent. -/
theorem authenticate_of_scramble {credentials : Credentials} {scramble : List UInt8}
    (hc : env.credentials = some credentials)
    (hscramble : env.scramblePassword credentials.password w.salt = .ok scramble) :
    authenticate env w = w.authenticating.sendRequest (goOn env)
      ⟨w.requestId, (authRequest env.mp w.requestId credentials.username scramble).stream⟩ := by
  unfold authenticate
  rw [hc, asyncAuth_of_scramble hscramble]
  rfl

/-- A connector that is not connected rejects its own authentication, and the loop goes on
inside the rejection. -/
theorem authenticate_of_credentials {credentials : Credentials} {scramble : List UInt8}
    (hc : env.credentials = some credentials)
    (hscramble : env.scramblePassword credentials.password w.salt = .ok scramble)
    (hs : w.s ≠ .connected) :
    ∃ request : Operation, request.id = w.requestId ∧
      authenticate env w = (goOn env (w.authenticating.rejected request)).afterRejection
        w.requestId (w.nextBuffer request) := by
  rw [authenticate_of_scramble hc hscramble]
  exact ⟨_, rfl, sendRequest_of_ne_connected (w := w.authenticating) hs _ _⟩

/-! ## The branches of a step -/

/-- What one function on the strand does, branch by branch. -/
inductive Fires (env : Environment) (w : World) : Event → World → Prop where
  /-- The registry changes its order. -/
  | rehash {requests : Requests} (hperm : requests.Perm w.requests) :
    Fires env w (.rehash requests) { w with requests }
  /-- An identifier is generated. -/
  | generateId : Fires env w .generateId { w with requestId := w.requestId + 1 }
  /-- A request is sent. -/
  | send (request : Operation) (hd : w.destructor = .alive ∨ env.freedReadable = true) :
    Fires env w (.send request) (w.sendRequest id request)
  /-- A write has ended. -/
  | writeDone {i : Nat} (hi : i < w.sender.outstanding.length) (ec : ErrorCode) :
    Fires env w (.writeDone i ec) (w.onDataSent i ec)
  /-- The loop begins. -/
  | start (hl : w.loop = .spawned) : Fires env w .start (goOn env w)
  /-- The host is not resolved. -/
  | unresolved {ec : ErrorCode} (addresses : List Endpoint) (hl : w.loop = .resolving)
    (hec : ec.failed = true) : Fires env w (.resolved ec addresses) (goOn env w)
  /-- The host is resolved. -/
  | resolved {ec : ErrorCode} {addresses : List Endpoint} (hl : w.loop = .resolving)
    (hec : ec.failed = false) : Fires env w (.resolved ec addresses) (tryNext env w addresses)
  /-- An address refuses the connection. -/
  | refused {ec : ErrorCode} {rest : List Endpoint} (hl : w.loop = .connecting rest)
    (hec : ec.failed = true) : Fires env w (.connected ec) (tryNext env w rest)
  /-- An address accepts the connection. -/
  | connected {ec : ErrorCode} {rest : List Endpoint} (hl : w.loop = .connecting rest)
    (hec : ec.failed = false) (hopen : w.isOpen = true) :
    Fires env w (.connected ec) { w with loop := .greeting rest }
  /-- An address accepts the connection, and the socket was closed in the meantime. -/
  | closed {ec : ErrorCode} {rest : List Endpoint} (hl : w.loop = .connecting rest)
    (hec : ec.failed = false) (hopen : w.isOpen = false) :
    Fires env w (.connected ec) { w with loop := .aborted }
  /-- An address accepts the connection, and is gone. -/
  | vanished {rest : List Endpoint} (hl : w.loop = .connecting rest) :
    Fires env w .vanished { w with loop := .aborted }
  /-- An address sends no greeting. -/
  | ungreeted {ec : ErrorCode} (salt : List UInt8) {rest : List Endpoint}
    (hl : w.loop = .greeting rest) (hec : ec.failed = true) :
    Fires env w (.greeted ec salt) (tryNext env w rest)
  /-- An address sends a greeting, and there is no connector any more. -/
  | expired {ec : ErrorCode} (salt : List UInt8) {rest : List Endpoint}
    (hl : w.loop = .greeting rest) (hec : ec.failed = false) (hd : w.destructor ≠ .alive) :
    Fires env w (.greeted ec salt) { w with salt, loop := .finished }
  /-- An address sends a greeting. -/
  | greeted {ec : ErrorCode} (salt : List UInt8) {rest : List Endpoint}
    (hl : w.loop = .greeting rest) (hec : ec.failed = false) (hd : w.destructor = .alive) :
    Fires env w (.greeted ec salt) (authenticate env { w with salt })
  /-- The connection is lost. -/
  | lost {ec : ErrorCode} (frame : IprotoFrame (List UInt8)) (hl : w.loop = .receiving)
    (hec : ec.failed = true) :
    Fires env w (.received ec frame) (catchAll env (w.reset.bind (enter env)))
  /-- A message is received. -/
  | message {ec : ErrorCode} (frame : IprotoFrame (List UInt8)) (hl : w.loop = .receiving)
    (hec : ec.failed = false) :
    Fires env w (.received ec frame) (goOn env (w.handleMessage frame))
  /-- The last reference to the connector is dropped. -/
  | drop (hd : w.destructor = .alive) (hl : w.loop ≠ .authenticating) :
    Fires env w .drop { w with destructor := .posted }
  /-- The job of the destructor runs. -/
  | stop (hd : w.destructor = .posted) :
    Fires env w .stop { w with s := .stopped, destructor := .done }.stop

theorem loop_ne_aborted {e : Event} (h : step env w e = some w') : w.loop ≠ .aborted := by
  intro hl
  unfold step at h
  rw [if_pos hl] at h
  cases h

theorem Fires.of_step {e : Event} (h : step env w e = some w') : Fires env w e w' := by
  have hal := loop_ne_aborted h
  cases e with
  | rehash requests =>
      simp only [step, if_neg hal] at h
      split_ifs at h with hperm
      cases h
      exact .rehash hperm
  | generateId =>
      simp only [step, if_neg hal] at h
      cases h
      exact .generateId
  | send request =>
      simp only [step, if_neg hal] at h
      split_ifs at h with hd
      cases h
      exact .send request hd
  | writeDone i ec =>
      simp only [step, if_neg hal] at h
      split_ifs at h with hi
      cases h
      exact .writeDone hi ec
  | start =>
      simp only [step, if_neg hal] at h
      split_ifs at h with hl
      cases h
      exact .start hl
  | resolved ec addresses =>
      simp only [step, if_neg hal] at h
      split_ifs at h with hl hec
      · cases h
        exact .unresolved addresses hl hec
      · cases h
        exact .resolved hl (Bool.eq_false_iff.mpr hec)
  | connected ec =>
      simp only [step, if_neg hal] at h
      split at h
      · rename_i rest hl
        split_ifs at h with hec hopen
        · cases h
          exact .refused hl hec
        · cases h
          exact .connected hl (Bool.eq_false_iff.mpr hec) hopen
        · cases h
          exact .closed hl (Bool.eq_false_iff.mpr hec) (Bool.eq_false_iff.mpr hopen)
      · cases h
  | vanished =>
      simp only [step, if_neg hal] at h
      split at h
      · rename_i rest hl
        cases h
        exact .vanished hl
      · cases h
  | greeted ec salt =>
      simp only [step, if_neg hal] at h
      split at h
      · rename_i rest hl
        split_ifs at h with hec hd
        · cases h
          exact .ungreeted salt hl hec
        · cases h
          exact .expired salt hl (Bool.eq_false_iff.mpr hec) hd
        · cases h
          exact .greeted salt hl (Bool.eq_false_iff.mpr hec) (not_not.mp hd)
      · cases h
  | received ec frame =>
      simp only [step, if_neg hal] at h
      split_ifs at h with hl hec
      · cases h
        exact .lost frame hl hec
      · cases h
        exact .message frame hl (Bool.eq_false_iff.mpr hec)
  | drop =>
      simp only [step, if_neg hal] at h
      split_ifs at h with hd
      cases h
      exact .drop hd.1 hd.2
  | stop =>
      simp only [step, if_neg hal] at h
      split_ifs at h with hd
      cases h
      exact .stop hd

/-- Nothing else can happen, and all of this can. -/
theorem step_eq_some_iff {e : Event} :
    step env w e = some w' ↔ w.loop ≠ .aborted ∧ Fires env w e w' := by
  constructor
  · exact fun h ↦ ⟨loop_ne_aborted h, Fires.of_step h⟩
  · rintro ⟨hal, hfires⟩
    cases hfires <;> simp_all [step]

/-! ## What a step can do -/

/-- The loop is in `Connection::connect`. -/
def Reconnecting (w : World) : Prop :=
  match w.loop with
  | .resolving | .connecting _ | .greeting _ => True
  | .spawned | .authenticating | .receiving | .finished | .failed | .aborted => False

/-- In `connect` the connector is not connected, and no accepted request is left. -/
theorem Invariant.of_reconnecting (h : w.Invariant) (hr : w.Reconnecting) :
    w.s ≠ .connected ∧ w.ledger.Settled := by
  have hl := h.loop
  unfold Reconnecting at hr
  unfold LoopInvariant at hl
  cases hloop : w.loop <;> simp only [hloop] at hr hl
  all_goals exact hl

/-- What a step can do. -/
inductive Move (env : Environment) (w : World) : Event → World → Prop where
  /-- Nothing is sent, received or connected. -/
  | quiet {e : Event} {w' : World} (hq : Quiet w w') (hi : w.Invariant → w'.Invariant) :
    Move env w e w'
  /-- An identifier is generated. -/
  | generateId : Move env w .generateId { w with requestId := w.requestId + 1 }
  /-- The socket is opened for an address. -/
  | reopen {e : Event} (rest : List Endpoint) (hr : w.Reconnecting) :
    Move env w e
      { w with
        sender := (w.sender.onSocket Socket.close).onSocket Socket.reopen
        loop := .connecting rest }
  /-- A message is handled. -/
  | message {ec : ErrorCode} {frame : IprotoFrame (List UInt8)} (hl : w.loop = .receiving)
    (hec : ec.failed = false) :
    Move env w (.received ec frame) (goOn env (w.handleMessage frame))
  /-- The loop has reconnected without credentials. -/
  | connectedAgain {ec : ErrorCode} (salt : List UInt8) (hr : w.Reconnecting)
    (hc : env.credentials = none) :
    Move env w (.greeted ec salt) { w with salt, s := .connected, loop := .receiving }
  /-- The loop has reconnected and authenticates. -/
  | authRequest {ec : ErrorCode} {credentials : Credentials} {scramble : List UInt8}
    (salt : List UInt8) (hr : w.Reconnecting) (hc : env.credentials = some credentials)
    (hscramble : env.scramblePassword credentials.password salt = .ok scramble) :
    Move env w (.greeted ec salt) (authenticate env { w with salt })
  /-- A request is sent. -/
  | send (request : Operation) : Move env w (.send request) (w.sendRequest id request)
  /-- A write has ended. -/
  | writeDone {i : Nat} (hi : i < w.sender.outstanding.length) (ec : ErrorCode) :
    Move env w (.writeDone i ec) (w.onDataSent i ec)

/-- Going on is quiet where nothing has to be completed first. -/
theorem Move.goOn (e : Event) (h : w.Invariant → w.Ready) : Move env w e (goOn env w) :=
  .quiet (Quiet.goOn w) fun hi ↦ (h hi).goOn

theorem Move.tryNext (e : Event) (addresses : List Endpoint) (hr : w.Reconnecting) :
    Move env w e (tryNext env w addresses) := by
  cases addresses with
  | nil => exact Move.goOn e fun h ↦ ⟨h.consistent, fun _ ↦ (h.of_reconnecting hr).2⟩
  | cons address rest => exact .reopen rest hr

/-- Every step is a move. -/
theorem step_move {e : Event} (h : step env w e = some w') : Move env w e w' := by
  have hreconnecting {loop : Loop} (hl : w.loop = loop) (hr : { w with loop }.Reconnecting) :
      w.Reconnecting := by
    subst hl
    exact hr
  cases (step_eq_some_iff.mp h).2 with
  | rehash hperm =>
      refine .quiet (.of_eq rfl rfl (fun hs ↦ hs) rfl (Or.inl rfl) hperm.subset) fun hi ↦ ?_
      exact ⟨hi.consistent.perm hperm, hi.loop.congr rfl (Or.inl rfl) fun _ hs ↦ hs⟩
  | generateId => exact .generateId
  | send request hd => exact .send request
  | writeDone hi ec => exact .writeDone hi ec
  | start hl =>
      refine Move.goOn _ fun hi ↦ ⟨hi.consistent, fun hs ↦ ?_⟩
      have hne := hi.loop
      rw [LoopInvariant, hl] at hne
      exact absurd hs hne
  | unresolved addresses hl hec =>
      have hr : w.Reconnecting := hreconnecting hl trivial
      exact Move.goOn _ fun hi ↦ ⟨hi.consistent, fun _ ↦ (hi.of_reconnecting hr).2⟩
  | resolved hl hec => exact Move.tryNext _ _ (hreconnecting hl trivial)
  | refused hl hec => exact Move.tryNext _ _ (hreconnecting hl trivial)
  | connected hl hec hopen =>
      have hr : w.Reconnecting := hreconnecting hl trivial
      exact .quiet (Quiet.setLoop w _) fun hi ↦ ⟨hi.consistent, hi.of_reconnecting hr⟩
  | closed | vanished => exact .quiet (Quiet.setLoop w _) fun hi ↦ ⟨hi.consistent, trivial⟩
  | ungreeted salt hl hec => exact Move.tryNext _ _ (hreconnecting hl trivial)
  | expired salt hl hec hd =>
      have hr : w.Reconnecting := hreconnecting hl trivial
      refine .quiet ?_ fun hi ↦ ⟨hi.consistent, hi.of_reconnecting hr⟩
      exact .of_eq rfl rfl (fun hs ↦ hs) rfl (Or.inl rfl) (List.Subset.refl _)
  | greeted salt hl hec hd =>
      have hr : w.Reconnecting := hreconnecting hl trivial
      cases hc : env.credentials with
      | none =>
          rw [authenticate_of_none (w := { w with salt }) hc]
          exact .connectedAgain salt hr hc
      | some credentials =>
          cases hscramble : env.scramblePassword credentials.password salt with
          | ok scramble => exact .authRequest salt hr hc hscramble
          | error fault =>
              rw [authenticate_of_fault (w := { w with salt }) hc hscramble]
              refine .quiet ?_ fun hi ↦ ⟨hi.consistent, trivial⟩
              exact .of_eq rfl rfl (fun hs ↦ hs) rfl (Or.inl rfl) (List.Subset.refl _)
  | lost frame hl hec =>
      exact .quiet (Quiet.resetGoOn w) fun hi ↦ invariant_resetGoOn hi.consistent
  | message frame hl hec => exact .message hl hec
  | drop hd hl =>
      refine .quiet ?_ fun hi ↦ ⟨hi.consistent, hi.loop.congr rfl (Or.inl rfl) fun _ hs ↦ hs⟩
      exact .of_eq rfl rfl (fun hs ↦ hs) rfl (Or.inl rfl) (List.Subset.refl _)
  | stop hd =>
      refine .quiet ?_ fun hi ↦ ⟨hi.consistent, hi.loop.congr rfl (Or.inr rfl) fun _ hs ↦ hs⟩
      exact .of_eq rfl rfl (fun _ ↦ State.noConfusion) rfl (Or.inr rfl) (List.Subset.refl _)

/-! ## The invariant along a run -/

theorem Invariant.reopen (h : w.Invariant) (hr : w.Reconnecting) (rest : List Endpoint) :
    World.Invariant
      { w with
        sender := (w.sender.onSocket Socket.close).onSocket Socket.reopen
        loop := .connecting rest } := by
  obtain ⟨hs, hsettled⟩ := h.of_reconnecting hr
  exact ⟨h.consistent.reopen hsettled, hs, hsettled⟩

theorem Invariant.authenticate (h : w.Invariant) (hr : w.Reconnecting) {salt : List UInt8}
    {credentials : Credentials} {scramble : List UInt8} (hc : env.credentials = some credentials)
    (hscramble : env.scramblePassword credentials.password salt = .ok scramble) :
    (authenticate env { w with salt }).Invariant := by
  obtain ⟨hs, hsettled⟩ := h.of_reconnecting hr
  obtain ⟨request, hid, heq⟩ := authenticate_of_credentials (w := { w with salt }) hc hscramble hs
  rw [heq]
  have hready : World.Ready ((authenticating { w with salt }).rejected request) := by
    refine ⟨?_, fun _ ↦ ?_⟩
    · rw [ledger_rejected]
      exact h.consistent.reject request rfl
    · rw [ledger_rejected]
      exact Settled.reject hsettled request _
  refine hready.goOn.afterRejection ?_ _
  rw [(Quiet.goOn _).issued_eq, ← hid]
  exact List.mem_map_of_mem (List.mem_append_right _ (List.mem_singleton.mpr rfl))

/-- The identifier of a request is a new one. -/
def Fresh (w : World) (e : Event) : Prop :=
  ∀ request, e = .send request → request.id ∉ w.issued.map Operation.id

theorem Move.invariant {e : Event} (hm : Move env w e w') (hf : w.Fresh e) (h : w.Invariant) :
    w'.Invariant := by
  cases hm with
  | quiet hq hi => exact hi h
  | generateId => exact ⟨h.consistent, h.loop.congr rfl (Or.inl rfl) fun _ hs ↦ hs⟩
  | reopen rest hr => exact h.reopen hr rest
  | message hl hec => exact (ready_handleMessage h hl _).goOn
  | connectedAgain salt hr hc => exact ⟨h.consistent, State.noConfusion⟩
  | authRequest salt hr hc hscramble => exact h.authenticate hr hc hscramble
  | send request => exact h.send (hf request rfl)
  | writeDone hi ec =>
      refine ⟨?_, h.loop.congr rfl (Or.inl rfl) fun _ hs ↦ ?_⟩
      · rw [ledger_onDataSent]
        exact h.consistent
      · rw [ledger_onDataSent]
        exact hs

theorem afterRejection_same (w : World) (id : OperationId) (data : Buffer) :
    (w.afterRejection id data).s = w.s ∧ (w.afterRejection id data).issued = w.issued ∧
      (w.afterRejection id data).requestId = w.requestId ∧
      (w.afterRejection id data).ledger.entries = w.ledger.entries := by
  unfold afterRejection
  split_ifs
  · exact ⟨rfl, rfl, rfl, rfl⟩
  · refine ⟨rfl, rfl, rfl, ?_⟩
    rw [ledger_sendData]
    rfl

@[simp] theorem isOpen_sendData (w : World) (data : Buffer) :
    (w.sendData data).isOpen = w.isOpen := by
  unfold sendData start isOpen Sender.start
  rw [Connection.socket_sendData]

theorem afterRejection_loop (w : World) (id : OperationId) (data : Buffer) :
    (w.afterRejection id data).loop = w.loop ∧
      (w.afterRejection id data).isOpen = w.isOpen := by
  unfold afterRejection
  split_ifs
  · exact ⟨rfl, rfl⟩
  · exact ⟨rfl, isOpen_sendData _ data⟩

theorem issued_sendRequest {resume : World → World} (hr : ∀ w, (resume w).issued = w.issued)
    (w : World) (request : Operation) :
    (w.sendRequest resume request).issued = w.issued ++ [request] := by
  by_cases hs : w.s = .connected
  · rw [sendRequest_of_connected hs]
    rfl
  · rw [sendRequest_of_ne_connected hs, (afterRejection_same _ _ _).2.1, hr]
    rfl

theorem requestId_sendRequest {resume : World → World}
    (hr : ∀ w : World, (resume w).requestId = w.requestId) (w : World) (request : Operation) :
    (w.sendRequest resume request).requestId = w.requestId := by
  by_cases hs : w.s = .connected
  · rw [sendRequest_of_connected hs]
    rfl
  · rw [sendRequest_of_ne_connected hs, (afterRejection_same _ _ _).2.2.1, hr]
    rfl

/-- A step generates at most one identifier. -/
theorem Move.requestId {e : Event} (hm : Move env w e w') :
    w'.requestId = w.requestId ∨ w'.requestId = w.requestId + 1 := by
  cases hm with
  | quiet hq => exact Or.inl hq.requestId_eq
  | generateId => exact Or.inr rfl
  | reopen | connectedAgain | writeDone => exact Or.inl rfl
  | message hl hec =>
      left
      rw [(Quiet.goOn _).requestId_eq, handleMessage_eq]
  | authRequest salt hr hc hscramble =>
      right
      rw [authenticate_of_scramble (w := { w with salt }) hc hscramble]
      exact requestId_sendRequest (fun w ↦ (Quiet.goOn w).requestId_eq)
        (authenticating { w with salt }) _
  | send request => exact Or.inl (requestId_sendRequest (fun _ ↦ rfl) w request)

/-- Requests stay issued. -/
theorem Move.issued_grows {e : Event} (hm : Move env w e w') : w.issued <+: w'.issued := by
  cases hm with
  | quiet hq => exact hq.issued_eq ▸ List.prefix_rfl
  | generateId | reopen | connectedAgain | writeDone => exact List.prefix_rfl
  | @message ec frame hl hec =>
      have hissued : (World.goOn env (w.handleMessage frame)).issued = w.issued := by
        rw [(Quiet.goOn _).issued_eq, handleMessage_eq]
      exact hissued ▸ List.prefix_rfl
  | authRequest salt hr hc hscramble =>
      rw [authenticate_of_scramble (w := { w with salt }) hc hscramble,
        issued_sendRequest fun w ↦ (Quiet.goOn w).issued_eq]
      exact List.prefix_append _ _
  | send request =>
      exact ⟨[request], (issued_sendRequest (fun _ ↦ rfl) w request).symm⟩

/-! ## The account only grows -/

theorem Quiet.history_suffix (h : Quiet w w') : w.history <:+ w'.history := by
  obtain ⟨acts, hacts, -⟩ := h.history_eq
  exact ⟨acts, hacts.symm⟩

theorem history_suffix_sendData (w : World) (data : Buffer) :
    w.history <:+ (w.sendData data).history := by
  rw [history_sendData]
  split_ifs
  · exact List.suffix_cons _ _
  · exact (List.suffix_cons _ _).trans (List.suffix_cons _ _)

theorem history_suffix_afterRejection (w : World) (id : OperationId) (data : Buffer) :
    w.history <:+ (w.afterRejection id data).history := by
  unfold afterRejection
  split_ifs
  · exact List.suffix_rfl
  · exact history_suffix_sendData _ _

theorem history_suffix_sendRequest {resume : World → World}
    (hr : ∀ w : World, w.history <:+ (resume w).history) (w : World) (request : Operation) :
    w.history <:+ (w.sendRequest resume request).history := by
  by_cases hs : w.s = .connected
  · rw [sendRequest_of_connected hs]
    have haccepted : w.history <:+ (w.accepted request).history := List.suffix_cons _ _
    exact haccepted.trans (history_suffix_sendData _ _)
  · rw [sendRequest_of_ne_connected hs]
    have hrejected : w.history <:+ (w.rejected request).history := List.suffix_cons _ _
    exact (hrejected.trans (hr _)).trans (history_suffix_afterRejection _ _ _)

/-- What has happened stays in the account. -/
theorem Move.history_suffix {e : Event} (hm : Move env w e w') : w.history <:+ w'.history := by
  cases hm with
  | quiet hq => exact hq.history_suffix
  | generateId | reopen | connectedAgain => exact List.suffix_rfl
  | message hl hec =>
      refine List.IsSuffix.trans ?_ (Quiet.goOn _).history_suffix
      rw [handleMessage_eq]
      exact List.suffix_append _ _
  | authRequest salt hr hc hscramble =>
      rw [authenticate_of_scramble (w := { w with salt }) hc hscramble]
      exact history_suffix_sendRequest (fun w ↦ (Quiet.goOn w).history_suffix)
        (authenticating { w with salt }) _
  | send request => exact history_suffix_sendRequest (fun _ ↦ List.suffix_rfl) w request
  | writeDone hi ec => exact List.suffix_append _ _

end World

open Transition World

theorem history_suffix_of_exec {env : Environment} {w w' : World} {es : List Event}
    (hrun : exec (step env) w es = some w') : w.history <:+ w'.history := by
  refine exec_related (R := fun w w' ↦ w.history <:+ w'.history) ?_ ?_ hrun
  · exact fun _ ↦ List.suffix_rfl
  · exact fun w e t ht u hu ↦ (step_move ht).history_suffix.trans hu

theorem mem_entries_of_suffix {w w' : World} (h : w.history <:+ w'.history) {entry : Entry}
    (hmem : entry ∈ w.ledger.entries) : entry ∈ w'.ledger.entries :=
  (h.sublist.filterMap Act.entry?).subset hmem

/-- Where the identifiers of all requests of a run are distinct, each is a new one. -/
theorem meets_fresh {env : Environment} {w w' : World} {es : List Event}
    (hrun : exec (step env) w es = some w') (hids : (w'.issued.map Operation.id).Nodup) :
    Meets (step env) Fresh w es := by
  have hgrows : ∀ (t t' : World) fs, exec (step env) t fs = some t' → t.issued <+: t'.issued := by
    intro t t' fs hrun
    refine exec_related (R := fun t t' ↦ t.issued <+: t'.issued) ?_ ?_ hrun
    · exact fun _ ↦ List.prefix_rfl
    · exact fun t e u hu v huv ↦ (step_move hu).issued_grows.trans huv
  induction es generalizing w with
  | nil => trivial
  | cons e es ih =>
      obtain ⟨t, ht, hrun'⟩ := exec_cons.mp hrun
      constructor
      · rintro request rfl hmem
        have hissued : t.issued = w.issued ++ [request] := by
          cases Fires.of_step ht
          exact issued_sendRequest (fun _ ↦ rfl) w request
        have hnodup := ((hgrows t w' es hrun').map Operation.id).sublist.nodup hids
        rw [hissued, List.map_append, List.map_cons, List.map_nil, List.nodup_append] at hnodup
        exact hnodup.2.2 _ hmem _ List.mem_cons_self rfl
      · intro t' ht'
        obtain rfl := Option.some.inj (ht.symm.trans ht')
        exact ih hrun'

theorem invariant_init (env : Environment) : (World.init env).Invariant :=
  ⟨Ledger.consistent_empty, State.noConfusion⟩

/-- The invariant holds in every state of a run whose requests have distinct
identifiers. -/
theorem always_invariant {env : Environment} {w w' : World} {es : List Event}
    (hrun : exec (step env) w es = some w') (hids : (w'.issued.map Operation.id).Nodup)
    (h : w.Invariant) : Always (step env) Invariant w es :=
  always_of_meets (fun _ _ _ hf hs hi ↦ (step_move hs).invariant hf hi) (meets_fresh hrun hids) h

end Connector

end Tntpp
