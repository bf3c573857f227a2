import Tntpp.Connector.Writes

/-!
# Transmission

What reaches the wire in a run of a connector, over all its connections.  The account of
a run says what was handed to `async_write` on which connection; `written` puts the
connections one after the other, and `transmitted` adds what is queued.

A sender hands over in order what it is given, and loses what waits when a write fails.
A connector has one sender for all its connections, and gives it each request once, also
those it rejects: `Transmits` says so of one step, and `transmission_inOrder` of a run.
-/

namespace Tntpp

namespace Connector

open Transition World

/-! ## What was written -/

/-- The buffers an act hands to `async_write` on a connection. -/
def Act.writtenOn (epoch : Nat) : Act → List Buffer
  | .asyncWrite write e => if e = epoch then write.buffers else []
  | .ledger _ | .sendData _ | .reset .. => []

/-- The buffers handed to `async_write` on a connection, oldest first. -/
def writtenOn (history : List Act) (epoch : Nat) : List Buffer :=
  history.reverse.flatMap (Act.writtenOn epoch)

/-- The buffers handed to `async_write` on the connections up to the current one, one
after the other. -/
def written (history : List Act) (epoch : Nat) : List Buffer :=
  (List.range (epoch + 1)).flatMap (writtenOn history)

section

variable {history : List Act} {epoch : Nat}

theorem writtenOn_cons (act : Act) (history : List Act) (epoch : Nat) :
    writtenOn (act :: history) epoch = writtenOn history epoch ++ act.writtenOn epoch := by
  simp [writtenOn]

/-- An act that writes nothing. -/
def Act.Silent : Act → Prop
  | .asyncWrite .. => False
  | .ledger _ | .sendData _ | .reset .. => True

theorem Act.Silent.writtenOn_eq {act : Act} (h : act.Silent) (epoch : Nat) :
    act.writtenOn epoch = [] := by
  cases act with
  | ledger | sendData | reset => rfl
  | asyncWrite => exact h.elim

theorem Act.Quiet.silent {act : Act} (h : act.Quiet) : act.Silent := by
  cases act with
  | ledger | reset => trivial
  | sendData | asyncWrite => exact h.elim

theorem writtenOn_append {acts : List Act} (hacts : ∀ act ∈ acts, act.Silent) :
    writtenOn (acts ++ history) epoch = writtenOn history epoch := by
  induction acts with
  | nil => rfl
  | cons act acts ih =>
      obtain ⟨hact, hacts⟩ := List.forall_mem_cons.mp hacts
      rw [List.cons_append, writtenOn_cons, hact.writtenOn_eq, List.append_nil, ih hacts]

theorem written_append {acts : List Act} (hacts : ∀ act ∈ acts, act.Silent) :
    written (acts ++ history) epoch = written history epoch :=
  List.flatMap_congr fun _ _ ↦ writtenOn_append hacts

theorem written_cons {act : Act} (hact : act.Silent) :
    written (act :: history) epoch = written history epoch :=
  written_append (List.forall_mem_singleton.mpr hact)

/-- What is written now is written last. -/
theorem written_asyncWrite (write : Write Buffer) (history : List Act) (epoch : Nat) :
    written (.asyncWrite write epoch :: history) epoch =
      written history epoch ++ write.buffers := by
  have hbefore : (List.range epoch).flatMap (writtenOn (.asyncWrite write epoch :: history)) =
      (List.range epoch).flatMap (writtenOn history) := by
    refine List.flatMap_congr fun e he ↦ ?_
    rw [writtenOn_cons, Act.writtenOn, if_neg (Nat.ne_of_gt (List.mem_range.mp he)),
      List.append_nil]
  simp only [written, List.range_succ, List.flatMap_append, List.flatMap_singleton, hbefore]
  rw [writtenOn_cons, Act.writtenOn, if_pos rfl, List.append_assoc]

/-- Nothing is written on a connection that comes later. -/
theorem written_succ (h : ∀ write e, .asyncWrite write e ∈ history → e ≤ epoch) :
    written history (epoch + 1) = written history epoch := by
  have hnone : writtenOn history (epoch + 1) = [] := by
    refine List.flatMap_eq_nil_iff.mpr fun act hact ↦ ?_
    cases act with
    | asyncWrite write e =>
        have hle := h write e (List.mem_reverse.mp hact)
        exact if_neg (by omega)
    | ledger | sendData | reset => rfl
  rw [written, List.range_succ, List.flatMap_append, List.flatMap_singleton, hnone, List.append_nil]
  rfl

end

namespace World

variable {w w' : World} {env : Environment}

/-- The buffers of the issued requests. -/
def issuedBuffers (w : World) : List Buffer := w.issued.mapIdx fun h request ↦ ⟨h, request.data⟩

/-- What was written, followed by what is queued. -/
def transmitted (w : World) : List Buffer :=
  written w.history w.epoch ++ w.sender.conn.queue.active

theorem owners_issuedBuffers (w : World) :
    w.issuedBuffers.map Buffer.owner = List.range w.issued.length := by
  refine List.ext_getElem (by simp [issuedBuffers]) fun i _ _ ↦ ?_
  simp [issuedBuffers]

/-- Each request has a buffer of its own. -/
theorem nodup_issuedBuffers (w : World) : w.issuedBuffers.Nodup := by
  refine List.Nodup.of_map Buffer.owner ?_
  rw [owners_issuedBuffers]
  exact List.nodup_range

theorem mem_issuedBuffers {data : Buffer} (h : data ∈ w.issuedBuffers) :
    ∃ request, w.issued[data.owner]? = some request ∧ data.bytes = request.data := by
  obtain ⟨i, hi, rfl⟩ := List.mem_mapIdx.mp h
  exact ⟨w.issued[i], List.getElem?_eq_getElem hi, rfl⟩

theorem issuedBuffers_append {request : Operation} (h : w'.issued = w.issued ++ [request]) :
    w'.issuedBuffers = w.issuedBuffers ++ [w.nextBuffer request] := by
  rw [issuedBuffers, h, List.mapIdx_concat]
  rfl

/-! ## The functions of the connection -/

/-- Nothing is written, opened or queued. -/
structure Silently (w w' : World) : Prop where
  /-- Nothing is written. -/
  history_eq : ∃ acts, w'.history = acts ++ w.history ∧ ∀ act ∈ acts, act.Silent
  /-- The connection is the same. -/
  epoch_eq : w'.epoch = w.epoch
  /-- Its queue is the same. -/
  queue_eq : w'.sender.conn.queue = w.sender.conn.queue

theorem Silently.trans {w'' : World} (h : Silently w w') (h' : Silently w' w'') :
    Silently w w'' where
  history_eq := by
    obtain ⟨acts, hacts, hsilent⟩ := h.history_eq
    obtain ⟨acts', hacts', hsilent'⟩ := h'.history_eq
    refine ⟨acts' ++ acts, ?_, List.forall_mem_append.mpr ⟨hsilent', hsilent⟩⟩
    rw [hacts', hacts, List.append_assoc]
  epoch_eq := h'.epoch_eq.trans h.epoch_eq
  queue_eq := h'.queue_eq.trans h.queue_eq

theorem Quiet.silently (h : Quiet w w') : Silently w w' where
  history_eq := by
    obtain ⟨acts, hacts, hquiet⟩ := h.history_eq
    exact ⟨acts, hacts, fun act hact ↦ (hquiet act hact).silent⟩
  epoch_eq := by
    rcases h.sender_eq with hs | hs
    · exact congrArg (fun s ↦ s.conn.socket.epoch) hs
    · exact congrArg (fun s ↦ s.conn.socket.epoch) hs
  queue_eq := by
    rcases h.sender_eq with hs | hs
    · exact congrArg (fun s ↦ s.conn.queue) hs
    · exact congrArg (fun s ↦ s.conn.queue) hs

theorem silently_accepted (w : World) (request : Operation) : Silently w (w.accepted request) :=
  ⟨⟨[_], rfl, List.forall_mem_singleton.mpr trivial⟩, rfl, rfl⟩

theorem silently_rejected (w : World) (request : Operation) : Silently w (w.rejected request) :=
  ⟨⟨[_], rfl, List.forall_mem_singleton.mpr trivial⟩, rfl, rfl⟩

theorem silently_handleMessage (w : World) (frame : IprotoFrame (List UInt8)) :
    Silently w (w.handleMessage frame) := by
  rw [handleMessage_eq]
  refine ⟨⟨_, rfl, List.forall_mem_map.mpr fun h _ ↦ ?_⟩, rfl, rfl⟩
  trivial

theorem Silently.transmitted_eq (h : Silently w w') : w'.transmitted = w.transmitted := by
  obtain ⟨acts, hacts, hsilent⟩ := h.history_eq
  rw [transmitted, hacts, h.epoch_eq, h.queue_eq, written_append hsilent]
  rfl

@[simp] theorem epoch_sendData (w : World) (data : Buffer) : (w.sendData data).epoch = w.epoch :=
  congrArg Socket.epoch (Connection.socket_sendData _ _)

@[simp] theorem epoch_writeDone (w : World) (i : Nat) (ec : ErrorCode) :
    (w.onDataSent i ec).epoch = w.epoch := Connection.epoch_onDataSent _ ec

/-- A buffer that is sent goes to the end. -/
theorem transmitted_sendData (h : w.sender.WellFormed) (data : Buffer) :
    (w.sendData data).transmitted = w.transmitted ++ [data] := by
  have hsilent : (Act.sendData data).Silent := trivial
  rw [transmitted, epoch_sendData, history_sendData]
  by_cases hs : w.sender.conn.sending = true
  · have hactive : (w.sendData data).sender.conn.queue.active =
        w.sender.conn.queue.active ++ [data] := by
      simp [sendData, start, Sender.start, Connection.sendData, DBQueue.push, hs]
    rw [if_pos hs, hactive, written_cons hsilent, ← List.append_assoc]
    rfl
  · have hempty : w.sender.conn.queue.active = [] := by
      by_contra hne
      exact hs (h.sending_iff.mpr (h.outstanding_of_active hne))
    have hactive : (w.sendData data).sender.conn.queue.active = [] := by
      simp [sendData, start, Sender.start, Connection.sendData, Connection.initSingleSend, hs,
          hempty]
    rw [if_neg hs, hactive, written_asyncWrite, written_cons hsilent, transmitted, hempty,
      List.append_nil, List.append_nil]
    rfl

/-- A write that has succeeded is followed by what is queued, and one that has failed
loses it. -/
theorem transmitted_onDataSent (h : w.sender.WellFormed) {i : Nat}
    (hi : i < w.sender.outstanding.length) (ec : ErrorCode) :
    (w.onDataSent i ec).transmitted =
      if ec.failed then written w.history w.epoch else w.transmitted := by
  have hsender : (w.onDataSent i ec).sender = w.sender.writeDone i ec := rfl
  rw [transmitted, epoch_writeDone, history_onDataSent, hsender, transmitted]
  rcases Sender.writeDone_eq h hi ec with ⟨hec, ha, heq⟩ | ⟨hec, ha, heq⟩ | ⟨hec, heq⟩
  · rw [heq, if_pos ⟨hec, ha⟩, written_asyncWrite, hec, if_neg Bool.false_ne_true, List.append_nil]
    rfl
  · rw [heq, if_neg fun hsent ↦ hsent.2 ha, hec, if_neg Bool.false_ne_true]
  · rw [heq, if_neg fun hsent ↦ Bool.false_ne_true (hsent.1.symm.trans hec), if_pos hec]
    exact List.append_nil _

/-! ## One step -/

/-- The event is a write that has failed. -/
def FailedWrite : Event → Prop
  | .writeDone _ ec => ec.failed = true
  | _ => False

/-- What a step does with the buffers of requests: it issues some, and transmits them
behind the others.  It may lose some if a write fails or the process ends. -/
structure Transmits (w : World) (e : Event) (w' : World) (new : List Buffer) : Prop where
  /-- The new buffers are issued. -/
  issued : w'.issuedBuffers = w.issuedBuffers ++ new
  /-- They go to the end. -/
  ordered : w'.transmitted.Sublist (w.transmitted ++ new)
  /-- None is lost. -/
  complete : ¬ FailedWrite e → w'.loop ≠ .aborted → w'.transmitted = w.transmitted ++ new

theorem Transmits.of_eq {e : Event} {new : List Buffer}
    (hissued : w'.issuedBuffers = w.issuedBuffers ++ new)
    (htransmitted : w'.transmitted = w.transmitted ++ new) : Transmits w e w' new :=
  ⟨hissued, htransmitted ▸ List.Sublist.refl _, fun _ _ ↦ htransmitted⟩

/-- Nothing is issued or written. -/
theorem Transmits.nil {e : Event} (hissued : w'.issued = w.issued)
    (htransmitted : w'.transmitted = w.transmitted) : Transmits w e w' [] := by
  refine .of_eq ?_ ?_
  · rw [issuedBuffers, hissued, List.append_nil]
    rfl
  · rw [htransmitted, List.append_nil]

theorem Quiet.wellFormed (hq : Quiet w w') (h : w.sender.WellFormed) : w'.sender.WellFormed := by
  rcases hq.sender_eq with hs | hs <;> rw [hs]
  · exact h
  · exact h.onSocket _

/-- A request is transmitted behind the others, unless the process ends while it is
rejected. -/
theorem transmits_sendRequest (h : w.sender.WellFormed) {resume : World → World}
    (hr : ∀ w, Quiet w (resume w)) (request : Operation) (e : Event) :
    Transmits w e (w.sendRequest resume request) [w.nextBuffer request] := by
  have hissued : (w.sendRequest resume request).issuedBuffers =
      w.issuedBuffers ++ [w.nextBuffer request] :=
    issuedBuffers_append (issued_sendRequest (fun w ↦ (hr w).issued_eq) w request)
  by_cases hs : w.s = .connected
  · rw [sendRequest_of_connected hs] at hissued ⊢
    refine .of_eq hissued ?_
    rw [transmitted_sendData (w := w.accepted request) h,
      (silently_accepted w request).transmitted_eq]
  · rw [sendRequest_of_ne_connected hs] at hissued ⊢
    have hquiet := hr (w.rejected request)
    have hresumed :=
      hquiet.silently.transmitted_eq.trans (silently_rejected w request).transmitted_eq
    have hwf := hquiet.wellFormed (w := w.rejected request) h
    by_cases hl : (resume (w.rejected request)).loop = .aborted
    · rw [World.afterRejection, if_pos hl] at hissued ⊢
      refine ⟨hissued, ?_, fun _ hne ↦ absurd hl hne⟩
      rw [hresumed]
      exact List.sublist_append_left _ _
    · rw [World.afterRejection, if_neg hl] at hissued ⊢
      refine .of_eq hissued ?_
      rw [← hresumed]
      exact transmitted_sendData
        (w := { resume (w.rejected request) with
          requests := (resume (w.rejected request)).requests.insert request.id none }) hwf _

/-- Nothing was written on a connection that comes later. -/
def EpochsPast (w : World) : Prop := ∀ write e, .asyncWrite write e ∈ w.history → e ≤ w.epoch

theorem EpochsPast.silently (h : w.EpochsPast) (hw : Silently w w') : w'.EpochsPast := by
  obtain ⟨acts, hacts, hsilent⟩ := hw.history_eq
  intro write e hmem
  rw [hacts] at hmem
  rw [hw.epoch_eq]
  rcases List.mem_append.mp hmem with hmem | hmem
  · exact (hsilent _ hmem).elim
  · exact h write e hmem

theorem EpochsPast.sendData (h : w.EpochsPast) (data : Buffer) : (w.sendData data).EpochsPast := by
  intro write e hmem
  rw [epoch_sendData]
  rw [history_sendData] at hmem
  split_ifs at hmem
  · rcases List.mem_cons.mp hmem with heq | hmem
    · cases heq
    · exact h write e hmem
  · rcases List.mem_cons.mp hmem with heq | hmem
    · cases heq
      exact Nat.le_refl _
    rcases List.mem_cons.mp hmem with heq | hmem
    · cases heq
    · exact h write e hmem

theorem EpochsPast.sendRequest (h : w.EpochsPast) {resume : World → World}
    (hr : ∀ w, Quiet w (resume w)) (request : Operation) :
    (w.sendRequest resume request).EpochsPast := by
  by_cases hs : w.s = .connected
  · rw [sendRequest_of_connected hs]
    exact (h.silently (silently_accepted w request)).sendData _
  · rw [sendRequest_of_ne_connected hs]
    have hresumed := (h.silently (silently_rejected w request)).silently (hr _).silently
    unfold World.afterRejection
    split_ifs
    · exact hresumed
    · exact EpochsPast.sendData hresumed _

theorem Move.epochsPast {e : Event} (hm : Move env w e w') (h : w.EpochsPast) : w'.EpochsPast := by
  cases hm with
  | quiet hq => exact h.silently hq.silently
  | generateId | connectedAgain => exact h
  | reopen => exact fun write e hmem ↦ Nat.le_succ_of_le (h write e hmem)
  | message hl hec =>
      exact (h.silently (silently_handleMessage w _)).silently (Quiet.goOn _).silently
  | authRequest salt hr hc hscramble =>
      rw [authenticate_of_scramble (w := { w with salt }) hc hscramble]
      exact EpochsPast.sendRequest (w := authenticating { w with salt }) h Quiet.goOn _
  | send request => exact h.sendRequest Quiet.refl request
  | @writeDone i hi ec =>
      intro write e hmem
      rw [epoch_writeDone]
      rw [history_onDataSent] at hmem
      split_ifs at hmem
      · rcases List.mem_cons.mp hmem with heq | hmem
        · cases heq
          exact Nat.le_refl _
        · exact h write e hmem
      · exact h write e hmem

theorem Move.transmits {e : Event} (hm : Move env w e w') (h : w.sender.WellFormed)
    (hpast : w.EpochsPast) : ∃ new, Transmits w e w' new := by
  cases hm with
  | quiet hq => exact ⟨[], .nil hq.issued_eq hq.silently.transmitted_eq⟩
  | generateId | connectedAgain => exact ⟨[], .nil rfl rfl⟩
  | reopen => exact ⟨[], .nil rfl (congrArg (· ++ _) (written_succ hpast))⟩
  | @message ec frame hl hec =>
      have hquiet : Quiet (w.handleMessage frame) (World.goOn env _) := Quiet.goOn _
      refine ⟨[], .nil ?_ ?_⟩
      · rw [hquiet.issued_eq, handleMessage_eq]
      · rw [hquiet.silently.transmitted_eq, (silently_handleMessage w frame).transmitted_eq]
  | @authRequest ec credentials scramble salt hr hc hscramble =>
      rw [authenticate_of_scramble (w := { w with salt }) hc hscramble]
      have hgoOn : ∀ w, Quiet w (World.goOn env w) := Quiet.goOn
      have hsent (request : Operation) :=
        transmits_sendRequest (w := authenticating { w with salt })
        h hgoOn request (.greeted ec salt)
      exact ⟨_, (hsent _).issued, (hsent _).ordered, (hsent _).complete⟩
  | send request => exact ⟨_, transmits_sendRequest h Quiet.refl request _⟩
  | @writeDone i hi ec =>
      refine ⟨[], ?_, ?_, fun hok _ ↦ ?_⟩
      · exact (List.append_nil _).symm
      · rw [transmitted_onDataSent h hi, List.append_nil]
        split_ifs
        · exact List.sublist_append_left _ _
        · exact List.Sublist.refl _
      · rw [transmitted_onDataSent h hi, List.append_nil]
        exact if_neg hok

theorem epoch_sendRequest {resume : World → World} (hr : ∀ w, Quiet w (resume w)) (w : World)
    (request : Operation) : (w.sendRequest resume request).epoch = w.epoch := by
  by_cases hs : w.s = .connected
  · rw [sendRequest_of_connected hs, epoch_sendData]
    rfl
  · rw [sendRequest_of_ne_connected hs]
    have hresumed := (hr (w.rejected request)).silently.epoch_eq
    unfold World.afterRejection
    split_ifs
    · exact hresumed
    · rw [epoch_sendData]
      exact hresumed

/-- Connections are numbered in the order they are made. -/
theorem Move.epoch_le {e : Event} (hm : Move env w e w') : w.epoch ≤ w'.epoch := by
  cases hm with
  | quiet hq => exact Nat.le_of_eq hq.silently.epoch_eq.symm
  | generateId | connectedAgain => exact Nat.le_refl _
  | reopen => exact Nat.le_succ _
  | message =>
      exact Nat.le_of_eq ((silently_handleMessage w _).epoch_eq.symm.trans
        (Quiet.goOn _).silently.epoch_eq.symm)
  | authRequest salt hr hc hscramble =>
      rw [authenticate_of_scramble (w := { w with salt }) hc hscramble]
      exact Nat.le_of_eq (epoch_sendRequest Quiet.goOn (authenticating { w with salt }) _).symm
  | send request => exact Nat.le_of_eq (epoch_sendRequest Quiet.refl w request).symm
  | writeDone hi ec => exact Nat.le_of_eq (epoch_writeDone w _ ec).symm

/-- What is transmitted is in order. -/
structure InOrder (w : World) : Prop where
  /-- The connection keeps to the discipline of a sender. -/
  wellFormed : w.sender.WellFormed
  /-- The connections of the account are those there were. -/
  epochsPast : w.EpochsPast
  /-- No buffer is duplicated or overtaken. -/
  ordered : w.transmitted.Sublist w.issuedBuffers

theorem inOrder_init (env : Environment) : (init env).InOrder where
  wellFormed := Sender.wellFormed_new _
  epochsPast _ _ h := absurd h List.not_mem_nil
  ordered := List.Sublist.refl []

theorem InOrder.step (h : w.InOrder) {e : Event} (hs : step env w e = some w') : w'.InOrder := by
  have hm := step_move hs
  obtain ⟨ses, hses⟩ := hm.sender
  obtain ⟨new, hnew⟩ := hm.transmits h.wellFormed h.epochsPast
  refine ⟨h.wellFormed.exec hses, hm.epochsPast h.epochsPast, ?_⟩
  rw [hnew.issued]
  exact hnew.ordered.trans (h.ordered.append_right new)

end World

/-! ## Runs -/

/-- What is transmitted in a run are buffers of issued requests in the order of issue,
whatever happens: those written on the first connection, those written on the next, and
so on, and at last those that are queued.  So no request is written twice, on one
connection or on two.  Where no write fails and the process goes on, none is missing. -/
theorem transmission_inOrder {env : Environment} {es : List Event} {w : World}
    (hrun : exec (step env) (init env) es = some w) :
    (written w.history w.epoch ++ w.sender.conn.queue.active).Sublist w.issuedBuffers ∧
      (written w.history w.epoch ++ w.sender.conn.queue.active).Nodup ∧
      ((∀ e ∈ es, ¬ FailedWrite e) → w.loop ≠ .aborted →
        written w.history w.epoch ++ w.sender.conn.queue.active = w.issuedBuffers) := by
  have hinOrder : w.InOrder :=
    exec_invariant (fun _ _ _ hs h ↦ InOrder.step h hs) hrun (inOrder_init env)
  refine ⟨hinOrder.ordered, hinOrder.ordered.nodup w.nodup_issuedBuffers, fun hes ↦ ?_⟩
  have hmeets : Meets (step env) (fun _ e ↦ ¬ FailedWrite e) (init env) es := .of_forall_mem hes _
  have hcomplete : Always (step env)
      (fun w ↦ w.InOrder ∧ (w.loop ≠ .aborted → w.transmitted = w.issuedBuffers)) (init env)
        es := by
    refine always_of_meets (fun w e w' he hs h ↦ ?_) hmeets ⟨inOrder_init env, fun _ ↦ rfl⟩
    refine ⟨h.1.step hs, fun hl ↦ ?_⟩
    obtain ⟨new, hnew⟩ := (step_move hs).transmits h.1.wellFormed h.1.epochsPast
    rw [hnew.complete he hl, hnew.issued, h.2 (loop_ne_aborted hs)]
  exact (hcomplete.last hrun).2

/-- Two requests, a lost connection, and one more request on the next. -/
def reconnectedRun : List Event :=
  queuedRun ++ [connectionReset, .writeDone 0 {}, .resolved {} [1], .connected {}, .greeted {} [],
    .writeDone 0 {}, .generateId, .send (pingRequest 2)]

/-- The second request is written on the first connection after that was lost, and the third
on the second. -/
theorem transmission_inOrder_reconnectedRun :
    ∃ w, exec (step .plain) (init .plain) reconnectedRun = some w ∧ w.epoch = 1 ∧
      written w.history w.epoch ++ w.sender.conn.queue.active =
        [⟨0, (pingRequest 0).data⟩, ⟨1, (pingRequest 1).data⟩, ⟨2, (pingRequest 2).data⟩] := by
  obtain ⟨w, hrun⟩ : ∃ w, exec (step .plain) (init .plain) reconnectedRun = some w := ⟨_, rfl⟩
  have hlast : (exec (step .plain) (init .plain) reconnectedRun).map
      (fun w ↦ (w.epoch, w.loop, w.issuedBuffers)) = some (1, .receiving,
        [⟨0, (pingRequest 0).data⟩, ⟨1, (pingRequest 1).data⟩, ⟨2, (pingRequest 2).data⟩]) := rfl
  rw [hrun, Option.map_some, Option.some_inj, Prod.mk.injEq, Prod.mk.injEq] at hlast
  obtain ⟨hepoch, hloop, hissued⟩ := hlast
  refine ⟨w, hrun, hepoch, hissued ▸ (transmission_inOrder hrun).2.2 ?_ ?_⟩
  · simp [reconnectedRun, queuedRun, connectionReset, FailedWrite]
  · rw [hloop]
    exact Loop.noConfusion

end Connector

end Tntpp
