import Tntpp.Connector.Writes

/-!
# Completions of old writes

`on_data_sent` is told whether a write has succeeded, not which connection it was for.  A
write that has failed closes the socket and clears the queue, whatever connection they are
for by then; and the completion of a write may come when its connection was torn down and
the next one is open.

At most one write is outstanding, so a completion is that of the last write, and the account
says which connection it was started on.  `Watched` adds to the account which connections
`reset` has torn down.
-/

namespace Tntpp

namespace Connector

open Transition World

/-- The act starts a write. -/
def Act.isWrite : Act → Bool
  | .asyncWrite .. => true
  | .ledger _ | .sendData _ | .reset .. => false

/-- The act is a reset that has closed the socket. -/
def Act.tearsDown : Act → Bool
  | .reset _ _ threw => !threw
  | .ledger _ | .sendData _ | .asyncWrite .. => false

theorem Act.Quiet.isWrite {act : Act} (h : act.Quiet) : act.isWrite = false := by
  cases act with
  | ledger | reset => rfl
  | sendData | asyncWrite => exact h.elim

/-- The last write of an account, and the number of its connection. -/
def LastWrite (history : List Act) (write : Write Buffer) (epoch : Nat) : Prop :=
  ∃ later earlier, history = later ++ .asyncWrite write epoch :: earlier ∧
    ∀ act ∈ later, act.isWrite = false

/-- The last write is what a search of the account finds. -/
theorem lastWrite_iff {history : List Act} {write : Write Buffer} {epoch : Nat} :
    LastWrite history write epoch ↔ history.find? Act.isWrite = some (.asyncWrite write epoch) := by
  rw [List.find?_eq_some_iff_append]
  simp only [Bool.not_eq_true', LastWrite]
  exact ⟨fun h ↦ ⟨rfl, h⟩, fun h ↦ h.2⟩

/-- A connector, and the connections that `reset` has torn down. -/
structure Watched where
  /-- The connector. -/
  world : World
  /-- The numbers of the connections. -/
  torn : List Nat

namespace Watched

/-- A connector that was just constructed. -/
def init (env : Environment) : Watched := ⟨World.init env, []⟩

/-- What a step has added to the account. -/
def added (w w' : World) : List Act := w'.history.take (w'.history.length - w.history.length)

/-- One function on the strand. -/
def step (env : Environment) (s : Watched) (e : Event) : Option Watched :=
  (Connector.step env s.world e).map fun w' ↦
    ⟨w', if (added s.world w').any Act.tearsDown then s.world.epoch :: s.torn else s.torn⟩

/-- The buffer waits in the queue, for a request that was accepted on a connection newer than
the given one. -/
def WaitsNewer (w : World) (epoch : Nat) (data : Buffer) : Prop :=
  data ∈ w.sender.conn.queue.active ∧ ∃ epoch', w.ledger.Accepted data.owner epoch' ∧ epoch < epoch'

/-- The buffer waits in the queue or is being written. -/
def Pending (w : World) (data : Buffer) : Prop :=
  data ∈ w.sender.conn.queue.active ∨ ∃ write ∈ w.sender.outstanding, data ∈ write.buffers

/-- The event is the completion of a write whose connection `reset` has torn down. -/
def Stale (s : Watched) (e : Event) (ec : ErrorCode) (epoch : Nat) : Prop :=
  s.world.loop ≠ .aborted ∧
    ∃ i write, e = .writeDone i ec ∧ s.world.sender.outstanding[i]? = some write ∧
      LastWrite s.world.history write epoch ∧ epoch ∈ s.torn

/-- The completion of a stale write neither closes the socket of a newer connection or
attempt nor drops a buffer of a request that was accepted on a newer connection. -/
def Harmless (env : Environment) (s : Watched) (e : Event) : Prop :=
  ∀ ec epoch, s.Stale e ec epoch → ∀ s', s.step env e = some s' →
    (epoch < s.world.epoch → s.world.isOpen = true → s'.world.isOpen = true) ∧
    ∀ data, WaitsNewer s.world epoch data → Pending s'.world data

/-- A stale write that has failed completes while no newer socket is open and no newer
buffer waits. -/
def FailsAlone (s : Watched) (e : Event) : Prop :=
  ∀ ec epoch, s.Stale e ec epoch → ec.failed = true →
    (epoch < s.world.epoch → s.world.isOpen = false) ∧ ∀ data, ¬ WaitsNewer s.world epoch data

end Watched

namespace World

variable {env : Environment} {w w' : World}

/-! ## A completion is that of the last write -/

/-- At most one write is outstanding, and it is the last one. -/
structure WritesLast (w : World) : Prop where
  /-- The discipline of the operations. -/
  wellFormed : w.sender.WellFormed
  /-- What is outstanding is the last write. -/
  last : ∀ write ∈ w.sender.outstanding, ∃ epoch, LastWrite w.history write epoch

theorem lastWrite_append {history acts : List Act} {write : Write Buffer} {epoch : Nat}
    (hacts : ∀ act ∈ acts, act.isWrite = false)
    (h : LastWrite history write epoch) : LastWrite (acts ++ history) write epoch := by
  obtain ⟨later, earlier, rfl, hlater⟩ := h
  refine ⟨acts ++ later, earlier, (List.append_assoc _ _ _).symm, ?_⟩
  intro act hact
  rcases List.mem_append.mp hact with hact | hact
  · exact hacts act hact
  · exact hlater act hact

/-- Where nothing is written, the last write stays the last. -/
theorem WritesLast.congr (h : w.WritesLast) (acts : List Act)
    (hh : w'.history = acts ++ w.history) (hacts : ∀ act ∈ acts, act.isWrite = false)
    (hs : ∃ f, w'.sender = w.sender.onSocket f) : w'.WritesLast := by
  obtain ⟨f, hf⟩ := hs
  constructor
  · rw [hf]
    exact h.wellFormed.onSocket f
  · intro write hwrite
    rw [hf] at hwrite
    obtain ⟨epoch, hlast⟩ := h.last write hwrite
    rw [hh]
    exact ⟨epoch, lastWrite_append hacts hlast⟩

theorem WritesLast.quiet (h : w.WritesLast) (hq : Quiet w w') : w'.WritesLast := by
  obtain ⟨acts, hacts, hquiet⟩ := hq.history_eq
  refine h.congr acts hacts (fun act hact ↦ Act.Quiet.isWrite (hquiet act hact)) ?_
  rcases hq.sender_eq with hs | hs
  · exact ⟨id, hs⟩
  · exact ⟨Socket.close, hs⟩

theorem WritesLast.sendData (h : w.WritesLast) (data : Buffer) : (w.sendData data).WritesLast := by
  refine ⟨h.wellFormed.sendData data, ?_⟩
  have hh := history_sendData w data
  by_cases hs : w.sender.conn.sending = true
  · rw [if_pos hs] at hh
    have ho : (w.sendData data).sender.outstanding = w.sender.outstanding := by
      simp [World.sendData, World.start, Sender.start, Connection.sendData, hs]
    intro write hwrite
    rw [ho] at hwrite
    obtain ⟨epoch, hlast⟩ := h.last write hwrite
    have hno : ∀ act ∈ [Act.sendData data], act.isWrite = false := by simp [Act.isWrite]
    rw [hh]
    exact ⟨epoch, lastWrite_append hno hlast⟩
  · rw [if_neg hs] at hh
    have hnone : w.sender.outstanding = [] :=
      not_not.mp fun hne ↦ hs (h.wellFormed.sending_iff.mpr hne)
    have ho : (w.sendData data).sender.outstanding = [.single data] := by
      simp [World.sendData, World.start, Sender.start, Connection.sendData,
        Connection.initSingleSend, hs, hnone]
    intro write hwrite
    rw [ho, List.mem_singleton] at hwrite
    rw [hh, hwrite]
    exact ⟨w.epoch, [], _, rfl, fun act hact ↦ absurd hact List.not_mem_nil⟩

theorem WritesLast.onDataSent (h : w.WritesLast) {i : Nat} (hi : i < w.sender.outstanding.length)
    (ec : ErrorCode) : (w.onDataSent i ec).WritesLast := by
  refine ⟨h.wellFormed.writeDone hi ec, ?_⟩
  have hh := history_onDataSent w i ec
  intro write hwrite
  change write ∈ (w.sender.writeDone i ec).outstanding at hwrite
  rcases Sender.writeDone_eq h.wellFormed hi ec with ⟨hec, ha, heq⟩ | ⟨-, -, heq⟩ | ⟨-, heq⟩
  · rw [heq, List.mem_singleton] at hwrite
    rw [if_pos ⟨hec, ha⟩] at hh
    rw [hh, hwrite]
    exact ⟨w.epoch, [], _, rfl, fun act hact ↦ absurd hact List.not_mem_nil⟩
  · rw [heq] at hwrite
    exact absurd hwrite List.not_mem_nil
  · rw [heq] at hwrite
    exact absurd hwrite List.not_mem_nil

/-- A ledger entry is no write. -/
theorem WritesLast.entry (h : w.WritesLast) (entries : List Entry)
    (hh : w'.history = entries.map Act.ledger ++ w.history) (hs : w'.sender = w.sender) :
    w'.WritesLast := by
  exact h.congr _ hh (List.forall_mem_map.mpr fun _ _ ↦ rfl) ⟨id, hs⟩

theorem WritesLast.afterRejection (h : w.WritesLast) (id : OperationId) (data : Buffer) :
    (w.afterRejection id data).WritesLast := by
  unfold World.afterRejection
  split_ifs
  · exact h
  · have hinsert : ({ w with requests := w.requests.insert id none } : World).WritesLast :=
      ⟨h.wellFormed, h.last⟩
    exact hinsert.sendData data

theorem WritesLast.sendRequest {resume : World → World}
    (hr : ∀ w : World, w.WritesLast → (resume w).WritesLast) (h : w.WritesLast)
    (request : Operation) : (w.sendRequest resume request).WritesLast := by
  by_cases hs : w.s = .connected
  · rw [sendRequest_of_connected hs]
    have haccepted : (w.accepted request).WritesLast :=
      h.entry [.accepted w.issued.length w.epoch] rfl rfl
    exact haccepted.sendData _
  · rw [sendRequest_of_ne_connected hs]
    have hrejected : (w.rejected request).WritesLast :=
      h.entry [.completed w.issued.length Errc.notConnected.code .empty] rfl rfl
    exact (hr _ hrejected).afterRejection _ _

theorem Move.writesLast {e : Event} (hm : Move env w e w') (h : w.WritesLast) : w'.WritesLast := by
  cases hm with
  | quiet hq => exact h.quiet hq
  | generateId | connectedAgain => exact ⟨h.wellFormed, h.last⟩
  | reopen => exact h.congr [] rfl (by simp) ⟨fun s ↦ s.close.reopen, rfl⟩
  | @message ec frame hl hec =>
      have hhandled : (w.handleMessage frame).WritesLast := by
        rw [handleMessage_eq]
        exact h.congr _ rfl (List.forall_mem_map.mpr fun _ _ ↦ rfl) ⟨id, rfl⟩
      exact hhandled.quiet (Quiet.goOn _)
  | authRequest salt hr hc hscramble =>
      rw [authenticate_of_scramble (w := { w with salt }) hc hscramble]
      have hauth : World.WritesLast (authenticating { w with salt }) := ⟨h.wellFormed, h.last⟩
      exact hauth.sendRequest (fun v hv ↦ hv.quiet (Quiet.goOn v)) _
  | send request => exact h.sendRequest (fun v hv ↦ hv) request
  | writeDone hi ec => exact h.onDataSent hi ec

theorem writesLast_init (env : Environment) : (World.init env).WritesLast :=
  ⟨Sender.wellFormed_new _, fun _ hwrite ↦ absurd hwrite List.not_mem_nil⟩

end World

namespace Watched

variable {env : Environment} {s : Watched} {e : Event}

/-! ## One completion -/

/-- What a stale completion does is what `on_data_sent` does. -/
theorem step_of_stale (env : Environment) {ec : ErrorCode} {epoch : Nat} (h : s.Stale e ec epoch) :
    ∃ i torn, i < s.world.sender.outstanding.length ∧
      s.step env e = some ⟨s.world.onDataSent i ec, torn⟩ := by
  obtain ⟨hal, i, write, rfl, hwrite, -, -⟩ := h
  have hi : i < s.world.sender.outstanding.length := (List.getElem?_eq_some_iff.mp hwrite).1
  have hstep : Connector.step env s.world (.writeDone i ec) = some (s.world.onDataSent i ec) :=
    step_eq_some_iff.mpr ⟨hal, .writeDone hi ec⟩
  exact ⟨i, _, hi, congrArg (Option.map _) hstep⟩

/-- After a failure the socket is closed and nothing is pending. -/
theorem onDataSent_failed {w : World} (h : w.WritesLast) {i : Nat}
    (hi : i < w.sender.outstanding.length) {ec : ErrorCode} (hec : ec.failed = true) :
    (w.onDataSent i ec).isOpen = false ∧ ∀ data, ¬ Pending (w.onDataSent i ec) data := by
  have hsender : (w.onDataSent i ec).sender = w.sender.writeDone i ec := rfl
  rw [World.isOpen, hsender]
  rcases Sender.writeDone_eq h.wellFormed hi ec with ⟨hok, -⟩ | ⟨hok, -⟩ | ⟨-, heq⟩
  · cases hec.symm.trans hok
  · cases hec.symm.trans hok
  · refine ⟨by rw [heq]; rfl, ?_⟩
    rintro data (hqueue | ⟨write, hwrite, -⟩)
    · rw [hsender, heq] at hqueue
      exact List.not_mem_nil hqueue
    · rw [hsender, heq] at hwrite
      exact List.not_mem_nil hwrite

/-- After a success the socket is as it was, and what has waited is written. -/
theorem onDataSent_succeeded {w : World} (h : w.WritesLast) {i : Nat}
    (hi : i < w.sender.outstanding.length) {ec : ErrorCode} (hec : ec.failed = false) :
    (w.onDataSent i ec).isOpen = w.isOpen ∧
      ∀ data ∈ w.sender.conn.queue.active, Pending (w.onDataSent i ec) data := by
  have hsender : (w.onDataSent i ec).sender = w.sender.writeDone i ec := rfl
  rw [World.isOpen, hsender]
  rcases Sender.writeDone_eq h.wellFormed hi ec with ⟨-, -, heq⟩ | ⟨-, ha, heq⟩ | ⟨hfailed, -⟩
  · refine ⟨by rw [heq]; rfl, ?_⟩
    intro data hdata
    refine Or.inr ⟨.batch w.sender.conn.queue.active, ?_, hdata⟩
    rw [hsender, heq]
    exact List.mem_singleton_self _
  · refine ⟨by rw [heq]; rfl, ?_⟩
    intro data hdata
    rw [ha] at hdata
    exact absurd hdata List.not_mem_nil
  · cases hec.symm.trans hfailed

theorem harmless_iff_failsAlone (h : s.world.WritesLast) :
    s.Harmless env e ↔ s.FailsAlone e := by
  constructor
  · intro hharmless ec epoch hstale hec
    obtain ⟨i, torn, hi, hstep⟩ := step_of_stale env hstale
    obtain ⟨hclosed, hnone⟩ := onDataSent_failed h hi hec
    obtain ⟨hopen, hpending⟩ := hharmless ec epoch hstale _ hstep
    refine ⟨fun hlt ↦ ?_, fun data hwaits ↦ hnone data (hpending data hwaits)⟩
    rw [← Bool.not_eq_true]
    intro hisOpen
    cases hclosed.symm.trans (hopen hlt hisOpen)
  · intro halone ec epoch hstale s' hs'
    obtain ⟨i, torn, hi, hstep⟩ := step_of_stale env hstale
    obtain rfl := Option.some.inj (hstep.symm.trans hs')
    cases hec : ec.failed with
    | true =>
        obtain ⟨hclosed, hnone⟩ := halone ec epoch hstale hec
        refine ⟨fun hlt hopen ↦ ?_, fun data hwaits ↦ absurd hwaits (hnone data)⟩
        cases (hclosed hlt).symm.trans hopen
    | false =>
        obtain ⟨hsame, hpending⟩ := onDataSent_succeeded h hi hec
        exact ⟨fun _ hopen ↦ hsame.trans hopen, fun data hwaits ↦ hpending data hwaits.1⟩

theorem writesLast_step {s' : Watched} (h : s.step env e = some s') (hs : s.world.WritesLast) :
    s'.world.WritesLast := by
  obtain ⟨w', hstep, rfl⟩ := Option.map_eq_some_iff.mp h
  exact (step_move hstep).writesLast hs

end Watched

open Watched

/-! ## Runs -/

/-- In every run the only write that may be outstanding is the last one, and the completions
of stale writes are harmless if and only if no stale write that has failed completes while a
newer socket is open or a newer buffer waits. -/
theorem staleWrites_harmless_iff (env : Environment) (es : List Event) :
    (∀ s, exec (Watched.step env) (Watched.init env) es = some s →
      ∀ write ∈ s.world.sender.outstanding, s.world.sender.outstanding = [write] ∧
        ∃ epoch, LastWrite s.world.history write epoch) ∧
    (Meets (Watched.step env) (Harmless env) (Watched.init env) es ↔
      Meets (Watched.step env) FailsAlone (Watched.init env) es) := by
  constructor
  · intro s hrun write hwrite
    have hs : s.world.WritesLast := exec_invariant (I := fun s : Watched ↦ s.world.WritesLast)
      (fun _ _ _ ↦ writesLast_step) hrun (writesLast_init env)
    refine ⟨?_, hs.last write hwrite⟩
    obtain ⟨write', ho⟩ := List.length_eq_one_iff.mp
      (Nat.le_antisymm hs.wellFormed.outstanding_le (List.length_pos_of_mem hwrite))
    rw [ho, List.mem_singleton] at hwrite
    rw [ho, hwrite]
  · refine meets_iff_meets (F := fun _ _ ↦ True) (I := fun s : Watched ↦ s.world.WritesLast) ?_ ?_
      (Meets.of_forall (fun _ _ ↦ trivial) _ _) (writesLast_init env)
    · exact fun _ _ _ ↦ harmless_iff_failsAlone
    · exact fun _ _ _ _ _ ↦ writesLast_step

/-- A write is outstanding when the connection is lost, and the next attempt begins. -/
def reattempt : List Event :=
  [.start, .send (pingRequest 0), connectionReset, .resolved {} [1]]

/-- The attempt succeeds, and a request is accepted on the next connection. -/
def reconnected : List Event :=
  reattempt ++ [.connected {}, .greeted {} [], .send (pingRequest 1)]

/-- If the write fails then, it closes the socket of the attempt, and it drops the buffer of
the request. -/
theorem stale_failure_harmful :
    ¬ Meets (Watched.step .plain) (Harmless .plain) (Watched.init .plain)
        (reattempt ++ [.writeDone 0 ⟨125, .system⟩]) ∧
      ¬ Meets (Watched.step .plain) (Harmless .plain) (Watched.init .plain)
        (reconnected ++ [.writeDone 0 ⟨125, .system⟩]) := by
  constructor
  · intro h
    have hharmless := h.last rfl
    obtain ⟨hopen, -⟩ := hharmless ⟨125, .system⟩ 0
      ⟨by decide, 0, .single ⟨0, (pingRequest 0).data⟩, rfl, rfl, lastWrite_iff.mpr rfl, by decide⟩
      _ rfl
    cases hopen (by decide) (by decide)
  · intro h
    have hharmless := h.last rfl
    obtain ⟨-, hpending⟩ := hharmless ⟨125, .system⟩ 0
      ⟨by decide, 0, .single ⟨0, (pingRequest 0).data⟩, rfl, rfl, lastWrite_iff.mpr rfl, by decide⟩
      _ rfl
    rcases hpending ⟨1, (pingRequest 1).data⟩
      ⟨List.mem_singleton_self _, 1, List.mem_cons_self, Nat.one_pos⟩ with
      hqueue | ⟨write, hwrite, -⟩
    · exact List.not_mem_nil hqueue
    · exact List.not_mem_nil hwrite

end Connector

end Tntpp
