import Mathlib.Data.List.Basic
import Tntpp.Base.Outbox
import Tntpp.Base.Transition
import Tntpp.Detail.ErrorCode

/-!
# The sending side of a connection

`Connection` sends a buffer directly while no write is under way and collects
buffers in a double-buffered queue while one is; when the write completes, the
queue is swapped and its content is the next write.  A `Sender` is a connection
together with the operations it has started and not seen the completion of, which
is what asio keeps for it.

A sender is an outbox: `Sender.outbox` forgets the two vectors and the list of
operations, and `outbox_step` says that every step of a sender is a step of the
outbox or none.  The order of the bytes is the outbox's business; what the sender
adds is the discipline of its operations, `Sender.WellFormed`.
-/

namespace Tntpp

universe u

/-- A socket, as far as sending and reconnecting depend on it. -/
structure Socket where
  /-- `is_open`. -/
  isOpen : Bool
  /-- How often it was opened; each time is a connection of its own. -/
  epoch : Nat
deriving DecidableEq, Repr

namespace Socket

/-- `close`. -/
def close (s : Socket) : Socket := { s with isOpen := false }

/-- `async_connect` on a closed socket opens it. -/
def reopen (s : Socket) : Socket := { isOpen := true, epoch := s.epoch + 1 }

end Socket

/-! ## The queue -/

/-- Double buffer queue. -/
structure DBQueue (α : Type u) where
  /-- The capacity that is kept, or zero. -/
  defaultSize : Nat
  /-- The vector that is used to store new events. -/
  active : List α
  /-- The vector that is immutable. -/
  inactive : List α

/-- `vector::resize` to a smaller size. -/
def vectorResize {α : Type u} (size : Nat) (v : List α) : List α := v.take size

/-- `vector::clear`. -/
def vectorClear {α : Type u} (_ : List α) : List α := []

namespace DBQueue

variable {α : Type u}

/-- The constructor. -/
def new (defaultSize : Nat) : DBQueue α := ⟨defaultSize, [], []⟩

/-- `push`. -/
def push (q : DBQueue α) (value : α) : DBQueue α := { q with active := q.active ++ [value] }

/-- Checks if there is data in the active queue. -/
def isReady (q : DBQueue α) : Bool := !q.active.isEmpty

/-- Shrink a vector that has outgrown the capacity. -/
def shrink (q : DBQueue α) (v : List α) : List α :=
  if q.defaultSize ≠ 0 ∧ v.length > q.defaultSize then vectorResize q.defaultSize v else v

/-- `swap`, which returns the new inactive vector. -/
def swap (q : DBQueue α) : List α × DBQueue α :=
  let q := { q with active := q.inactive, inactive := q.active }
  let q := { q with active := vectorClear (q.shrink q.active) }
  (q.inactive, q)

/-- `clear`. -/
def clear (q : DBQueue α) : DBQueue α :=
  { q with
    active := vectorClear (q.shrink q.active)
    inactive := vectorClear (q.shrink q.inactive) }

end DBQueue

/-! ## The connection -/

/-- An operation started by `async_write`. -/
inductive Write (α : Type u) where
  /-- One buffer, which is owned by its sender. -/
  | single (data : α)
  /-- The inactive vector of the queue. -/
  | batch (data : List α)
deriving DecidableEq

/-- The buffers an operation writes, in order. -/
def Write.buffers {α : Type u} : Write α → List α
  | single d => [d]
  | batch ds => ds

/-- The part of `Connection` that sends. -/
structure Connection (α : Type u) where
  /-- `m_stream.next_layer()`. -/
  socket : Socket
  /-- Indicates if send operation is in progress. -/
  sending : Bool
  /-- Queue for send buffers. -/
  queue : DBQueue α

namespace Connection

variable {α : Type u}

/-- `stop`. -/
def stop (c : Connection α) : Connection α := { c with socket := c.socket.close }

/-- `init_single_send`, and the operation it starts. -/
def initSingleSend (c : Connection α) (data : α) : Connection α × Write α :=
  ({ c with sending := true }, .single data)

/-- `init_queue_send`, and the operation it starts. -/
def initQueueSend (c : Connection α) : Connection α × Write α :=
  let (data, queue) := c.queue.swap
  ({ c with sending := true, queue }, .batch data)

/-- `send_data`, and the operation it starts, if any. -/
def sendData (c : Connection α) (data : α) : Connection α × Option (Write α) :=
  if c.sending then ({ c with queue := c.queue.push data }, none)
  else
    let (c, w) := c.initSingleSend data
    (c, some w)

/-- `on_data_sent`, and the operation it starts, if any. -/
def onDataSent (c : Connection α) (ec : ErrorCode) : Connection α × Option (Write α) :=
  let c := { c with sending := false }
  let c := if ec.failed then { c with socket := c.socket.close, queue := c.queue.clear } else c
  -- check if there are new requests available and send them
  if c.queue.isReady then
    let (c, w) := c.initQueueSend
    (c, some w)
  else (c, none)

@[simp] theorem socket_sendData (c : Connection α) (data : α) :
    (c.sendData data).1.socket = c.socket := by
  unfold sendData
  split_ifs <;> rfl

theorem socket_onDataSent (c : Connection α) (ec : ErrorCode) :
    (c.onDataSent ec).1.socket = if ec.failed then c.socket.close else c.socket := by
  unfold onDataSent
  cases ec.failed <;> (dsimp only; split_ifs <;> rfl)

/-- A failed operation closes the socket; no completion opens it. -/
@[simp] theorem epoch_onDataSent (c : Connection α) (ec : ErrorCode) :
    (c.onDataSent ec).1.socket.epoch = c.socket.epoch := by
  unfold onDataSent
  cases ec.failed <;> (dsimp only; split_ifs <;> rfl)

end Connection

/-! ## The connection and its operations -/

/-- A connection with the operations it has started. -/
structure Sender (α : Type u) where
  /-- The connection. -/
  conn : Connection α
  /-- The operations that have not completed, oldest first. -/
  outstanding : List (Write α) := []
  /-- All operations, oldest first. -/
  started : List (Write α) := []

/-- What happens to a connection on its strand. -/
inductive SendEvent (α : Type u) where
  /-- `send_data`. -/
  | sendData (data : α)
  /-- The completion of the outstanding operation at position `i`. -/
  | writeDone (i : Nat) (ec : ErrorCode)
  /-- The socket is closed from outside. -/
  | stop
  /-- The socket is opened for a new connection. -/
  | opened

namespace SendEvent

variable {α : Type u}

/-- The buffer an event passes to `send_data`. -/
def data : SendEvent α → List α
  | .sendData data => [data]
  | .writeDone .. => []
  | .stop => []
  | .opened => []

/-- What an event is to the outbox. -/
def toOutbox : SendEvent α → List (Outbox.Event α)
  | .sendData data => [.put data]
  | .writeDone _ ec => [if ec.failed then .fail else .done]
  | .stop => []
  | .opened => []

end SendEvent

namespace Sender

variable {α : Type u}

/-- A connection that has sent nothing; `capacity` is `send_queue_capacity`. -/
def new (capacity : Nat) : Sender α := { conn := ⟨⟨true, 0⟩, false, DBQueue.new capacity⟩ }

/-- Record the operation a function of the connection has started. -/
def start (s : Sender α) (r : Connection α × Option (Write α)) : Sender α where
  conn := r.1
  outstanding := s.outstanding ++ r.2.toList
  started := s.started ++ r.2.toList

/-- `send_data`. -/
def sendData (s : Sender α) (data : α) : Sender α := s.start (s.conn.sendData data)

/-- The outstanding operation at position `i` completes. -/
def writeDone (s : Sender α) (i : Nat) (ec : ErrorCode) : Sender α :=
  { s with outstanding := s.outstanding.eraseIdx i }.start (s.conn.onDataSent ec)

/-- Change the socket. -/
def onSocket (s : Sender α) (f : Socket → Socket) : Sender α :=
  { s with conn := { s.conn with socket := f s.conn.socket } }

/-- One step; `none` where the operation that is to complete does not exist. -/
def step (s : Sender α) : SendEvent α → Option (Sender α)
  | .sendData data => some (s.sendData data)
  | .writeDone i ec => if i < s.outstanding.length then some (s.writeDone i ec) else none
  | .stop => some (s.onSocket Socket.close)
  | .opened => some (s.onSocket Socket.reopen)

/-- The discipline of the operations. -/
structure WellFormed (s : Sender α) : Prop where
  /-- At most one operation is outstanding. -/
  outstanding_le : s.outstanding.length ≤ 1
  /-- `m_sending` says whether one is. -/
  sending_iff : s.conn.sending = true ↔ s.outstanding ≠ []
  /-- The active vector is empty unless one is. -/
  outstanding_of_active : s.conn.queue.active ≠ [] → s.outstanding ≠ []
  /-- The inactive vector is what an outstanding batch refers to. -/
  inactive_eq : ∀ ds, .batch ds ∈ s.outstanding → s.conn.queue.inactive = ds

theorem wellFormed_new (capacity : Nat) : (new capacity : Sender α).WellFormed where
  outstanding_le := Nat.zero_le 1
  sending_iff := by simp [new]
  outstanding_of_active h := absurd rfl h
  inactive_eq ds h := absurd h List.not_mem_nil

section

variable {s : Sender α}

/-- Buffers are queued while an operation is outstanding, and otherwise become one. -/
theorem WellFormed.sendData (h : s.WellFormed) (data : α) : (s.sendData data).WellFormed := by
  by_cases hs : s.conn.sending = true
  · have ho := h.sending_iff.mp hs
    have heq : s.sendData data =
        { s with conn := { s.conn with queue := s.conn.queue.push data } } := by
      simp [Sender.sendData, start, Connection.sendData, hs]
    rw [heq]
    exact ⟨h.outstanding_le, h.sending_iff, fun _ ↦ ho, h.inactive_eq⟩
  · have ho : s.outstanding = [] := not_not.mp fun ho ↦ hs (h.sending_iff.mpr ho)
    have heq : s.sendData data =
        { conn := { s.conn with sending := true }
          outstanding := [.single data]
          started := s.started ++ [.single data] } := by
      simp [Sender.sendData, start, Connection.sendData, Connection.initSingleSend, hs, ho]
    rw [heq]
    refine ⟨Nat.le_refl 1, ?_, ?_, ?_⟩
    · simp
    · intro _
      simp
    · intro ds hds
      cases List.mem_singleton.mp hds

/-- The only outstanding operation is replaced by the content of the queue, unless
there is none or the operation has failed. -/
theorem writeDone_eq (h : s.WellFormed) {i : Nat} (hi : i < s.outstanding.length) (ec : ErrorCode) :
    (ec.failed = false ∧ s.conn.queue.active ≠ [] ∧
      s.writeDone i ec =
        { conn := ⟨s.conn.socket, true, ⟨s.conn.queue.defaultSize, [], s.conn.queue.active⟩⟩
          outstanding := [.batch s.conn.queue.active]
          started := s.started ++ [.batch s.conn.queue.active] }) ∨
    (ec.failed = false ∧ s.conn.queue.active = [] ∧
      s.writeDone i ec = { s with conn := { s.conn with sending := false }, outstanding := [] }) ∨
    (ec.failed = true ∧
      s.writeDone i ec =
        { s with
          conn := ⟨s.conn.socket.close, false, ⟨s.conn.queue.defaultSize, [], []⟩⟩
          outstanding := [] }) := by
  have hle := h.outstanding_le
  have herase : s.outstanding.eraseIdx i = [] := by
    apply List.eq_nil_of_length_eq_zero
    rw [List.length_eraseIdx_of_lt hi]
    omega
  cases hec : ec.failed with
  | true =>
      refine Or.inr (Or.inr ⟨rfl, ?_⟩)
      simp [writeDone, start, Connection.onDataSent, hec, DBQueue.clear, DBQueue.isReady,
        vectorClear, herase]
  | false =>
      by_cases ha : s.conn.queue.active = []
      · refine Or.inr (Or.inl ⟨rfl, ha, ?_⟩)
        simp [writeDone, start, Connection.onDataSent, hec, DBQueue.isReady, ha, herase]
      · refine Or.inl ⟨rfl, ha, ?_⟩
        simp [writeDone, start, Connection.onDataSent, Connection.initQueueSend, hec,
          DBQueue.isReady, DBQueue.swap, vectorClear, ha, herase]

theorem WellFormed.writeDone (h : s.WellFormed) {i : Nat} (hi : i < s.outstanding.length)
    (ec : ErrorCode) : (s.writeDone i ec).WellFormed := by
  rcases writeDone_eq h hi ec with ⟨-, -, heq⟩ | ⟨-, ha, heq⟩ | ⟨-, heq⟩
  · rw [heq]
    refine ⟨Nat.le_refl 1, by simp, fun hne ↦ absurd rfl hne, ?_⟩
    intro ds hds
    cases List.mem_singleton.mp hds
    rfl
  · rw [heq]
    exact ⟨Nat.zero_le 1, by simp, fun hne ↦ absurd ha hne, fun ds hds ↦ absurd hds List.not_mem_nil⟩
  · rw [heq]
    exact ⟨Nat.zero_le 1, by simp, fun hne ↦ absurd rfl hne, fun ds hds ↦ absurd hds List.not_mem_nil⟩

theorem WellFormed.onSocket (h : s.WellFormed) (f : Socket → Socket) : (s.onSocket f).WellFormed :=
  ⟨h.outstanding_le, h.sending_iff, h.outstanding_of_active, h.inactive_eq⟩

theorem WellFormed.step (h : s.WellFormed) {e : SendEvent α} {s' : Sender α}
    (hs : s.step e = some s') : s'.WellFormed := by
  cases e with
  | sendData data =>
      cases hs
      exact h.sendData data
  | writeDone i ec =>
      simp only [Sender.step] at hs
      split_ifs at hs with hi
      cases hs
      exact h.writeDone hi ec
  | stop =>
      cases hs
      exact h.onSocket _
  | opened =>
      cases hs
      exact h.onSocket _

end

/-! ## A sender is an outbox -/

/-- The buffers of some operations, in order. -/
def buffersOf (ws : List (Write α)) : List α := ws.flatMap Write.buffers

/-- The outbox a well-formed sender is. -/
def outbox (s : Sender α) (h : s.WellFormed) : Outbox.State α where
  handed := buffersOf s.started
  waiting := s.conn.queue.active
  busy := s.conn.sending
  waiting_of_idle := by
    intro hs
    by_contra hne
    have := h.sending_iff.mpr (h.outstanding_of_active hne)
    exact Bool.false_ne_true (hs.symm.trans this)

/-- Every step of a sender is a step of the outbox, or none. -/
theorem outbox_step {s s' : Sender α} (h : s.WellFormed) {e : SendEvent α}
    (hs : s.step e = some s') : s'.outbox (h.step hs) = (s.outbox h).run e.toOutbox := by
  apply Outbox.State.ext_iff.mpr
  cases e with
  | sendData data =>
      cases hs
      by_cases hb : s.conn.sending = true
      · simp [outbox, Sender.sendData, start, Connection.sendData, SendEvent.toOutbox,
          Outbox.State.step, DBQueue.push, hb]
      · simp [outbox, Sender.sendData, start, Connection.sendData, Connection.initSingleSend,
          SendEvent.toOutbox, Outbox.State.step, buffersOf, Write.buffers, hb]
  | writeDone i ec =>
      have hs' := hs
      simp only [step] at hs'
      split_ifs at hs' with hi
      cases hs'
      simp only [outbox]
      rcases writeDone_eq h hi ec with ⟨hec, ha, heq⟩ | ⟨hec, ha, heq⟩ | ⟨hec, heq⟩
      · simp [heq, SendEvent.toOutbox, Outbox.State.step, buffersOf, Write.buffers, hec, ha]
      · simp [heq, SendEvent.toOutbox, Outbox.State.step, buffersOf, hec, ha]
      · simp [heq, SendEvent.toOutbox, Outbox.State.step, hec]
  | stop =>
      cases hs
      exact ⟨rfl, rfl, rfl⟩
  | opened =>
      cases hs
      exact ⟨rfl, rfl, rfl⟩

/-- The discipline holds in every run. -/
theorem WellFormed.exec {s s' : Sender α} (h : s.WellFormed) {es : List (SendEvent α)}
    (hrun : Transition.exec Sender.step s es = some s') : s'.WellFormed :=
  Transition.exec_invariant (fun _ _ _ hs h ↦ WellFormed.step h hs) hrun h

/-- Every run of a sender is a run of the outbox. -/
theorem outbox_exec {s s' : Sender α} (h : s.WellFormed) {es : List (SendEvent α)}
    (hrun : Transition.exec step s es = some s') :
    s'.outbox (h.exec hrun) = (s.outbox h).run (es.flatMap SendEvent.toOutbox) := by
  induction es generalizing s with
  | nil =>
      cases hrun
      rfl
  | cons e es ih =>
      obtain ⟨t, ht, hrun'⟩ := Transition.exec_cons.mp hrun
      rw [ih (h.step ht) hrun', outbox_step h ht, List.flatMap_cons, Outbox.State.run_append]

end Sender

/-! ## Order of sending -/

namespace Sender

variable {α : Type u}

/-- The run contains no failed completion. -/
def NoFailure (es : List (SendEvent α)) : Prop := ∀ i ec, .writeDone i ec ∈ es → ec.failed = false

theorem puts_toOutbox (es : List (SendEvent α)) :
    Outbox.puts (es.flatMap SendEvent.toOutbox) = es.flatMap SendEvent.data := by
  induction es with
  | nil => rfl
  | cons e es ih =>
      rw [List.flatMap_cons, List.flatMap_cons, ← ih]
      cases e with
      | writeDone i ec =>
          by_cases hec : ec.failed = true <;>
            simp [SendEvent.toOutbox, SendEvent.data, Outbox.puts, Outbox.Event.item, hec]
      | sendData | stop | opened =>
          simp [SendEvent.toOutbox, SendEvent.data, Outbox.puts, Outbox.Event.item]

/-- Without failures, what was handed to `async_write` followed by what is queued is
what was passed to `send_data` since. -/
theorem buffersOf_append_active {s s' : Sender α} (h : s.WellFormed) {es : List (SendEvent α)}
    (hrun : Transition.exec step s es = some s') (hes : NoFailure es) :
    buffersOf s'.started ++ s'.conn.queue.active =
      buffersOf s.started ++ s.conn.queue.active ++ es.flatMap SendEvent.data := by
  have hnf : ∀ e ∈ es.flatMap SendEvent.toOutbox, e ≠ .fail := by
    intro e he
    obtain ⟨e', he', hmem⟩ := List.mem_flatMap.mp he
    rintro rfl
    cases e' with
    | writeDone i ec => simp [SendEvent.toOutbox, hes i ec he'] at hmem
    | sendData | stop | opened => simp [SendEvent.toOutbox] at hmem
  have hfifo := Outbox.handed_append_waiting (s.outbox h) hnf
  rw [← outbox_exec h hrun, puts_toOutbox] at hfifo
  exact hfifo

/-- What is handed to `async_write` was queued or is passed to `send_data` since. -/
theorem buffersOf_sublist {s s' : Sender α} (h : s.WellFormed) {es : List (SendEvent α)}
    (hrun : Transition.exec step s es = some s') :
    ∃ later, buffersOf s'.started = buffersOf s.started ++ later ∧
      later.Sublist (s.conn.queue.active ++ es.flatMap SendEvent.data) := by
  obtain ⟨later, hlater, hsub⟩ :=
    Outbox.handed_sublist (s.outbox h) (es.flatMap SendEvent.toOutbox)
  rw [← outbox_exec h hrun] at hlater
  rw [puts_toOutbox] at hsub
  exact ⟨later, hlater, hsub⟩

/-- A failed completion starts nothing and empties the queue, so what is handed to
`async_write` after it was passed to `send_data` after it. -/
theorem buffersOf_after_failure {s s' : Sender α} (h : s.WellFormed) {i : Nat} {ec : ErrorCode}
    (hec : ec.failed = true) {es : List (SendEvent α)}
    (hrun : Transition.exec step s (.writeDone i ec :: es) = some s') :
    ∃ later, buffersOf s'.started = buffersOf s.started ++ later ∧
      later.Sublist (es.flatMap SendEvent.data) := by
  obtain ⟨t, ht, hrun'⟩ := Transition.exec_cons.mp hrun
  obtain ⟨later, hlater, hsub⟩ := buffersOf_sublist (h.step ht) hrun'
  have ht' := ht
  simp only [step] at ht'
  split_ifs at ht' with hi
  obtain rfl := Option.some.inj ht'
  rcases writeDone_eq h hi ec with ⟨hok, -⟩ | ⟨hok, -⟩ | ⟨-, heq⟩
  · exact absurd (hec.symm.trans hok) (by decide)
  · exact absurd (hec.symm.trans hok) (by decide)
  · rw [heq] at hlater hsub
    exact ⟨later, hlater, hsub⟩

end Sender

/-- Sending is ordered and does not overlap.  In every state a connection reaches: at
most one operation is outstanding, `m_sending` says whether one is, the active
vector is empty unless one is, and the inactive vector is still what an outstanding
batch was given.  As long as no write fails, the buffers handed to `async_write`
followed by the queued ones are those passed to `send_data`, in call order.  And
after a failed completion only buffers passed after it are handed to `async_write`,
in call order. -/
theorem send_ordered {α : Type u} (capacity : Nat) (es : List (SendEvent α)) (s : Sender α)
    (hrun : Transition.exec Sender.step (Sender.new capacity) es = some s) :
    (s.outstanding.length ≤ 1 ∧
      (s.conn.sending = true ↔ s.outstanding ≠ []) ∧
      (s.conn.queue.active ≠ [] → s.outstanding ≠ []) ∧
      (∀ ds, .batch ds ∈ s.outstanding → s.conn.queue.inactive = ds)) ∧
    (Sender.NoFailure es →
      Sender.buffersOf s.started ++ s.conn.queue.active = es.flatMap SendEvent.data) ∧
    (∀ fs gs i ec t, es = fs ++ .writeDone i ec :: gs → ec.failed = true →
      Transition.exec Sender.step (Sender.new capacity) fs = some t →
      ∃ later, Sender.buffersOf s.started = Sender.buffersOf t.started ++ later ∧
        later.Sublist (gs.flatMap SendEvent.data)) := by
  have h₀ := Sender.wellFormed_new (α := α) capacity
  have h := h₀.exec hrun
  refine ⟨⟨h.outstanding_le, h.sending_iff, h.outstanding_of_active, h.inactive_eq⟩, ?_, ?_⟩
  · intro hes
    simpa [Sender.new, Sender.buffersOf, DBQueue.new] using Sender.buffersOf_append_active h₀ hrun hes
  · rintro fs gs i ec t rfl hec ht
    obtain ⟨t', ht', hrun'⟩ := Transition.exec_append.mp hrun
    obtain rfl := Option.some.inj (ht.symm.trans ht')
    exact Sender.buffersOf_after_failure (h₀.exec ht) hec hrun'

/-- Three buffers and a completion: the second and the third buffer are one write. -/
theorem send_ordered_batch :
    ∃ s, Transition.exec Sender.step (Sender.new 1)
        [.sendData 1, .sendData 2, .sendData 3, .writeDone 0 {}] = some s ∧
      s.outstanding = [.batch [2, 3]] ∧ s.conn.queue.inactive = [2, 3] ∧
      Sender.buffersOf s.started ++ s.conn.queue.active = [1, 2, 3] := by
  obtain ⟨⟨-, -, -, hinactive⟩, hfifo, -⟩ := send_ordered (α := Nat) 1
    [.sendData 1, .sendData 2, .sendData 3, .writeDone 0 {}] _ rfl
  refine ⟨_, rfl, rfl, hinactive [2, 3] (List.mem_singleton.mpr rfl), hfifo ?_⟩
  intro i ec h
  simp only [List.mem_cons, reduceCtorEq, SendEvent.writeDone.injEq, List.not_mem_nil, or_false,
    false_or] at h
  rw [h.2]
  rfl

end Tntpp
