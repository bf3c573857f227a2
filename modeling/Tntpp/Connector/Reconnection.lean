import Tntpp.Connector.Steps

/-!
# The socket on the way to the next connection

`Connection::connect` asserts that its socket is closed.  The loop calls it again
whenever an attempt has failed, and an attempt can fail with the socket open: `connect`
closes the socket before it tries the next address, not after it has tried the last.

The property is stated for every step, whether or not the program is compiled with
assertions: with them, a step that fails this one ends the process, and what the loop
would do is what it does without them.  `Attempts` is what holds between the steps.
-/

namespace Tntpp

namespace Connector

open Transition

/-- If the event makes the loop call `connect`, the socket is closed.  Without
assertions the call goes through, and the loop resolves the host. -/
def ConnectsClosed (env : Environment) (w : World) (e : Event) : Prop :=
  ∀ w', step { env with ndebug := true } w e = some w' → w'.loop = .resolving → w'.isOpen = false

/-- There are credentials, and a scramble for the salt. -/
def Scrambles (env : Environment) (salt : List UInt8) : Prop :=
  ∃ credentials scramble, env.credentials = some credentials ∧
    env.scramblePassword credentials.password salt = .ok scramble

/-- The event ends an attempt that had come as far as opening a socket: the last address
refuses the connection or sends no greeting, or the loop has to authenticate and has a
scramble to do it with, which a connector that is not connected cannot do. -/
def EndsAttempt (env : Environment) (w : World) : Event → Prop
  | .connected ec => w.loop = .connecting [] ∧ ec.failed = true
  | .greeted ec salt =>
    (w.loop = .greeting [] ∧ ec.failed = true) ∨
      ((∃ rest, w.loop = .greeting rest) ∧ ec.failed = false ∧ Scrambles env salt ∧
        w.destructor = .alive)
  | _ => False

/-- No attempt ends with its socket open. -/
def EndsClosed (env : Environment) (w : World) (e : Event) : Prop :=
  w.s = .connecting → w.isOpen = true → ¬ EndsAttempt env w e

namespace World

variable {env : Environment} {w w' : World}

/-- What the loop keeps to between two attempts. -/
structure Attempts (w : World) : Prop where
  /-- `connect` was called with a closed socket. -/
  closed : w.loop = .resolving → w.isOpen = false
  /-- The loop does not wait for messages while it has to connect. -/
  waiting : w.loop = .spawned ∨ w.loop = .receiving → w.s ≠ .connecting

namespace Attempts

theorem of_loop (h : w.loop ≠ .resolving) (h' : w.loop ≠ .spawned) (h'' : w.loop ≠ .receiving) :
    w.Attempts := by
  constructor
  · exact fun hl ↦ absurd hl h
  · rintro (hl | hl)
    · exact absurd hl h'
    · exact absurd hl h''

theorem enter (hopen : w.s = .connecting → w.isOpen = false) (h : World.enter env w = .ok w') :
    w'.Attempts := by
  rcases enter_cases env w with ⟨-, ⟨w₁, -, he⟩ | ⟨w₁, -, he⟩⟩ | ⟨hs, loop, hl, he⟩ | ⟨hs, he⟩
  · cases h.symm.trans he
    exact of_loop Loop.noConfusion Loop.noConfusion Loop.noConfusion
  · cases h.symm.trans he
  · cases h.symm.trans he
    rcases hl with rfl | rfl
    · exact of_loop Loop.noConfusion Loop.noConfusion Loop.noConfusion
    · exact ⟨fun _ ↦ hopen hs, by rintro (hl | hl) <;> cases hl⟩
  · cases h.symm.trans he
    exact ⟨Loop.noConfusion, fun _ ↦ by simp [hs]⟩

/-- After a reset the socket is closed. -/
theorem resetEnter (h : w.reset.bind (World.enter env) = .ok w') : w'.Attempts := by
  cases hr : w.reset with
  | ok w₁ =>
      rw [hr] at h
      exact enter (fun _ ↦ (reset_result hr).2.1) h
  | error w₁ =>
      rw [hr] at h
      cases h

theorem catchAll {r : Except World World} (h : ∀ w', r = .ok w' → w'.Attempts) :
    (World.catchAll env r).Attempts := by
  cases r with
  | ok w₁ => exact h w₁ rfl
  | error w₁ =>
      unfold World.catchAll
      dsimp only
      split_ifs
      · exact of_loop Loop.noConfusion Loop.noConfusion Loop.noConfusion
      · cases hr : w₁.reset.bind (World.enter env) with
        | ok w₂ => exact resetEnter hr
        | error w₂ => exact of_loop Loop.noConfusion Loop.noConfusion Loop.noConfusion

theorem goOn (hopen : w.s = .connecting → w.isOpen = false) : (World.goOn env w).Attempts :=
  catchAll fun _ h ↦ enter hopen h

theorem tryNext {addresses : List Endpoint}
    (hopen : addresses = [] → w.s = .connecting → w.isOpen = false) :
    (World.tryNext env w addresses).Attempts := by
  cases addresses with
  | nil => exact goOn (hopen rfl)
  | cons address rest => exact of_loop Loop.noConfusion Loop.noConfusion Loop.noConfusion

/-- A step that leaves the loop where it is, does not open the socket and does not set the
connector to reconnect. -/
theorem congr (h : w.Attempts) (hloop : w'.loop = w.loop)
    (hopen : w.isOpen = false → w'.isOpen = false)
    (hs : w'.s = .connecting → w.s = .connecting) : w'.Attempts := by
  constructor
  · rw [hloop]
    exact fun hl ↦ hopen (h.closed hl)
  · rw [hloop]
    exact fun hl hs' ↦ h.waiting hl (hs hs')

end Attempts

/-! ## Functions that leave the socket alone -/

theorem Attempts.afterRejection (h : w.Attempts) (id : OperationId) (data : Buffer) :
    (w.afterRejection id data).Attempts := by
  obtain ⟨hloop, hopen⟩ := afterRejection_loop w id data
  refine h.congr hloop (fun hclosed ↦ hopen.trans hclosed) ?_
  rw [(afterRejection_same w id data).1]
  exact fun hs ↦ hs

theorem Attempts.send (h : w.Attempts) (request : Operation) :
    (w.sendRequest id request).Attempts := by
  by_cases hs : w.s = .connected
  · rw [sendRequest_of_connected hs]
    exact h.congr rfl (fun hclosed ↦ (isOpen_sendData _ _).trans hclosed) fun hs ↦ hs
  · rw [sendRequest_of_ne_connected hs]
    have hrejected : (w.rejected request).Attempts := ⟨h.closed, h.waiting⟩
    exact hrejected.afterRejection _ _

theorem isOpen_onDataSent {i : Nat} {ec : ErrorCode} (h : w.isOpen = false) :
    (w.onDataSent i ec).isOpen = false := by
  unfold onDataSent start isOpen Sender.start
  rw [Connection.socket_onDataSent]
  split_ifs
  · rfl
  · exact h

/-- Authenticating fails a connector that has to connect, and sends it back to the top. -/
theorem Attempts.authenticate
    (hopen : Scrambles env w.salt → w.s = .connecting → w.isOpen = false) :
    (World.authenticate env w).Attempts := by
  cases hc : env.credentials with
  | none =>
      rw [authenticate_of_none hc]
      exact ⟨Loop.noConfusion, fun _ ↦ State.noConfusion⟩
  | some credentials =>
      cases hscramble : env.scramblePassword credentials.password w.salt with
      | error fault =>
          rw [authenticate_of_fault hc hscramble]
          exact of_loop Loop.noConfusion Loop.noConfusion Loop.noConfusion
      | ok scramble =>
          by_cases hs : w.s = .connected
          · have hloop : (World.authenticate env w).loop = .authenticating := by
              rw [authenticate_of_scramble hc hscramble]
              exact congrArg World.loop (sendRequest_of_connected (w := w.authenticating) hs _ _)
            apply of_loop <;> (rw [hloop]; exact Loop.noConfusion)
          · obtain ⟨request, -, heq⟩ := authenticate_of_credentials hc hscramble hs
            rw [heq]
            refine (Attempts.goOn ?_).afterRejection _ _
            exact hopen ⟨credentials, scramble, hc, hscramble⟩

theorem Attempts.step {e : Event} (h : w.Attempts) (hstep : step env w e = some w')
    (hgood : EndsClosed env w e) : w'.Attempts := by
  have hclosed : EndsAttempt env w e → w.s = .connecting → w.isOpen = false :=
    fun he hs ↦ Bool.eq_false_iff.mpr fun hopen ↦ hgood hs hopen he
  cases Fires.of_step hstep with
  | rehash | generateId | drop => exact h.congr rfl (fun hc ↦ hc) fun hs ↦ hs
  | send request => exact h.send request
  | writeDone => exact h.congr rfl isOpen_onDataSent fun hs ↦ hs
  | start hl => exact goOn fun hs ↦ absurd hs (h.waiting (.inl hl))
  | unresolved _ hl => exact goOn fun _ ↦ h.closed hl
  | resolved hl => exact tryNext fun _ _ ↦ h.closed hl
  | refused hl hec =>
      refine tryNext ?_
      rintro rfl
      exact hclosed ⟨hl, hec⟩
  | connected | closed | vanished | expired =>
      exact of_loop Loop.noConfusion Loop.noConfusion Loop.noConfusion
  | ungreeted _ hl hec =>
      refine tryNext ?_
      rintro rfl
      exact hclosed (.inl ⟨hl, hec⟩)
  | greeted _ hl hec hd =>
      refine Attempts.authenticate fun hc ↦ ?_
      exact hclosed (.inr ⟨⟨_, hl⟩, hec, hc, hd⟩)
  | lost => exact catchAll fun _ ↦ resetEnter
  | message _ hl =>
      refine goOn fun hs ↦ absurd ?_ (h.waiting (.inr hl))
      rwa [handleMessage_eq] at hs
  | stop => exact h.congr rfl (fun _ ↦ rfl) State.noConfusion

/-- Without assertions the loop calls `connect` whatever the socket is. -/
theorem goOn_of_connecting (hn : env.ndebug = true) (hs : w.s = .connecting) :
    World.goOn env w = { w with loop := .resolving } := by
  simp [World.goOn, World.enter, World.catchAll, hs, hn]

/-- An attempt that ends with its socket open is followed by a call with an open socket. -/
theorem resolving_of_endsAttempt {e : Event} (hn : env.ndebug = true) (hs : w.s = .connecting)
    (hopen : w.isOpen = true) (he : EndsAttempt env w e) :
    ∃ w', Connector.step env w e = some w' ∧ w'.loop = .resolving ∧ w'.isOpen = true := by
  cases e with
  | connected ec =>
      obtain ⟨hl, hec⟩ := he
      have hnext : World.tryNext env w [] = { w with loop := .resolving } := goOn_of_connecting hn hs
      have hal : w.loop ≠ .aborted := by simp [hl]
      refine ⟨{ w with loop := .resolving }, step_eq_some_iff.mpr ⟨hal, ?_⟩, rfl, hopen⟩
      exact hnext ▸ .refused hl hec
  | greeted ec salt =>
      rcases he with ⟨hl, hec⟩ | ⟨⟨rest, hl⟩, hec, hc, hd⟩
      · have hnext : World.tryNext env w [] = { w with loop := .resolving } :=
          goOn_of_connecting hn hs
        have hal : w.loop ≠ .aborted := by simp [hl]
        refine ⟨{ w with loop := .resolving }, step_eq_some_iff.mpr ⟨hal, ?_⟩, rfl, hopen⟩
        exact hnext ▸ .ungreeted _ hl hec
      · obtain ⟨credentials, scramble, hc, hscramble⟩ := hc
        have hne : ({ w with salt } : World).s ≠ .connected := by
          rw [hs]
          exact State.noConfusion
        obtain ⟨request, -, heq⟩ :=
          authenticate_of_credentials (w := { w with salt }) hc hscramble hne
        rw [goOn_of_connecting (w := ({ w with salt } : World).authenticating.rejected request) hn hs]
          at heq
        obtain ⟨hloop, hopen'⟩ := afterRejection_loop
          { ({ w with salt } : World).authenticating.rejected request with loop := .resolving }
          w.requestId (({ w with salt } : World).nextBuffer request)
        have hal : w.loop ≠ .aborted := by simp [hl]
        refine ⟨World.authenticate env { w with salt }, step_eq_some_iff.mpr ⟨hal, ?_⟩, ?_, ?_⟩
        · exact .greeted salt hl hec hd
        · rw [heq]
          exact hloop
        · rw [heq]
          exact hopen'.trans hopen
  | _ => exact he.elim

end World

/-- In every run, the socket is closed whenever the loop calls `connect` if and only if
no attempt of the run ends with its socket open. -/
theorem connectsClosed_iff (env : Environment) (es : List Event) :
    Meets (step env) (ConnectsClosed env) (World.init env) es ↔
      Meets (step env) (EndsClosed env) (World.init env) es := by
  refine meets_iff_meets (F := fun _ _ ↦ True) (I := World.Attempts) ?_ ?_ (Meets.of_forall
    (fun _ _ ↦ trivial) _ _) ⟨Loop.noConfusion, fun _ ↦ State.noConfusion⟩
  · intro w e _ h
    constructor
    · intro hclosed hs hopen he
      have hndebug : ({ env with ndebug := true } : Environment).ndebug = true := rfl
      obtain ⟨w', hstep, hl, hopen'⟩ := World.resolving_of_endsAttempt hndebug hs hopen he
      exact absurd (hclosed w' hstep hl) (by simp [hopen'])
    · intro hgood w' hstep
      exact (World.Attempts.step h hstep hgood).closed
  · intro w e w' _ hgood hstep h
    exact h.step hstep hgood

/-- The connection is lost, and the server refuses the next one. -/
def refusedRun : List Event :=
  [.start, connectionReset, .resolved {} [1], .connected ⟨111, .system⟩]

/-- The loop calls `connect` with the socket of the attempt that was refused, which ends
a program that is compiled with assertions. -/
theorem refused_connection_left_open :
    (∃ w, exec (step { Environment.plain with ndebug := false }) (World.init .plain) refusedRun =
      some w ∧ w.loop = .aborted) ∧
    (∃ w, exec (step .plain) (World.init .plain) refusedRun = some w ∧ w.loop = .resolving ∧
      w.isOpen = true) ∧
    ¬ Meets (step .plain) (ConnectsClosed .plain) (World.init .plain) refusedRun := by
  refine ⟨⟨_, rfl, rfl⟩, ⟨_, rfl, rfl, rfl⟩, ?_⟩
  rintro ⟨-, h⟩
  have hlast := ((h _ rfl).2 _ rfl).2 _ rfl
  exact absurd (hlast.1 _ rfl rfl) (by decide)

end Connector

end Tntpp
