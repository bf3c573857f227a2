import Tntpp.Connector.Steps

/-!
# Authentication after a reconnection

With credentials, the receive loop that has reconnected authenticates before it sets
`m_s` to `Connected`.  The request it issues goes through `send_request`, which rejects
what is sent while `m_s` is not `Connected`; so it is rejected, the loop tries again
with the next connection, and so on for ever: `never_reauthenticates`.  The first
authentication is not of this kind, as a connector is constructed `Connected`.
-/

namespace Tntpp

namespace Connector

open MsgPack (Codec)
open Transition World

/-- The authentication that a step from `w` to `w'` issues is registered, and not
rejected. -/
structure AuthAccepted (w w' : World) : Prop where
  /-- Its handler is registered. -/
  registered : ∃ id, (id, some w.issued.length) ∈ w'.requests
  /-- Its handler was not called with `not_connected`. -/
  not_rejected : .completed w.issued.length Errc.notConnected.code .empty ∉ w'.ledger.entries

/-- In some continuation from `w'` its handler is called with a reply. -/
def AuthAnswered (env : Environment) (w w' : World) : Prop :=
  ∃ es w'' ec frame, exec (step env) w' es = some w'' ∧ (w''.issued.map Operation.id).Nodup ∧
    .completed w.issued.length ec frame ∈ w''.ledger.entries ∧ ec.failed = false

/-- In some continuation from `w'` the connector is connected. -/
def Reconnects (env : Environment) (w' : World) : Prop :=
  ∃ es w'', exec (step env) w' es = some w'' ∧ w''.s = .connected

/-- The authentication of a reconnection is accepted, can be answered, and can lead to a
connected connector. -/
structure Reauthenticates (env : Environment) (w w' : World) : Prop where
  /-- It is accepted. -/
  accepted : AuthAccepted w w'
  /-- It can be answered. -/
  answered : AuthAnswered env w w'
  /-- It can lead to a connected connector. -/
  reconnects : Reconnects env w'

namespace World

variable {w w' : World} {env : Environment}

/-- A connector with credentials that is not connected does not get connected. -/
theorem Move.ne_connected {e : Event} (hm : Move env w e w') {credentials : Credentials}
    (hc : env.credentials = some credentials) (hs : w.s ≠ .connected) : w'.s ≠ .connected := by
  cases hm with
  | quiet hq => exact hq.ne_connected hs
  | generateId | reopen => exact hs
  | message hl hec =>
      refine (Quiet.goOn _).ne_connected ?_
      rw [handleMessage_eq]
      exact hs
  | connectedAgain salt hr hnone => exact absurd (hnone.symm.trans hc) (Option.some_ne_none _).symm
  | authRequest salt hr hsome hscramble =>
      obtain ⟨request, -, heq⟩ :=
        authenticate_of_credentials (w := { w with salt }) hsome hscramble hs
      rw [heq, (afterRejection_same _ _ _).1]
      exact (Quiet.goOn _).ne_connected hs
  | send request =>
      rw [sendRequest_of_ne_connected hs, (afterRejection_same _ _ _).1]
      exact hs
  | writeDone hi ec => exact hs

/-- It stays so in every run. -/
theorem not_reconnects {credentials : Credentials} (hc : env.credentials = some credentials)
    (hs : w.s ≠ .connected) : ¬ Reconnects env w := by
  rintro ⟨es, w', hrun, hs'⟩
  refine exec_invariant (I := fun w ↦ w.s ≠ .connected) ?_ hrun hs hs'
  exact fun w e w' ht ↦ (step_move ht).ne_connected hc

/-- The authentication of a reconnection is rejected. -/
theorem completed_of_authenticate {credentials : Credentials} {scramble : List UInt8}
    (hc : env.credentials = some credentials)
    (hscramble : env.scramblePassword credentials.password w.salt = .ok scramble)
    (hs : w.s ≠ .connected) :
    .completed w.issued.length Errc.notConnected.code .empty ∈
      (authenticate env w).ledger.entries := by
  obtain ⟨request, -, heq⟩ := authenticate_of_credentials hc hscramble hs
  rw [heq]
  refine mem_entries_of_suffix
    ((Quiet.goOn _).history_suffix.trans (history_suffix_afterRejection _ _ _)) ?_
  exact List.mem_cons_self

/-- Nothing happens after the process has ended. -/
theorem eq_of_exec_aborted (hl : w.loop = .aborted) {es : List Event}
    (hrun : exec (step env) w es = some w') : w' = w := by
  cases es with
  | nil => exact (Option.some.inj hrun).symm
  | cons e es =>
      obtain ⟨t, ht, -⟩ := exec_cons.mp hrun
      exact absurd hl (loop_ne_aborted ht)

end World

/-- In no run does a reconnection with credentials succeed: whenever `connect` has
succeeded and the loop authenticates, the request is not registered, no continuation of the
run delivers a reply to it, and in none the connector gets connected again.  With a salt
that gives a scramble the request is rejected with `not_connected`; with another one there
is no request. -/
theorem never_reauthenticates {env : Environment} {credentials : Credentials}
    (hc : env.credentials = some credentials) {es : List Event} {w w' : World}
    (hrun : exec (step env) (init env) es = some w) (hs : w.s = .connecting)
    (hd : w.destructor = .alive) {ec : ErrorCode} (hec : ec.failed = false) {salt : List UInt8}
    (h : step env w (.greeted ec salt) = some w') :
    ¬ Reauthenticates env w w' ∧
      (∀ scramble, env.scramblePassword credentials.password salt = .ok scramble →
        .completed w.issued.length Errc.notConnected.code .empty ∈ w'.ledger.entries) ∧
      ((w'.issued.map Operation.id).Nodup → ¬ w'.ledger.Pending w.issued.length) ∧
      ¬ AuthAnswered env w w' ∧ ¬ Reconnects env w' := by
  have hne : w.s ≠ .connected := by
    rw [hs]
    exact State.noConfusion
  have hw' : w' = authenticate env { w with salt } := by
    cases Fires.of_step h with
    | ungreeted _ _ hfailed => cases hec.symm.trans hfailed
    | expired _ _ _ hd' => exact absurd hd hd'
    | greeted => rfl
  have hinvariant : ∀ es' w'', exec (step env) w' es' = some w'' →
      (w''.issued.map Operation.id).Nodup → w''.Invariant := by
    intro es' w'' hrun' hids
    have hwhole : exec (step env) (init env) (es ++ .greeted ec salt :: es') = some w'' :=
      exec_append.mpr ⟨w, hrun, exec_cons.mpr ⟨w', h, hrun'⟩⟩
    exact (always_invariant hwhole hids (invariant_init env)).last hwhole
  have hreconnects : ¬ Reconnects env w' :=
    not_reconnects hc ((step_move h).ne_connected hc hne)
  refine ⟨fun hr ↦ hreconnects hr.reconnects, ?_⟩
  cases hscramble : env.scramblePassword credentials.password salt with
  | error fault =>
      have haborted : w' = { w with salt, loop := .aborted } :=
        hw'.trans (authenticate_of_fault (w := { w with salt }) hc hscramble)
      refine ⟨nofun, fun hids hp ↦ ?_, ?_, hreconnects⟩
      · have hlt := (hinvariant [] w' rfl hids).consistent.pending_lt hp
        rw [haborted] at hlt
        exact Nat.lt_irrefl _ hlt
      · rintro ⟨es', w'', ec', frame, hrun', hids, hmem, -⟩
        have hlt := (hinvariant es' w'' hrun' hids).consistent.completed_lt _ ⟨ec', frame, hmem⟩
        rw [haborted] at hrun'
        rw [eq_of_exec_aborted rfl hrun'] at hlt
        exact Nat.lt_irrefl _ hlt
  | ok scramble =>
      have hrejected :
          .completed w.issued.length Errc.notConnected.code .empty ∈ w'.ledger.entries := by
        rw [hw']
        exact completed_of_authenticate (w := { w with salt }) hc hscramble hne
      refine ⟨fun _ _ ↦ hrejected, fun hids hp ↦ ?_, ?_, hreconnects⟩
      · exact (hinvariant [] w' rfl hids).consistent.pending_not_completed _ hp ⟨_, _, hrejected⟩
      · rintro ⟨es', w'', ec', frame, hrun', hids, hmem, hok⟩
        have hi := hinvariant es' w'' hrun' hids
        have hfirst := mem_entries_of_suffix (history_suffix_of_exec hrun') hrejected
        obtain ⟨rfl, -⟩ := hi.consistent.completed_unique hfirst hmem
        exact absurd hok (by decide)

/-- What `ScramblePassword` gives for the password of `Environment.secured` and `demoSalt`. -/
def demoScramble : List UInt8 :=
  [0x21, 0xb3, 0xff, 0x40, 0x5f, 0x32, 0xcb, 0xe4, 0xaa, 0xff, 0xf2, 0x91, 0x39, 0x60, 0x46,
    0xea, 0x29, 0xfa, 0x3a, 0x4d]

/-- An environment with credentials. -/
def Environment.secured : Environment where
  mp := Codec.reference
  credentials := some ⟨[0x75, 0x73, 0x65, 0x72], [0x73, 0x65, 0x63, 0x72, 0x65, 0x74]⟩
  scramblePassword _ _ := .ok demoScramble
  sendQueueCapacity := 0
  ndebug := true
  freedReadable := true

/-- The second line of a greeting. -/
def demoSalt : List UInt8 :=
  [0x41, 0x41, 0x45, 0x43, 0x41, 0x77, 0x51, 0x46, 0x42, 0x67, 0x63, 0x49, 0x43, 0x51, 0x6f, 0x4c,
    0x44, 0x41, 0x30, 0x4f, 0x44, 0x78, 0x41, 0x52, 0x45, 0x68, 0x4d, 0x55, 0x46, 0x52, 0x59, 0x58,
    0x47, 0x42, 0x6b, 0x61, 0x47, 0x78, 0x77, 0x64, 0x48, 0x68, 0x38, 0x3d] ++
    List.replicate 19 0x20 ++ [0x0a]

/-- A connector authenticates, loses its connection and connects again. -/
def reconnectRun : List Event :=
  [.start, .generateId,
    .send ⟨0, (authRequest Codec.reference 0 [0x75, 0x73, 0x65, 0x72] demoScramble).stream⟩,
    .received {} ⟨{}, [0x80]⟩, connectionReset, .resolved {} [1], .connected {}]

/-- In the run, the first authentication succeeds, and the second is rejected as soon as it
is issued; the connector goes on without a connection. -/
theorem not_reauthenticates :
    ∃ w w', exec (step .secured) (init .secured) reconnectRun = some w ∧
      step .secured w (.greeted {} demoSalt) = some w' ∧
      .completed 0 {} ⟨{}, [0x80]⟩ ∈ w'.ledger.entries ∧
      .completed 1 Errc.notConnected.code .empty ∈ w'.ledger.entries ∧
      w'.s = .connecting ∧ w'.loop = .resolving ∧ ¬ Reauthenticates .secured w w' := by
  refine ⟨_, _, rfl, rfl, by decide, by decide, rfl, rfl, ?_⟩
  intro h
  exact h.accepted.not_rejected (by decide)

/-- No continuation of this run connects. -/
theorem never_reauthenticates_reconnectRun :
    ∃ w w', exec (step .secured) (init .secured) reconnectRun = some w ∧
      step .secured w (.greeted {} demoSalt) = some w' ∧
      .completed 1 Errc.notConnected.code .empty ∈ w'.ledger.entries ∧
      ¬ AuthAnswered .secured w w' ∧ ¬ Reconnects .secured w' := by
  have hnever : ∀ w w', exec (step .secured) (init .secured) reconnectRun = some w →
      step .secured w (.greeted {} demoSalt) = some w' → w.s = .connecting →
      w.destructor = .alive → w.issued.length = 1 →
      .completed 1 Errc.notConnected.code .empty ∈ w'.ledger.entries ∧
        ¬ AuthAnswered .secured w w' ∧ ¬ Reconnects .secured w' := by
    intro w w' hrun h hs hd hlen
    obtain ⟨-, hrejected, -, hanswered, hreconnects⟩ := never_reauthenticates rfl hrun hs hd rfl h
    have hmem := hrejected demoScramble rfl
    rw [hlen] at hmem
    exact ⟨hmem, hanswered, hreconnects⟩
  exact ⟨_, _, rfl, rfl, hnever _ _ rfl rfl rfl rfl rfl⟩

end Connector

end Tntpp
