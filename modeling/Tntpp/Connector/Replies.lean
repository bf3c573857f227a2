import Tntpp.Box.Sync
import Tntpp.Connector.Steps

/-!
# Replies reach their own callers

A handler that is called with success is called with the frame whose identifier is the
one its request is registered under.  As that is also the identifier the request was
packed with (`ApiCall.wireSync_packer`), a server that echoes identifiers answers each
request to its own caller: `replies_reach_callers`.

The rule for identifiers is that each request has one of its own.  `generate_id` gives
such identifiers as long as it is called at most `2 ^ 64` times: `generated_nodup`.
-/

namespace Tntpp

namespace Connector

open MsgPack (Codec)
open Transition World

/-! ## Identifiers -/

/-- The identifiers `generate_id` returns in a run, in order: the counter moves when it is
called, and only then. -/
def generated (env : Environment) : World → List Event → List OperationId
  | _, [] => []
  | w, e :: es =>
    match step env w e with
    | none => []
    | some w' => (if w'.requestId = w.requestId then [] else [w.requestId]) ++ generated env w' es

/-- They are consecutive. -/
theorem generated_eq (env : Environment) (w : World) (es : List Event) :
    generated env w es =
      (List.range (generated env w es).length).map fun i ↦ w.requestId + .ofNat i := by
  induction es generalizing w with
  | nil => rfl
  | cons e es ih =>
      rw [generated]
      cases hs : step env w e with
      | none => rfl
      | some w' =>
          dsimp only
          rcases (step_move hs).requestId with heq | heq
          · rw [if_pos heq, List.nil_append, ← heq]
            exact ih w'
          · have hne : w'.requestId ≠ w.requestId := by
              rw [heq]
              grind
            rw [if_neg hne, List.singleton_append, List.length_cons, List.range_succ_eq_map,
              List.map_cons, List.map_map]
            refine List.cons_eq_cons.mpr ⟨by simp, ?_⟩
            refine (ih w').trans (List.map_congr_left fun i _ ↦ ?_)
            show w'.requestId + .ofNat i = w.requestId + .ofNat (i + 1)
            rw [heq, UInt64.ofNat_add, UInt64.add_assoc, UInt64.add_comm 1]
            rfl

/-- As long as there are at most `2 ^ 64` of them, they are distinct. -/
theorem generated_nodup {env : Environment} {w : World} {es : List Event}
    (h : (generated env w es).length ≤ 2 ^ 64) : (generated env w es).Nodup := by
  rw [generated_eq]
  refine List.Nodup.map_on ?_ List.nodup_range
  intro i hi j hj heq
  have hlt : ∀ k ∈ List.range (generated env w es).length, k < 2 ^ 64 :=
    fun k hk ↦ Nat.lt_of_lt_of_le (List.mem_range.mp hk) h
  have hof : UInt64.ofNat i = .ofNat j := by grind
  have hnat := congrArg UInt64.toNat hof
  rwa [UInt64.toNat_ofNat_of_lt' (hlt i hi), UInt64.toNat_ofNat_of_lt' (hlt j hj)] at hnat

/-- Requests that take each an identifier of their own have distinct ones. -/
theorem ids_nodup {env : Environment} {w w' : World} {es : List Event}
    (h : (generated env w es).length ≤ 2 ^ 64)
    (hids : (w'.issued.map Operation.id).Subperm (generated env w es)) :
    (w'.issued.map Operation.id).Nodup := by
  obtain ⟨ids, hperm, hsub⟩ := hids
  exact hperm.nodup_iff.mp (hsub.nodup (generated_nodup h))

/-! ## What a run issues and what it completes with success -/

/-- A request an operation hands to `send_request`. -/
def FromApi (mp : Codec) (request : Operation) : Prop :=
  ∃ (call : ApiCall) (id : OperationId) (p : RequestPacker),
    call.packer mp id = some (request.id, p) ∧ request.data = p.stream

theorem FromApi.wireSync {mp : Codec} {request : Operation} (h : FromApi mp request)
    (hmp : mp.Lawful) : wireSync mp request.data = some request.id := by
  obtain ⟨call, id, p, hcall, hdata⟩ := h
  obtain ⟨hid, hsync⟩ := call.wireSync_packer hmp hcall
  rw [hdata, hsync, hid]

namespace World

variable {w w' : World} {env : Environment}

/-- A request that a step issues is the one that is sent, or an authentication. -/
theorem Move.mem_issued {e : Event} (hm : Move env w e w') {request : Operation}
    (h : request ∈ w'.issued) :
    request ∈ w.issued ∨ e = .send request ∨ FromApi env.mp request := by
  cases hm with
  | quiet hq => exact Or.inl (hq.issued_eq ▸ h)
  | generateId | reopen | connectedAgain | writeDone => exact Or.inl h
  | message hl hec =>
      rw [(Quiet.goOn _).issued_eq, handleMessage_eq] at h
      exact Or.inl h
  | authRequest salt hr hc hscramble =>
      rw [authenticate_of_scramble (w := { w with salt }) hc hscramble,
        issued_sendRequest fun w ↦ (Quiet.goOn w).issued_eq] at h
      rcases List.mem_append.mp h with h | h
      · exact Or.inl h
      · right; right
        obtain rfl := List.mem_singleton.mp h
        exact ⟨.auth _ _, w.requestId, _, rfl, rfl⟩
  | send request' =>
      have hissued := issued_sendRequest (fun _ ↦ rfl) w request'
      rw [show w.sendRequest id request' = w.sendRequest (fun w ↦ w) request' from rfl,
        hissued] at h
      rcases List.mem_append.mp h with h | h
      · exact Or.inl h
      · obtain rfl := List.mem_singleton.mp h
        exact Or.inr (Or.inl rfl)

/-- Nothing succeeds in a quiet step. -/
theorem Quiet.success (hq : Quiet w w') {h : HandlerId} {ec : ErrorCode}
    {frame : IprotoFrame (List UInt8)} (hec : ec.failed = false)
    (hmem : .completed h ec frame ∈ w'.ledger.entries) :
    .completed h ec frame ∈ w.ledger.entries := by
  obtain ⟨acts, hacts, hquiet⟩ := hq.history_eq
  have hmem' := mem_history_iff.mpr hmem
  rw [hacts] at hmem'
  rcases List.mem_append.mp hmem' with hmem' | hmem'
  · exact absurd (hquiet _ hmem') (Bool.eq_false_iff.mp hec)
  · exact mem_history_iff.mp hmem'

/-- A handler that a step calls with success is called with the frame it receives. -/
theorem Move.success {e : Event} (hm : Move env w e w') (hi : w.Invariant) {h : HandlerId}
    {ec : ErrorCode} {frame : IprotoFrame (List UInt8)} (hec : ec.failed = false)
    (hmem : .completed h ec frame ∈ w'.ledger.entries) :
    .completed h ec frame ∈ w.ledger.entries ∨ ∃ ec', e = .received ec' frame ∧ ec'.failed = false := by
  have hrejected : ∀ (v : World) request, .completed h ec frame ∈ (v.rejected request).ledger.entries →
      .completed h ec frame ∈ v.ledger.entries := by
    intro v request hmem
    rcases List.mem_cons.mp hmem with heq | hmem
    · cases heq
      cases hec
    · exact hmem
  cases hm with
  | quiet hq => exact Or.inl (hq.success hec hmem)
  | generateId | reopen | connectedAgain => exact Or.inl hmem
  | @message ec' frame' hl hec' =>
      have hmem' := (Quiet.goOn _).success hec hmem
      rw [← mem_history_iff, handleMessage_eq] at hmem'
      rcases List.mem_append.mp hmem' with hmem' | hmem'
      · obtain ⟨handler, -, heq⟩ := List.mem_map.mp hmem'
        cases heq
        exact Or.inr ⟨ec', rfl, hec'⟩
      · exact Or.inl (mem_history_iff.mp hmem')
  | authRequest salt hr hc hscramble =>
      obtain ⟨hs, -⟩ := hi.of_reconnecting hr
      obtain ⟨request, -, heq⟩ :=
        authenticate_of_credentials (w := { w with salt }) hc hscramble hs
      rw [heq, (afterRejection_same _ _ _).2.2.2] at hmem
      exact Or.inl (hrejected (authenticating { w with salt }) request
        ((Quiet.goOn _).success hec hmem))
  | send request =>
      left
      by_cases hs : w.s = .connected
      · rw [sendRequest_of_connected hs, ledger_sendData] at hmem
        rcases List.mem_cons.mp hmem with heq | hmem
        · cases heq
        · exact hmem
      · rw [sendRequest_of_ne_connected hs, (afterRejection_same _ _ _).2.2.2] at hmem
        exact hrejected w request hmem
  | writeDone hlt ec' =>
      rw [ledger_onDataSent] at hmem
      exact Or.inl hmem

/-- What a run issues was sent by its events, or by the loop. -/
theorem mem_issued_of_exec {es : List Event} (hrun : exec (step env) w es = some w')
    {request : Operation} (h : request ∈ w'.issued) :
    request ∈ w.issued ∨ .send request ∈ es ∨ FromApi env.mp request := by
  have halways : Always (step env) (fun _ ↦ True) w es :=
    always_of_invariant (fun _ _ _ _ h ↦ h) es trivial
  rcases exec_source (P := fun w ↦ request ∈ w.issued)
    (Q := fun e ↦ e = .send request ∨ FromApi env.mp request)
    (fun _ _ _ _ ht ↦ (step_move ht).mem_issued) halways hrun h with h | ⟨e, hmem, rfl | hfrom⟩
  · exact Or.inl h
  · exact Or.inr (Or.inl hmem)
  · exact Or.inr (Or.inr hfrom)

/-- What a run completes with success is completed with a frame it receives. -/
theorem success_of_exec {es : List Event} (hrun : exec (step env) w es = some w')
    (hi : Always (step env) Invariant w es) {h : HandlerId} {ec : ErrorCode}
    {frame : IprotoFrame (List UInt8)} (hec : ec.failed = false)
    (hmem : .completed h ec frame ∈ w'.ledger.entries) :
    .completed h ec frame ∈ w.ledger.entries ∨
      ∃ ec', .received ec' frame ∈ es ∧ ec'.failed = false := by
  have hstep : ∀ v e u, Invariant v → step env v e = some u →
      .completed h ec frame ∈ u.ledger.entries → .completed h ec frame ∈ v.ledger.entries ∨
        ∃ ec', e = .received ec' frame ∧ ec'.failed = false :=
    fun _ _ _ hi ht ↦ (step_move ht).success hi hec
  rcases exec_source hstep hi hrun hmem with hmem | ⟨e, he, ec', rfl, hec'⟩
  · exact Or.inl hmem
  · exact Or.inr ⟨ec', he, hec'⟩

/-- Where the connector is connected, handling a message is all a step does to the
registry. -/
theorem requests_of_received {ec : ErrorCode} {frame : IprotoFrame (List UInt8)}
    (hec : ec.failed = false) (hs : w.s = .connected)
    (h : step env w (.received ec frame) = some w') :
    w'.requests = (w.handleMessage frame).requests := by
  cases Fires.of_step h with
  | lost _ _ hfailed => cases hec.symm.trans hfailed
  | message =>
      have hs' : (w.handleMessage frame).s = .connected := by
        rw [handleMessage_eq]
        exact hs
      unfold World.goOn enter
      rw [hs']
      rfl

end World

/-- A server that echoes identifiers: `answers` relates a message to its replies. -/
def Echoes (mp : Codec) (answers : List UInt8 → IprotoFrame (List UInt8) → Prop) : Prop :=
  ∀ message frame, answers message frame → wireSync mp message = some frame.header.sync

/-- Replies reach their own callers, in every run and for every order of replies.  A
handler is registered under the identifier of its request, and called with success only
with a frame that carries this identifier.  A message removes the entry under its
identifier, if there is one, and leaves the others as they are.  Every operation packs
the identifier its request is registered under.  And so, where every received message
answers one of the requests and the server echoes identifiers, each handler that is
called with success is called with an answer to its own request. -/
theorem replies_reach_callers {env : Environment} (hmp : env.mp.Lawful) {es : List Event}
    {w : World} (hrun : exec (step env) (init env) es = some w)
    (hids : (w.issued.map Operation.id).Nodup) :
    (∀ id h, (id, some h) ∈ w.requests → (w.issued[h]?).map Operation.id = some id) ∧
    (∀ h ec frame, .completed h ec frame ∈ w.ledger.entries → ec.failed = false →
      (w.issued[h]?).map Operation.id = some frame.header.sync) ∧
    (∀ frame : IprotoFrame (List UInt8),
      (w.handleMessage frame).requests = w.requests.filter (fun r ↦ r.1 != frame.header.sync) ∧
      (frame.header.sync ∉ w.requests.keys → (w.handleMessage frame).requests = w.requests) ∧
      ∀ ec w', ec.failed = false → w.s = .connected → step env w (.received ec frame) = some w' →
        w'.requests = (w.handleMessage frame).requests) ∧
    (∀ (call : ApiCall) id registered p, call.packer env.mp id = some (registered, p) →
      registered = id ∧ wireSync env.mp p.stream = some id) ∧
    (∀ answers, Echoes env.mp answers →
      (∀ request, .send request ∈ es → FromApi env.mp request) →
      (∀ ec frame, .received ec frame ∈ es → ec.failed = false →
        ∃ request ∈ w.issued, answers request.data frame) →
      ∀ h ec frame, .completed h ec frame ∈ w.ledger.entries → ec.failed = false →
        ∃ request, w.issued[h]? = some request ∧ answers request.data frame) := by
  have halways := always_invariant hrun hids (invariant_init env)
  have hl := (halways.last hrun).consistent
  refine ⟨hl.pending_id, hl.success_sync, fun frame ↦ ⟨?_, ?_, ?_⟩, ?_, ?_⟩
  · rw [handleMessage_eq]
    exact Requests.eraseP_eq_filter hl.keys_nodup _
  · intro hnot
    rw [handleMessage_eq]
    refine List.eraseP_of_forall_not fun r hr heq ↦ hnot ?_
    rw [eq_of_beq heq]
    exact List.mem_map_of_mem hr
  · exact fun ec w' hec hs h ↦ requests_of_received hec hs h
  · exact fun call id registered p h ↦ call.wireSync_packer hmp h
  · intro answers hecho hapi hreceived h ec frame hmem hec
    obtain ⟨ec', hmem', hec'⟩ : ∃ ec', .received ec' frame ∈ es ∧ ec'.failed = false := by
      rcases success_of_exec hrun halways hec hmem with hmem' | hmem'
      · cases hmem'
      · exact hmem'
    obtain ⟨request, hrequest, hanswers⟩ := hreceived ec' frame hmem' hec'
    have hsync : request.id = frame.header.sync := by
      have hfrom : FromApi env.mp request := by
        rcases mem_issued_of_exec hrun hrequest with hin | hin | hin
        · cases hin
        · exact hapi request hin
        · exact hin
      exact Option.some.inj ((hfrom.wireSync hmp).symm.trans (hecho _ _ hanswers))
    obtain ⟨own, hown, hid⟩ := Option.map_eq_some_iff.mp (hl.success_sync h ec frame hmem hec)
    have heq : own = request :=
      List.inj_on_of_nodup_map hids (List.mem_of_getElem? hown) hrequest (hid.trans hsync.symm)
    exact ⟨own, hown, heq ▸ hanswers⟩

/-- The reply to a `ping`. -/
def pong (id : OperationId) : IprotoFrame (List UInt8) := ⟨{ sync := id }, [0x80]⟩

/-- Two requests, answered in the other order. -/
def swappedRun : List Event :=
  [.start, .generateId, .send (pingRequest 0), .generateId, .send (pingRequest 1),
    .received {} (pong 1), .received {} (pong 0)]

/-- Both replies reach their callers. -/
theorem replies_reach_callers_swapped :
    ∃ w, exec (step .plain) (init .plain) swappedRun = some w ∧
      .completed 0 {} (pong 0) ∈ w.ledger.entries ∧
      .completed 1 {} (pong 1) ∈ w.ledger.entries ∧
      (∃ request, w.issued[0]? = some request ∧ wireSync Codec.reference request.data = some 0) ∧
      ∃ request, w.issued[1]? = some request ∧ wireSync Codec.reference request.data = some 1 := by
  have hping : ∀ id, FromApi Codec.reference (pingRequest id) :=
    fun id ↦ ⟨.ping, id, _, rfl, rfl⟩
  have hwire : ∀ id, wireSync Codec.reference (pingRequest id).data = some id :=
    fun id ↦ (hping id).wireSync Codec.reference_lawful
  have hreach : ∀ w, exec (step .plain) (init .plain) swappedRun = some w →
      w.issued = [pingRequest 0, pingRequest 1] →
      ∀ h frame, .completed h {} frame ∈ w.ledger.entries →
        ∃ request, w.issued[h]? = some request ∧
          wireSync Codec.reference request.data = some frame.header.sync := by
    intro w hrun hissued h frame hmem
    have hids : (w.issued.map Operation.id).Nodup := by
      rw [hissued]
      decide
    refine (replies_reach_callers Codec.reference_lawful hrun hids).2.2.2.2
      (fun message frame ↦ wireSync Codec.reference message = some frame.header.sync)
      (fun _ _ h ↦ h) ?_ ?_ h {} frame hmem rfl
    · intro request hsent
      simp only [swappedRun, List.mem_cons, List.not_mem_nil, reduceCtorEq, false_or, or_false,
        Event.send.injEq] at hsent
      rcases hsent with rfl | rfl
      · exact hping 0
      · exact hping 1
    · intro ec frame hreceived _
      simp only [swappedRun, List.mem_cons, List.not_mem_nil, reduceCtorEq, false_or, or_false,
        Event.received.injEq] at hreceived
      rw [hissued]
      rcases hreceived with ⟨-, rfl⟩ | ⟨-, rfl⟩
      · exact ⟨pingRequest 1, by simp, hwire 1⟩
      · exact ⟨pingRequest 0, by simp, hwire 0⟩
  refine ⟨_, rfl, by decide, by decide, ?_, ?_⟩
  · exact hreach _ rfl rfl 0 (pong 0) (by decide)
  · exact hreach _ rfl rfl 1 (pong 1) (by decide)

end Connector

end Tntpp
