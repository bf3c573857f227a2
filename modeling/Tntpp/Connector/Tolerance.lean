import Tntpp.Connector.Handlers

/-!
# Reset and the handlers it calls

Whether the receive loop survives what the handlers do that `reset` calls.  It does if
they all return.  If one throws, `reset` is left in the middle of its loop with the
handlers it has called still in the table, empty; the `catch` clause calls `reset`
again, which meets the first of them and throws out of the loop.  If one sends a
request, that request is inserted into the table that is being iterated over.

The second half rests on two things that no handler can undo: an insertion, and, as
long as nothing is inserted, that the first entry of the table is empty.
-/

namespace Tntpp

namespace Connector

open Throwing

namespace Running

open World

/-! ## What a handler cannot undo -/

/-- Unless a request is inserted, the table is what it was. -/
def Untouched (s t : Iteration) : Prop :=
  t.inserted = false → s.inserted = false ∧ t.world.requests = s.world.requests

/-- Unless a request is inserted, the table begins with an empty handler if it did. -/
def HeadEmpty (id : OperationId) (s t : Iteration) : Prop :=
  t.inserted = false → s.inserted = false ∧
    ((∃ rest, s.world.requests = (id, none) :: rest) → ∃ rest, t.world.requests = (id, none) :: rest)

/-- An insertion is not undone. -/
def NotInserted (s t : Iteration) : Prop := t.inserted = false → s.inserted = false

theorem Untouched.trans (s t u : Iteration) (h : Untouched s t) (h' : Untouched t u) :
    Untouched s u := by
  intro hu
  obtain ⟨ht, hrequests⟩ := h' hu
  obtain ⟨hs, hrequests'⟩ := h ht
  exact ⟨hs, hrequests.trans hrequests'⟩

theorem HeadEmpty.trans {id : OperationId} (s t u : Iteration) (h : HeadEmpty id s t)
    (h' : HeadEmpty id t u) : HeadEmpty id s u := by
  intro hu
  obtain ⟨ht, hhead⟩ := h' hu
  obtain ⟨hs, hhead'⟩ := h ht
  exact ⟨hs, hhead ∘ hhead'⟩

theorem NotInserted.trans (s t u : Iteration) (h : NotInserted s t) (h' : NotInserted t u) :
    NotInserted s u := h ∘ h'

theorem Untouched.headEmpty {s t : Iteration} (h : Untouched s t) (id : OperationId) :
    HeadEmpty id s t := by
  intro ht
  obtain ⟨hs, hrequests⟩ := h ht
  exact ⟨hs, fun hhead ↦ hrequests ▸ hhead⟩

theorem HeadEmpty.notInserted {s t : Iteration} {id : OperationId} (h : HeadEmpty id s t) :
    NotInserted s t := fun ht ↦ (h ht).1

theorem keeps_get : Keeps Untouched (get : Running Iteration) := fun _ h ↦ ⟨h, rfl⟩

theorem keeps_update {f : World → World} (hf : ∀ w, (f w).requests = w.requests) :
    Keeps Untouched (update f) := fun s h ↦ ⟨h, hf s.world⟩

theorem keeps_insert (id : OperationId) (handler : AnyHandler) :
    Keeps Untouched (insert id handler) := fun _ h ↦ Bool.noConfusion h

theorem keeps_sendRequest {call : Running Unit} (h : Keeps Untouched call) (request : Operation) :
    Keeps Untouched (sendRequest call request) := by
  refine Keeps.bind Untouched.trans keeps_get fun s ↦ ?_
  dsimp only
  split_ifs
  · refine Keeps.bind Untouched.trans (keeps_update fun _ ↦ rfl) fun _ ↦ ?_
    refine Keeps.bind Untouched.trans h fun _ ↦ ?_
    refine Keeps.bind Untouched.trans (keeps_insert _ _) fun _ ↦ ?_
    exact keeps_update fun _ ↦ rfl
  · refine Keeps.bind Untouched.trans (keeps_update fun _ ↦ rfl) fun _ ↦ ?_
    refine Keeps.bind Untouched.trans (keeps_insert _ _) fun _ ↦ ?_
    exact keeps_update fun _ ↦ rfl

theorem keeps_perform (b : Behaviour) : Keeps Untouched (perform b) := by
  induction b with
  | returns => exact fun _ h ↦ ⟨h, rfl⟩
  | throws e => exact fun _ h ↦ ⟨h, rfl⟩
  | sends request handler next ihandler inext =>
      exact Keeps.bind Untouched.trans (keeps_sendRequest ihandler request) fun _ ↦ inext

/-- A request that goes through is inserted. -/
theorem inserted_sendRequest {call : Running Unit} {request : Operation} {s t : Iteration}
    (h : sendRequest call request s = .ok () t) : t.inserted = true := by
  obtain ⟨s', _, hget, h⟩ := bind_eq_ok h
  cases hget
  dsimp only at h
  split_ifs at h
  · obtain ⟨_, u₁, -, h⟩ := bind_eq_ok h
    obtain ⟨_, u₂, -, h⟩ := bind_eq_ok h
    cases h
    rfl
  · cases h
    rfl

/-- A handler that goes through without an insertion does nothing. -/
theorem eq_returns_of_ok {b : Behaviour} {s t : Iteration} (h : perform b s = .ok () t)
    (ht : t.inserted = false) : b = .returns := by
  cases b with
  | returns => rfl
  | throws e => cases h
  | sends request handler next =>
      obtain ⟨_, u, hsend, hnext⟩ := bind_eq_ok h
      have hkeeps := keeps_perform next u
      rw [hnext] at hkeeps
      exact absurd (hkeeps ht).1 (by simp [inserted_sendRequest hsend])

section

variable {behaviour : HandlerId → Behaviour} {env : Environment} {s t : Iteration}

theorem keeps_complete (id : OperationId) (r : OperationId × AnyHandler) :
    Keeps (HeadEmpty id) (complete behaviour r) := by
  obtain ⟨id', x⟩ := r
  cases x with
  | none => exact fun _ h ↦ ⟨h, fun hhead ↦ hhead⟩
  | some h =>
      refine Keeps.bind HeadEmpty.trans ?_ fun _ s ↦ (keeps_perform _ s).headEmpty id
      intro s hs
      refine ⟨hs, ?_⟩
      rintro ⟨rest, hrest⟩
      have hrequests : (s.world.calling id' h).requests = Requests.emptied s.world.requests id' := rfl
      refine ⟨Requests.emptied rest id', hrequests.trans ?_⟩
      rw [hrest, Requests.emptied, List.map_cons]
      split_ifs <;> rfl

theorem keeps_completeAll (id : OperationId) (rs : Requests) :
    Keeps (HeadEmpty id) (completeAll behaviour rs) := by
  induction rs with
  | nil => exact fun _ h ↦ ⟨h, fun hhead ↦ hhead⟩
  | cons r rs ih => exact Keeps.bind HeadEmpty.trans (keeps_complete id r) fun _ ↦ ih

/-- A round of the loop that goes through without an insertion has called a handler that
returned. -/
theorem returns_of_complete {r : OperationId × AnyHandler} (h : complete behaviour r s = .ok () t)
    (ht : t.inserted = false) : ∃ h, r.2 = some h ∧ behaviour h = .returns := by
  obtain ⟨id, x⟩ := r
  cases x with
  | none => cases h
  | some handler =>
      obtain ⟨_, u, -, hperform⟩ := bind_eq_ok h
      exact ⟨handler, rfl, eq_returns_of_ok hperform ht⟩

theorem return_of_completeAll {rs : Requests} (h : completeAll behaviour rs s = .ok () t)
    (ht : t.inserted = false) : Return behaviour rs := by
  induction rs generalizing s with
  | nil => exact fun r hr ↦ absurd hr List.not_mem_nil
  | cons r rs ih =>
      obtain ⟨_, u, hfirst, hrest⟩ := bind_eq_ok h
      have hkeeps : Keeps (HeadEmpty r.1) (completeAll behaviour rs) := keeps_completeAll r.1 rs
      specialize hkeeps u
      rw [hrest] at hkeeps
      intro r' hr'
      rcases List.mem_cons.mp hr' with rfl | hr'
      · exact returns_of_complete hfirst (hkeeps ht).1
      · exact ih hrest r' hr'

/-- A loop that is left by an exception leaves the handler it called first empty, at the
beginning of the table. -/
theorem head_of_completeAll {e : Exception} (hlive : ∀ r ∈ s.world.requests, r.2 ≠ none)
    (h : completeAll behaviour s.world.requests s = .error e t) (ht : t.inserted = false) :
    ∃ id rest, t.world.requests = (id, none) :: rest := by
  cases hrs : s.world.requests with
  | nil =>
      rw [hrs] at h
      cases h
  | cons r rs =>
      obtain ⟨id, x⟩ := r
      cases x with
      | none => exact absurd rfl (hlive (id, none) (hrs ▸ List.mem_cons_self))
      | some handler =>
          have hcalling : (s.world.calling id handler).requests =
              (id, none) :: Requests.emptied rs id := by
            change Requests.emptied s.world.requests id = _
            rw [hrs, Requests.emptied, List.map_cons, if_pos rfl]
            rfl
          -- what follows the first call keeps the first entry empty
          have hkeeps : HeadEmpty id { s with world := s.world.calling id handler } t := by
            have hrun : (perform (behaviour handler) >>= fun _ ↦ completeAll behaviour rs)
                { s with world := s.world.calling id handler } = .error e t := by
              rw [hrs] at h
              exact h
            have hkeeps : Keeps (HeadEmpty id)
                (perform (behaviour handler) >>= fun _ ↦ completeAll behaviour rs) :=
              Keeps.bind HeadEmpty.trans
                (fun s ↦ (keeps_perform (behaviour handler) s).headEmpty id)
                fun _ ↦ keeps_completeAll id rs
            specialize hkeeps { s with world := s.world.calling id handler }
            rw [hrun] at hkeeps
            exact hkeeps
          exact ⟨id, (hkeeps ht).2 ⟨_, hcalling⟩⟩

/-- The next reset throws out of its first round. -/
theorem reset_of_head {id : OperationId} {rest : Requests}
    (h : s.world.requests = (id, none) :: rest) : reset behaviour s = .error .other (begun s) := by
  apply reset_of_error
  rw [h]
  rfl

theorem keeps_reset : Keeps NotInserted (reset behaviour) := by
  refine Keeps.bind NotInserted.trans (fun _ h ↦ h) fun _ ↦ ?_
  refine Keeps.bind NotInserted.trans (fun _ h ↦ h) fun s ↦ ?_
  refine Keeps.bind NotInserted.trans ?_ fun _ _ h ↦ h
  exact fun t ↦ (keeps_completeAll 0 s.world.requests t).notInserted

theorem keeps_enter : Keeps NotInserted (enter behaviour env) := by
  refine Keeps.bind NotInserted.trans (fun _ h ↦ h) fun s ↦ ?_
  dsimp only
  cases s.world.s with
  | stopped => exact Keeps.bind NotInserted.trans keeps_reset fun _ _ h ↦ h
  | connecting => exact fun _ h ↦ h
  | connected => exact fun _ h ↦ h

theorem keeps_catchClause (e : Exception) : Keeps NotInserted (catchClause behaviour env e) := by
  cases e with
  | canceled => exact Keeps.bind NotInserted.trans keeps_reset fun _ _ h ↦ h
  | system => exact Keeps.bind NotInserted.trans keeps_reset fun _ ↦ keeps_enter
  | other =>
      rw [catchClause]
      split_ifs
      · exact fun _ h ↦ h
      · exact Keeps.bind NotInserted.trans keeps_reset fun _ ↦ keeps_enter

/-- A `catch` clause that meets such a table ends the loop. -/
theorem loop_of_head {id : OperationId} {rest : Requests}
    (h : s.world.requests = (id, none) :: rest) (e : Exception) :
    (settle (catchClause behaviour env e s)).world.loop = .failed ∨
      (settle (catchClause behaviour env e s)).world.loop = .aborted := by
  have hreset : reset behaviour s = .error .other (begun s) := reset_of_head h
  cases e with
  | canceled =>
      rw [catchClause, bind_of_error hreset]
      exact Or.inl rfl
  | system =>
      rw [catchClause, bind_of_error hreset]
      exact Or.inl rfl
  | other =>
      rw [catchClause]
      split_ifs
      · exact Or.inr rfl
      · rw [bind_of_error hreset]
        exact Or.inl rfl

end

end Running

open Running

/-- Every registered handler is there to be called, once. -/
structure World.AllPending (w : World) : Prop where
  /-- No handler is empty. -/
  live : ∀ r ∈ w.requests, r.2 ≠ none
  /-- Handlers are distinct. -/
  nodup : (w.requests.filterMap Prod.snd).Nodup
  /-- None was called before. -/
  not_completed : ∀ h, w.ledger.Pending h → ¬ w.ledger.Completed h

/-- A reset and the receive loop tolerate the handlers that were pending. -/
structure Tolerates (w : World) (t : Iteration) : Prop where
  /-- Each was called exactly once, with an error. -/
  completed : ∀ h, w.ledger.Pending h →
    (Ledger.completions t.world.ledger.entries).count h = 1 ∧
      ∃ ec frame, .completed h ec frame ∈ t.world.ledger.entries ∧ ec.failed = true
  /-- Nothing was inserted while the table was iterated over. -/
  not_inserted : t.inserted = false
  /-- The table is empty. -/
  requests_eq : t.world.requests = []
  /-- The connection is stopped. -/
  closed : t.world.isOpen = false
  /-- The loop reconnects, or has finished because the connector is stopped. -/
  loop : t.world.loop = .resolving ∨ t.world.loop = .finished ∧ t.world.s = .stopped

theorem Ledger.completions_callsOf (ec : ErrorCode) (called : List HandlerId) :
    Ledger.completions (Ledger.callsOf ec called) = called.reverse := by
  rw [Ledger.callsOf, ← List.map_reverse, Ledger.completions, List.filterMap_map]
  exact List.filterMap_some

section

variable {behaviour : HandlerId → Behaviour} {env : Environment} {w w' : World}

/-- With the calls of one such reset recorded, the handlers are tolerated. -/
theorem tolerates_of_entries {t : Iteration} (hw : w.AllPending) (hinserted : t.inserted = false)
    (hrequests : t.world.requests = []) (hclosed : t.world.isOpen = false)
    (hloop : t.world.loop = .resolving ∨ t.world.loop = .finished ∧ t.world.s = .stopped)
    (hentries : t.world.ledger.entries =
      Ledger.callsOf w.resetCode (w.requests.filterMap Prod.snd) ++ w.ledger.entries) :
    Tolerates w t := by
  refine ⟨?_, hinserted, hrequests, hclosed, hloop⟩
  rintro h ⟨id, hp⟩
  have hmem : h ∈ w.requests.filterMap Prod.snd := List.mem_filterMap.mpr ⟨(id, some h), hp, rfl⟩
  have hold : h ∉ Ledger.completions w.ledger.entries :=
    fun hc ↦ hw.not_completed h ⟨id, hp⟩ (Ledger.mem_completions.mp hc)
  rw [hentries]
  constructor
  · rw [Ledger.completions, List.filterMap_append, List.count_append]
    change List.count h (Ledger.completions _) + List.count h (Ledger.completions _) = 1
    rw [Ledger.completions_callsOf, List.count_reverse, List.count_eq_one_of_mem hw.nodup hmem,
      List.count_eq_zero_of_not_mem hold]
  · refine ⟨w.resetCode, .empty, List.mem_append_left _ ?_, w.failed_resetCode⟩
    exact List.mem_reverse.mpr (List.mem_map_of_mem hmem)

/-- A stopped loop resets and finishes. -/
theorem World.catchAll_enter_stopped (hs : w.s = .stopped) (h : w.reset = .ok w') :
    World.catchAll env (World.enter env w) = { w' with loop := .finished } := by
  have henter : World.enter env w = .ok { w' with loop := .finished } := by
    rw [World.enter, hs]
    change Except.map _ w.reset = _
    rw [h]
    rfl
  rw [henter]
  rfl

theorem tolerates_stopped (hw : w.AllPending) (hs : w.s = .stopped)
    (hreturn : Return behaviour w.requests) :
    Tolerates w (settle (runReset behaviour env .stopped ⟨w, false⟩)) := by
  obtain ⟨w₁, hw₁, -⟩ := reset_returns (s := ⟨w, false⟩) hreturn
  obtain ⟨hrequests, hclosed, hs₁, hentries⟩ := World.reset_result hw₁
  rw [settle_stopped_returns hreturn]
  change Tolerates w ⟨World.catchAll env (World.enter env w), false⟩
  rw [World.catchAll_enter_stopped hs hw₁]
  refine tolerates_of_entries hw rfl hrequests hclosed (.inr ⟨rfl, ?_⟩) hentries
  change w₁.s = _
  rw [hs₁, World.resetState, hs]
  rfl

theorem tolerates_readError (hw : w.AllPending) (hreturn : Return behaviour w.requests) :
    Tolerates w (settle (runReset behaviour env .readError ⟨w, false⟩)) := by
  obtain ⟨w₁, hw₁, -⟩ := reset_returns (s := ⟨w, false⟩) hreturn
  obtain ⟨hrequests, hclosed, hs₁, hentries⟩ := World.reset_result hw₁
  rw [settle_readError_returns hreturn]
  change Tolerates w ⟨World.catchAll env (w.reset.bind (World.enter env)), false⟩
  rw [hw₁]
  change Tolerates w ⟨World.catchAll env (World.enter env w₁), false⟩
  cases hs : w₁.s with
  | stopped =>
      -- the loop is back at its top and resets again, with an empty table
      have hreturn₁ : Return behaviour w₁.requests := by simp [Return, hrequests]
      obtain ⟨w₂, hw₂, -⟩ : ∃ w₂, w₁.reset = .ok w₂ ∧ _ := reset_returns (s := ⟨w₁, false⟩) hreturn₁
      obtain ⟨hrequests₂, hclosed₂, hs₂, hentries₂⟩ := World.reset_result hw₂
      rw [World.catchAll_enter_stopped hs hw₂]
      refine tolerates_of_entries hw rfl hrequests₂ hclosed₂ (.inr ⟨rfl, ?_⟩) ?_
      · change w₂.s = _
        rw [hs₂, World.resetState, hs]
        rfl
      · change w₂.ledger.entries = _
        rw [hentries₂, hrequests, hentries]
        rfl
  | connecting =>
      have henter : World.enter env w₁ = .ok { w₁ with loop := .resolving } := by
        simp [World.enter, hs, hclosed]
      rw [henter]
      exact tolerates_of_entries hw rfl hrequests hclosed (.inl rfl) hentries
  | connected => exact absurd (hs₁.symm.trans hs) w.resetState_ne_connected

@[simp] theorem inserted_settle (r : EStateM.Result Exception Iteration Loop) :
    (settle r).inserted = (final r).inserted := by
  cases r <;> rfl

/-- Both calls of `reset` are made under the same `catch` clauses. -/
theorem runReset_eq {site : ResetSite} (hsite : site = .stopped → w.s = .stopped) :
    ∃ k : Unit → Running Loop, (∀ a, Keeps NotInserted (k a)) ∧
      runReset behaviour env site ⟨w, false⟩ =
        tryCatch (reset behaviour >>= k) (catchClause behaviour env) ⟨w, false⟩ := by
  cases site with
  | stopped => exact ⟨fun _ ↦ pure .finished, fun _ _ h ↦ h,
      tryCatch_congr (enter_of_stopped (hsite rfl)) _⟩
  | readError => exact ⟨fun _ ↦ enter behaviour env, fun _ ↦ keeps_enter, rfl⟩

/-- Handlers that are tolerated return. -/
theorem return_of_tolerates (hw : w.AllPending) {site : ResetSite}
    (hsite : site = .stopped → w.s = .stopped)
    (h : Tolerates w (settle (runReset behaviour env site ⟨w, false⟩))) :
    Return behaviour w.requests := by
  obtain ⟨k, hk, hrun⟩ : ∃ k : Unit → Running Loop, (∀ a, Keeps NotInserted (k a)) ∧
      runReset behaviour env site ⟨w, false⟩ =
        tryCatch (reset behaviour >>= k) (catchClause behaviour env) ⟨w, false⟩ :=
    runReset_eq hsite
  rw [hrun] at h
  have hinserted := h.not_inserted
  rw [inserted_settle] at hinserted
  cases hloop : completeAll behaviour w.requests (begun ⟨w, false⟩) with
  | ok _ t =>
      have hreset := reset_of_ok (s := ⟨w, false⟩) hloop
      apply return_of_completeAll hloop
      -- what follows the loop does not take an insertion back
      have hfollow : NotInserted t (final ((reset behaviour >>= k) ⟨w, false⟩)) := by
        rw [bind_of_ok hreset k]
        exact hk () _
      cases hrest : (reset behaviour >>= k) ⟨w, false⟩ with
      | ok loop u =>
          rw [tryCatch_of_ok hrest] at hinserted
          rw [hrest] at hfollow
          exact hfollow hinserted
      | error e u =>
          rw [tryCatch_of_error hrest] at hinserted
          rw [hrest] at hfollow
          exact hfollow (keeps_catchClause e u hinserted)
  | error e t =>
      have hreset := reset_of_error (s := ⟨w, false⟩) hloop
      rw [tryCatch_of_error (bind_of_error hreset k)] at h hinserted
      obtain ⟨id, rest, hhead⟩ := head_of_completeAll (s := begun ⟨w, false⟩) hw.live hloop
        (keeps_catchClause e t hinserted)
      have hends : (settle (catchClause behaviour env e t)).world.loop = .failed ∨
          (settle (catchClause behaviour env e t)).world.loop = .aborted := loop_of_head hhead e
      rcases hends with hl | hl <;>
        rcases h.loop with h' | ⟨h', -⟩ <;>
        exact absurd (hl.symm.trans h') (by decide)

end

/-- The receive loop tolerates the handlers that are pending at a reset if and only if
each of them returns without sending a request.  A handler that catches what is thrown
by a `send_request` of its own is not among them. -/
theorem tolerates_iff (env : Environment) (behaviour : HandlerId → Behaviour) (site : ResetSite)
    (w : World) (hw : w.AllPending) (hsite : site = .stopped → w.s = .stopped) :
    Tolerates w (settle (runReset behaviour env site ⟨w, false⟩)) ↔
      ∀ h, w.ledger.Pending h → behaviour h = .returns := by
  constructor
  · rintro htolerates h ⟨id, hp⟩
    obtain ⟨h', hsome, hreturns⟩ := return_of_tolerates hw hsite htolerates (id, some h) hp
    cases hsome
    exact hreturns
  · intro hreturns
    have hreturn : Return behaviour w.requests := by
      rintro ⟨id, x⟩ hmem
      cases x with
      | none => exact absurd rfl (hw.live (id, none) hmem)
      | some h => exact ⟨h, rfl, hreturns h ⟨id, hmem⟩⟩
    cases site with
    | stopped => exact tolerates_stopped hw (hsite rfl) hreturn
    | readError => exact tolerates_readError hw hreturn

/-- Two pings are sent and accepted. -/
def twoPings : List Event := [.start, .send (pingRequest 0), .send (pingRequest 1)]

/-- The handler of the second ping throws, or tries once more. -/
def secondThrows (h : HandlerId) : Behaviour := if h = 1 then .throws .other else .returns

def secondResends (h : HandlerId) : Behaviour :=
  if h = 1 then .sends (pingRequest 2) .returns .returns else .returns

theorem twoPings_allPending {w : World}
    (h : Transition.exec (step .plain) (World.init .plain) twoPings = some w) : w.AllPending := by
  cases h
  refine ⟨by decide, by decide, fun h _ hc ↦ ?_⟩
  have hnone := Ledger.mem_completions.mpr hc
  exact absurd hnone List.not_mem_nil

/-- Two pings are pending when the connection breaks, and their handlers return. -/
theorem tolerates_twoPings :
    ∃ w, Transition.exec (step .plain) (World.init .plain) twoPings = some w ∧
      Tolerates w (settle (runReset (fun _ ↦ .returns) .plain .readError ⟨w, false⟩)) :=
  ⟨_, rfl, (tolerates_iff .plain _ .readError _ (twoPings_allPending rfl) (by decide)).mpr
    fun _ _ ↦ rfl⟩

/-- If the handler that is called first throws, the other one is never called, and the
loop ends with an exception; if it tries once more, its request is inserted. -/
theorem throwing_handler_not_tolerated :
    ∃ w, Transition.exec (step .plain) (World.init .plain) twoPings = some w ∧ w.AllPending ∧
      (settle (runReset secondThrows .plain .readError ⟨w, false⟩)).world.loop = .failed ∧
      ¬ (settle (runReset secondThrows .plain .readError ⟨w, false⟩)).world.ledger.Completed 0 ∧
      ¬ Tolerates w (settle (runReset secondThrows .plain .readError ⟨w, false⟩)) ∧
      (settle (runReset secondResends .plain .readError ⟨w, false⟩)).inserted = true ∧
      ¬ Tolerates w (settle (runReset secondResends .plain .readError ⟨w, false⟩)) := by
  refine ⟨_, rfl, twoPings_allPending rfl, rfl, ?_, ?_, rfl, ?_⟩
  · intro hc
    exact absurd (Ledger.mem_completions.mpr hc) (by decide)
  · intro h
    exact absurd h.loop (by decide)
  · intro h
    exact absurd h.not_inserted (by decide)

end Connector

end Tntpp
