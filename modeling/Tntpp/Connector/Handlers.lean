import Tntpp.Base.Throwing
import Tntpp.Connector.Steps

/-!
# Handlers that throw or send

In a `World` the handlers of callers return.  Here they do what handlers may do: throw,
or issue further requests before they return.  What runs a handler is then a function
that may throw, and the receive loop is what catches it.

This is about the handlers that `reset` calls while it iterates over `m_requests`, and
about what its two callers in the loop make of it.  Where every handler returns nothing
is new: `settle_run_of_returns` says that the loop goes on as it does in a `World`.
-/

namespace Tntpp

/-- The entry under a key keeps its place and loses its handler. -/
def Requests.emptied (rs : Requests) (id : OperationId) : Requests :=
  rs.map fun r ↦ if r.1 = id then (r.1, none) else r

namespace Connector

open Throwing

/-- What a handler may throw. -/
inductive Exception where
  /-- A `system_error` with the code `operation_canceled`. -/
  | canceled
  /-- Any other `system_error`. -/
  | system
  /-- Any other `std::exception`. -/
  | other
deriving DecidableEq, Repr

/-- What a handler does when it is called.  It does not catch what is thrown by a
`send_request` of its own. -/
inductive Behaviour where
  /-- It returns. -/
  | returns
  /-- It throws. -/
  | throws (e : Exception)
  /-- It calls `send_request` with a handler of its own, and goes on. -/
  | sends (request : Operation) (handler next : Behaviour)

/-- The connector while `reset` iterates over `m_requests`. -/
structure Iteration where
  /-- The connector. -/
  world : World
  /-- `m_requests.insert` was called in the meantime. -/
  inserted : Bool

/-- The connector when `reset` calls the handler under a key. -/
def World.calling (w : World) (id : OperationId) (h : HandlerId) : World :=
  { w with requests := Requests.emptied w.requests id }.record (.completed h w.resetCode .empty)

/-- A function that runs meanwhile. -/
abbrev Running := EStateM Exception Iteration

namespace Running

open World

/-- A function that neither calls a handler nor inserts a request. -/
def update (f : World → World) : Running Unit := modify fun s ↦ { s with world := f s.world }

/-- `m_requests.insert`. -/
def insert (id : OperationId) (handler : AnyHandler) : Running Unit :=
  modify fun s ↦ ⟨{ s.world with requests := s.world.requests.insert id handler }, true⟩

/-- The function `send_request` dispatches, which runs at once on the strand.  `call`
is the call of the handler when the request is rejected. -/
def sendRequest (call : Running Unit) (request : Operation) : Running Unit := do
  let w := (← get).world
  if w.s ≠ .connected then
    update fun w ↦ w.rejected request
    call
    -- the function goes on with a handler that is empty now
    insert request.id none
  else
    update fun w ↦
      { w with issued := w.issued ++ [request] }.record (.accepted w.issued.length w.epoch)
    insert request.id (some w.issued.length)
  update fun v ↦ v.sendData (w.nextBuffer request)

/-- The body of a handler. -/
def perform : Behaviour → Running Unit
  | .returns => pure ()
  | .throws e => throw e
  | .sends request handler next => do
      sendRequest (perform handler) request
      perform next

section

variable (behaviour : HandlerId → Behaviour) (env : Environment)

/-- One round of the loop of `reset`.  The call empties the handler in its place; an
empty one throws `bad_function_call`. -/
def complete : OperationId × AnyHandler → Running Unit
  | (_, none) => throw .other
  | (id, some h) => do
      update fun w ↦ w.calling id h
      perform (behaviour h)

/-- The loop of `reset`, over the entries that are there when it begins.  What becomes
of an iteration during which an entry is inserted is not defined. -/
def completeAll : Requests → Running Unit
  | [] => pure ()
  | r :: rs => do
      complete behaviour r
      completeAll rs

/-- `Internal::reset`. -/
def reset : Running Unit := do
  update fun w ↦ { w with s := w.resetState }
  let requests := (← get).world.requests
  completeAll behaviour requests
  let handlers := requests.filterMap Prod.snd
  update fun w ↦
    { w with requests := [], history := .reset handlers handlers false :: w.history }.stop

/-- The receive loop from its top to the next suspension. -/
def enter : Running Loop := do
  let w := (← get).world
  match w.s with
  | .stopped => do
      reset behaviour
      return .finished
  | .connecting => return if w.isOpen && !env.ndebug then .aborted else .resolving
  | .connected => return .receiving

/-- The `catch` clauses of the loop.  What is thrown in them leaves the loop. -/
def catchClause : Exception → Running Loop
  | .canceled => do
      reset behaviour
      return .finished
  | .system => do
      reset behaviour
      enter behaviour env
  | .other =>
    if !env.ndebug then return .aborted
    else do
      reset behaviour
      enter behaviour env

/-- The calls of `reset` that the `catch` clauses are there for. -/
inductive ResetSite where
  /-- At the top of the loop, when the connector is stopped. -/
  | stopped
  /-- After a message could not be received. -/
  | readError
deriving DecidableEq, Repr

/-- A call of `reset` in the loop and what follows it, up to the next suspension. -/
def runReset : ResetSite → Running Loop
  | .stopped => tryCatch (enter behaviour env) (catchClause behaviour env)
  | .readError =>
    tryCatch (do
      reset behaviour
      enter behaviour env) (catchClause behaviour env)

end

/-- The connector at the suspension; an exception that was not caught ends the loop. -/
def settle : EStateM.Result Exception Iteration Loop → Iteration
  | .ok loop s => { s with world := { s.world with loop } }
  | .error _ s => { s with world := { s.world with loop := .failed } }

/-! ## Handlers that return -/

@[simp] theorem resetCode_calling (w : World) (id : OperationId) (h : HandlerId) :
    (w.calling id h).resetCode = w.resetCode := rfl

@[simp] theorem history_calling (w : World) (id : OperationId) (h : HandlerId) :
    (w.calling id h).history = .ledger (.completed h w.resetCode .empty) :: w.history := rfl

/-- The connector when the loop of `reset` begins. -/
def begun (s : Iteration) : Iteration := { s with world := { s.world with s := s.world.resetState } }

@[simp] theorem resetCode_begun (s : Iteration) :
    (begun s).world.resetCode = s.world.resetCode := by
  cases hs : s.world.s <;> simp [begun, resetCode, resetState, hs]

section

variable {behaviour : HandlerId → Behaviour} {env : Environment} {s : Iteration}

/-- Every entry has a handler, which returns. -/
def Return (behaviour : HandlerId → Behaviour) (rs : Requests) : Prop :=
  ∀ r ∈ rs, ∃ h, r.2 = some h ∧ behaviour h = .returns

theorem complete_returns {id : OperationId} {h : HandlerId} (hh : behaviour h = .returns) :
    complete behaviour (id, some h) s = .ok () { s with world := s.world.calling id h } := by
  rw [complete, hh]
  rfl

/-- The loop goes through and records the calls; it does not matter what it leaves in
the table, which is cleared next. -/
theorem completeAll_returns {rs : Requests} (h : Return behaviour rs) :
    ∃ requests, completeAll behaviour rs s = .ok () { s with
      world := { s.world with
        requests
        history := (Ledger.callsOf s.world.resetCode (rs.filterMap Prod.snd)).map Act.ledger ++
          s.world.history } } := by
  induction rs generalizing s with
  | nil => exact ⟨s.world.requests, rfl⟩
  | cons r rs ih =>
      obtain ⟨id, x⟩ := r
      obtain ⟨h', rfl, hh⟩ := h (id, x) List.mem_cons_self
      obtain ⟨requests, hrest⟩ := ih (s := { s with world := s.world.calling id h' })
        fun r hr ↦ h r (List.mem_cons_of_mem _ hr)
      refine ⟨requests, ?_⟩
      rw [completeAll, bind_of_ok (complete_returns hh), hrest]
      simp only [resetCode_calling, history_calling, Ledger.callsOf, List.filterMap_cons,
        List.map_cons, List.reverse_cons, List.map_append, List.append_assoc]
      rfl

theorem reset_of_ok {t : Iteration} (h : completeAll behaviour s.world.requests (begun s) = .ok () t) :
    reset behaviour s = .ok () { t with
      world := { t.world with
        requests := []
        history := .reset (s.world.requests.filterMap Prod.snd)
          (s.world.requests.filterMap Prod.snd) false :: t.world.history }.stop } :=
  bind_of_ok h _

theorem reset_of_error {t : Iteration} {e : Exception}
    (h : completeAll behaviour s.world.requests (begun s) = .error e t) :
    reset behaviour s = .error e t :=
  bind_of_error h _

/-- Where every handler returns, a reset does what it does to a `World`. -/
theorem reset_returns (h : Return behaviour s.world.requests) :
    ∃ w, s.world.reset = .ok w ∧ reset behaviour s = .ok () { s with world := w } := by
  have hthrew : s.world.requests.invokeAll.2.2 = false := by
    rw [Requests.invokeAll_threw_iff]
    rintro id x hx rfl
    obtain ⟨h', hsome, -⟩ := h _ hx
    cases hsome
  obtain ⟨requests, hloop⟩ := completeAll_returns (s := begun s) h
  refine ⟨_, (reset_eq s.world).trans (if_neg (by simp [hthrew])), ?_⟩
  rw [reset_of_ok hloop, Requests.invokeAll_called hthrew, resetCode_begun]
  rfl

theorem enter_of_stopped (hs : s.world.s = .stopped) :
    enter behaviour env s = (reset behaviour >>= fun _ ↦ pure .finished) s := by
  rw [enter, bind_of_ok (show (get : Running Iteration) s = .ok s s from rfl)]
  simp only [hs]

theorem enter_of_connecting (hs : s.world.s = .connecting) :
    enter behaviour env s =
      .ok (if s.world.isOpen && !env.ndebug then .aborted else .resolving) s := by
  rw [enter, bind_of_ok (show (get : Running Iteration) s = .ok s s from rfl)]
  simp only [hs]
  rfl

theorem enter_of_connected (hs : s.world.s = .connected) :
    enter behaviour env s = .ok .receiving s := by
  rw [enter, bind_of_ok (show (get : Running Iteration) s = .ok s s from rfl)]
  simp only [hs]
  rfl

/-- Where every handler returns, the loop enters as in a `World`. -/
theorem enter_returns (h : Return behaviour s.world.requests) :
    ∃ loop w, World.enter env s.world = .ok { w with loop } ∧
      enter behaviour env s = .ok loop { s with world := w } := by
  unfold World.enter
  cases hs : s.world.s with
  | stopped =>
      obtain ⟨w, hw, hreset⟩ := reset_returns h
      refine ⟨.finished, w, by rw [hw]; rfl, ?_⟩
      rw [enter_of_stopped hs, bind_of_ok hreset]
      rfl
  | connecting =>
      refine ⟨if s.world.isOpen && !env.ndebug then .aborted else .resolving, s.world, ?_,
        enter_of_connecting hs⟩
      dsimp only
      split_ifs <;> rw [← hs]
  | connected =>
      refine ⟨.receiving, s.world, ?_, enter_of_connected hs⟩
      dsimp only
      rw [← hs]

/-- Where every handler returns, the loop goes on after a read error as in a `World`. -/
theorem settle_readError_returns (h : Return behaviour s.world.requests) :
    settle (runReset behaviour env .readError s) =
      { s with world := catchAll env (s.world.reset.bind (World.enter env)) } := by
  obtain ⟨w, hw, hreset⟩ := reset_returns h
  have hnone : w.requests = [] := (reset_result hw).1
  have hreturn : Return behaviour ({ s with world := w } : Iteration).world.requests := by
    simp [Return, hnone]
  obtain ⟨loop, w', hw', henter⟩ : ∃ loop w', World.enter env w = .ok { w' with loop } ∧
      enter behaviour env { s with world := w } = .ok loop { s with world := w' } :=
    enter_returns hreturn
  have hrun : (reset behaviour >>= fun _ ↦ enter behaviour env) s = .ok loop { s with world := w' } := by
    rw [bind_of_ok hreset, henter]
  rw [runReset, tryCatch_of_ok hrun, hw]
  change _ = { s with world := catchAll env (World.enter env w) }
  rw [hw']
  rfl

/-- So does the loop when it is stopped. -/
theorem settle_stopped_returns (h : Return behaviour s.world.requests) :
    settle (runReset behaviour env .stopped s) = { s with world := goOn env s.world } := by
  obtain ⟨loop, w, hw, henter⟩ : ∃ loop w, World.enter env s.world = .ok { w with loop } ∧
      enter behaviour env s = .ok loop { s with world := w } := enter_returns h
  rw [runReset, tryCatch_of_ok henter, goOn, hw]
  rfl

end

end Running

end Connector

end Tntpp
