import Tntpp.Connector.Ledger
import Tntpp.Connector.Operations
import Tntpp.Detail.Connection
import Tntpp.Detail.Crypto

/-!
# The connector

A `World` is a connector at a moment when its strand is idle: the fields of
`Connector::Internal` and of its `Connection`, the point at which the receive loop
is suspended, and the destructor.  An event is one function that runs on the strand,
up to its next suspension; `step` says what it does.  Which event comes next is for
the network, the callers and the scheduler to choose, so every interleaving is a
list of events.

Handlers of callers return normally and issue no requests.  The handler of an
authentication is not one of these: calling it resumes the receive loop on the spot,
inside the function that rejects the request, and `sendRequest` is stated with that
continuation as an argument.

`issued` and `history` are an account of the run, which no function of the program
reads.
-/

namespace Tntpp

open MsgPack (Codec)

/-- A resolved address. -/
abbrev Endpoint := Nat

namespace Connector

/-- What a connector is given and does not change. -/
structure Environment where
  /-- The MessagePack library. -/
  mp : Codec
  /-- `Config::credentials`. -/
  credentials : Option Credentials
  /-- `ScramblePassword`. -/
  scramblePassword : List UInt8 → List UInt8 → Except ScrambleFault (List UInt8)
  /-- `Config::send_queue_capacity`. -/
  sendQueueCapacity : Nat
  /-- The program is compiled without assertions. -/
  ndebug : Bool
  /-- The storage of a freed `Connector` still reads as it did: what a function does with
  `this` after that is undefined, and this is one thing that may come of it. -/
  freedReadable : Bool

/-- `Internal::State`. -/
inductive State where
  | connecting
  | connected
  | stopped
deriving DecidableEq, Repr

/-- Where the receive loop is. -/
inductive Loop where
  /-- Spawned, and not started. -/
  | spawned
  /-- `Connection::connect` awaits the addresses of the host. -/
  | resolving
  /-- It awaits the connection to an address; the others are left to try. -/
  | connecting (rest : List Endpoint)
  /-- It awaits the greeting of the server. -/
  | greeting (rest : List Endpoint)
  /-- The loop awaits the outcome of an authentication. -/
  | authenticating
  /-- The loop awaits a message. -/
  | receiving
  /-- The loop has ended. -/
  | finished
  /-- An exception has left the loop, which ends it. -/
  | failed
  /-- The process has ended: an assertion failed, an exception left the strand, or
  something undefined was done. -/
  | aborted
deriving DecidableEq, Repr

/-- The destructor of the connector. -/
inductive Destructor where
  /-- It has not run: someone refers to the connector. -/
  | alive
  /-- It has posted its job to the strand. -/
  | posted
  /-- The job is done. -/
  | done
deriving DecidableEq, Repr

/-- The bytes of a request, and the request whose operation owns them. -/
structure Buffer where
  /-- The owner. -/
  owner : HandlerId
  /-- The bytes. -/
  bytes : List UInt8
deriving DecidableEq, Repr

/-- What the account of a run records. -/
inductive Act where
  /-- Something happened to a handler. -/
  | ledger (entry : Entry)
  /-- `Connection::send_data` was called. -/
  | sendData (data : Buffer)
  /-- `async_write` was called, on the connection with the given number. -/
  | asyncWrite (write : Write Buffer) (epoch : Nat)
  /-- `reset` was entered with some handlers registered, has called some, and has
  thrown or not. -/
  | reset (registered called : List HandlerId) (threw : Bool)
deriving DecidableEq

/-- A connector. -/
structure World where
  /-- `m_s`. -/
  s : State
  /-- `m_schema_version`. -/
  schemaVersion : MpUint
  /-- `m_request_id`. -/
  requestId : OperationId
  /-- `m_requests`. -/
  requests : Requests
  /-- `m_conn`, and the operations it has started. -/
  sender : Sender Buffer
  /-- `m_conn->m_salt`. -/
  salt : List UInt8
  /-- The receive loop. -/
  loop : Loop
  /-- The destructor. -/
  destructor : Destructor
  /-- The requests issued, in order. -/
  issued : List Operation
  /-- What has happened, latest first. -/
  history : List Act

/-- What can happen on the strand. -/
inductive Event where
  /-- The table of requests is reordered, as any insertion may do. -/
  | rehash (requests : Requests)
  /-- `generate_id`. -/
  | generateId
  /-- The function that `send_request` dispatches. -/
  | send (request : Operation)
  /-- The completion of an outstanding write. -/
  | writeDone (i : Nat) (ec : ErrorCode)
  /-- The receive loop starts. -/
  | start
  /-- The addresses of the host. -/
  | resolved (ec : ErrorCode) (addresses : List Endpoint)
  /-- The outcome of a connection attempt. -/
  | connected (ec : ErrorCode)
  /-- A connection attempt succeeds, and the peer is gone before `set_option` and
  `remote_endpoint`. -/
  | vanished
  /-- The outcome of reading the greeting. -/
  | greeted (ec : ErrorCode) (salt : List UInt8)
  /-- The outcome of `receive_message`. -/
  | received (ec : ErrorCode) (frame : IprotoFrame (List UInt8))
  /-- The last reference to the connector is dropped. -/
  | drop
  /-- The job of the destructor. -/
  | stop

namespace World

/-- A connector that was just constructed over an established connection. -/
def init (env : Environment) : World where
  s := .connected
  schemaVersion := 0
  requestId := 0
  requests := []
  sender := Sender.new env.sendQueueCapacity
  salt := []
  loop := .spawned
  destructor := .alive
  issued := []
  history := []

/-- The number of the current connection. -/
def epoch (w : World) : Nat := w.sender.conn.socket.epoch

/-- `is_open` of the socket. -/
def isOpen (w : World) : Bool := w.sender.conn.socket.isOpen

/-- Add to the account. -/
def record (w : World) (entry : Entry) : World := { w with history := .ledger entry :: w.history }

/-- Add to the account that `reset` has called some handlers one after the other, and
whether it was left by an exception. -/
def recordReset (w : World) (ec : ErrorCode) (called : List HandlerId) (threw : Bool) : World :=
  { w with
    history := .reset (w.requests.filterMap Prod.snd) called threw ::
      ((Ledger.callsOf ec called).map Act.ledger ++ w.history) }

/-! ## The connection -/

/-- A function of the connection that may have started an operation. -/
def start (w : World) (r : Connection Buffer × Option (Write Buffer)) : World :=
  { w with
    sender := w.sender.start r
    history := r.2.toList.map (Act.asyncWrite · r.1.socket.epoch) ++ w.history }

/-- `Connection::send_data`. -/
def sendData (w : World) (data : Buffer) : World :=
  { w with history := .sendData data :: w.history }.start (w.sender.conn.sendData data)

/-- `Connection::on_data_sent`, for the outstanding operation at position `i`. -/
def onDataSent (w : World) (i : Nat) (ec : ErrorCode) : World :=
  { w with
    sender := { w.sender with outstanding := w.sender.outstanding.eraseIdx i } }.start
      (w.sender.conn.onDataSent ec)

/-- `Connection::stop`. -/
def stop (w : World) : World := { w with sender := w.sender.onSocket Socket.close }

/-! ## The requests -/

/-- `Internal::reset`; `.error` is the exception of an empty handler. -/
def reset (w : World) : Except World World :=
  let w := if w.s = .connected then { w with s := .connecting } else w
  let ec := if w.s = .stopped then Errc.operationCanceled.code else Errc.brokenPipe.code
  let (called, left, threw) := w.requests.invokeAll
  let w := w.recordReset ec called threw
  if threw then .error { w with requests := left }
  else .ok { w with requests := [] }.stop

/-- The function `send_request` dispatches.  `resume` is what runs inside the call of
the handler when the request is rejected. -/
def sendRequest (w : World) (resume : World → World) (request : Operation) : World :=
  let h := w.issued.length
  let w := { w with issued := w.issued ++ [request] }
  if w.s ≠ .connected then
    let w := resume (w.record (.completed h Errc.notConnected.code .empty))
    -- the function goes on with a handler that is empty now
    if w.loop = .aborted then w
    else
      { w with requests := w.requests.insert request.id none }.sendData ⟨h, request.data⟩
  else
    let w := w.record (.accepted h w.epoch)
    { w with requests := w.requests.insert request.id (some h) }.sendData ⟨h, request.data⟩

/-- The part of the receive loop that handles a message.  What the handler throws is
logged, and an empty handler throws. -/
def handleMessage (w : World) (frame : IprotoFrame (List UInt8)) : World :=
  let w := { w with schemaVersion := frame.header.schemaVersion }
  match w.requests.extract frame.header.sync with
  | none => w
  | some (none, requests) => { w with requests }
  | some (some h, requests) => { w with requests }.record (.completed h {} frame)

/-! ## The receive loop -/

/-- The loop from its top to the next suspension; `.error` is an exception. -/
def enter (env : Environment) (w : World) : Except World World :=
  match w.s with
  | .stopped => w.reset.map fun w ↦ { w with loop := .finished }
  | .connecting =>
    -- `assert(!socket.is_open())` of `Connection::connect`
    if w.isOpen && !env.ndebug then .ok { w with loop := .aborted }
    else .ok { w with loop := .resolving }
  | .connected => .ok { w with loop := .receiving }

/-- The `catch` clause for what is not a `system_error`: it asserts, resets and goes
back to the top.  After a reset nothing is registered that could throw again. -/
def catchAll (env : Environment) : Except World World → World
  | .ok w => w
  | .error w =>
    if !env.ndebug then { w with loop := .aborted }
    else
      match w.reset.bind (enter env) with
      | .ok w => w
      | .error w => { w with loop := .failed }

/-- `continue`. -/
def goOn (env : Environment) (w : World) : World := catchAll env (enter env w)

/-- The loop of `Connection::connect` over the addresses; with none left, `connect`
fails and the receive loop tries again. -/
def tryNext (env : Environment) (w : World) : List Endpoint → World
  | [] => goOn env w
  | _ :: rest =>
    { w with
      sender := (w.sender.onSocket Socket.close).onSocket Socket.reopen
      loop := .connecting rest }

/-- `async_auth` in the receive loop, and what follows it. -/
def authenticate (env : Environment) (w : World) : World :=
  match asyncAuth env.scramblePassword env.credentials w.salt with
  | .completed ec =>
    if ec.failed then goOn env w else { w with s := .connected, loop := .receiving }
  | .sent username scramble =>
    let id := w.requestId
    let packer := authRequest env.mp id username scramble
    -- a rejection fails the authentication, and the loop tries again; while a request
    -- that was accepted is awaited, the loop receives nothing
    { w with requestId := id + 1, loop := .authenticating }.sendRequest (goOn env)
      ⟨id, packer.stream⟩
  -- an exception passes the loop by, and leaves the strand
  | .thrown | .undefined _ => { w with loop := .aborted }

end World

open World

/-- One function on the strand; `none` where it cannot run. -/
def step (env : Environment) (w : World) (e : Event) : Option World :=
  if w.loop = .aborted then none
  else
    match e with
    | .rehash requests => if requests.Perm w.requests then some { w with requests } else none
    | .generateId => some { w with requestId := w.requestId + 1 }
    | .send request =>
      -- the function reads `this`, which nobody keeps alive for it
      if w.destructor = .alive ∨ env.freedReadable then some (w.sendRequest id request) else none
    | .writeDone i ec =>
      if i < w.sender.outstanding.length then some (w.onDataSent i ec) else none
    | .start => if w.loop = .spawned then some (goOn env w) else none
    | .resolved ec addresses =>
      if w.loop = .resolving then
        some (if ec.failed then goOn env w else tryNext env w addresses)
      else none
    | .connected ec =>
      match w.loop with
      | .connecting rest =>
        if ec.failed then some (tryNext env w rest)
        -- `set_option` throws if the socket was closed in the meantime
        else if w.isOpen then some { w with loop := .greeting rest }
        else some { w with loop := .aborted }
      | _ => none
    | .vanished =>
      match w.loop with
      | .connecting _ => some { w with loop := .aborted }
      | _ => none
    | .greeted ec salt =>
      match w.loop with
      | .greeting rest =>
        if ec.failed then some (tryNext env w rest)
        else
          -- `conn.lock()`
          if w.destructor ≠ .alive then some { w with salt, loop := .finished }
          else some (authenticate env { w with salt })
      | _ => none
    | .received ec frame =>
      if w.loop = .receiving then
        if ec.failed then some (catchAll env (w.reset.bind (enter env)))
        else some (goOn env (w.handleMessage frame))
      else none
    | .drop =>
      -- while it authenticates, the loop itself refers to the connector
      if w.destructor = .alive ∧ w.loop ≠ .authenticating then
        some { w with destructor := .posted }
      else none
    | .stop =>
      if w.destructor = .posted then
        some { w with s := .stopped, destructor := .done }.stop
      else none

/-! ## An environment to run in -/

/-- No credentials, and a build without assertions. -/
def Environment.plain : Environment where
  mp := Codec.reference
  credentials := none
  scramblePassword _ _ := .ok []
  sendQueueCapacity := 0
  ndebug := true
  freedReadable := true

/-- The request of `ping`. -/
def pingRequest (id : OperationId) : Operation := ⟨id, (ping Codec.reference id).stream⟩

/-- The peer has closed the connection. -/
def connectionReset : Event := .received ⟨104, .system⟩ .empty

end Connector

end Tntpp
