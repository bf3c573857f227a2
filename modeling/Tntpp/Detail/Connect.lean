import Tntpp.Detail.Greeting

/-!
# Connecting

`Connection::connect` tries the addresses of a host one after the other, with one socket,
one salt and one receive buffer for all of them.  An address may refuse the connection, or
accept it and send no greeting, something else, or a greeting.  It may also be gone as soon
as it has accepted: the socket is then looked at with functions that throw.

Nothing of the addresses that were tried in vain is left: the outcome is that of the first
address that greets, unless one that vanishes comes before it.
-/

namespace Tntpp

open Block

/-- What an address answers to a connection attempt. -/
inductive Answer where
  /-- An error. -/
  | refused (ec : ErrorCode) (failed_ec : ec.failed = true)
  /-- A connection. -/
  | accepted (stream : AsyncReadStream)
  /-- A connection whose peer is gone at once. -/
  | vanished

/-- A resolved address, and its answer. -/
structure Address (E : Type) where
  /-- The endpoint. -/
  endpoint : E
  /-- What it answers. -/
  answer : Answer

/-- How `connect` ends without an error code. -/
inductive ConnectFault where
  /-- `assert(!socket.is_open())` fails. -/
  | assertion
  /-- A `system_error` leaves the coroutine, and its handler is never called. -/
  | exception (ec : ErrorCode)
deriving DecidableEq

/-- A connection as `connect` sees it. -/
structure Connecting (E : Type) where
  /-- `m_stream`. -/
  stream : IprotoFraming
  /-- The socket is open. -/
  isOpen : Bool
  /-- The endpoint the socket is connected to. -/
  peer : Option E
  /-- `m_salt`. -/
  salt : List UInt8
  /-- The endpoints that were tried, in order. -/
  tried : List E

namespace Connecting

variable {E : Type}

/-- `m_stream.clear`. -/
def clear (c : Connecting E) : Connecting E := { c with stream := c.stream.clear }

/-- `socket.close`. -/
def close (c : Connecting E) : Connecting E := { c with isOpen := false, peer := none }

/-- `socket.async_connect`, which opens the socket whatever the answer.  A socket that is
connected is not connected anew. -/
def asyncConnect (c : Connecting E) (address : Address E) : ErrorCode × Connecting E :=
  if c.isOpen && c.peer.isSome then (Errc.alreadyConnected.code, c)
  else
    let c := { c with isOpen := true, tried := c.tried ++ [address.endpoint] }
    match address.answer with
    | .refused ec _ => (ec, c)
    | .accepted stream =>
        ({}, { c with peer := some address.endpoint, stream := ⟨stream, c.stream.buffer⟩ })
    | .vanished => ({}, c)

/-- `socket.set_option` and `socket.remote_endpoint`, which throw where the peer is gone. -/
def remoteEndpoint (c : Connecting E) : Except ConnectFault E :=
  match c.peer with
  | some endpoint => .ok endpoint
  | none => .error (.exception Errc.notConnected.code)

/-- `read_tarantool_hello` on the socket; the salt is assigned in any case. -/
def readHello (c : Connecting E) : ErrorCode × Connecting E :=
  let ((ec, salt), stream) := readTarantoolHello c.stream.nextLayer
  (ec, { c with salt, stream := ⟨stream, c.stream.buffer⟩ })

/-- The body of the loop; with an error, it goes on with the next address. -/
def tryAddress (c : Connecting E) (address : Address E) :
    Except ConnectFault (ErrorCode × Connecting E) :=
  let (ec, c) := c.clear.close.asyncConnect address
  if ec.failed then .ok (ec, c)
  else do
    let _ ← c.remoteEndpoint
    let (ec, c) := c.readHello
    if ec.failed then .ok (ec, c)
    -- clear old data after reconnect
    else .ok ({}, c.clear)

/-- The loop over the addresses. -/
def tryAddresses (c : Connecting E) :
    List (Address E) → Except ConnectFault (ErrorCode × Connecting E)
  | [] => .ok (Errc.notConnected.code, c)
  | address :: addresses => do
      let (ec, c) ← c.tryAddress address
      if ec.failed then c.tryAddresses addresses else .ok ({}, c)

/-- `Connection::connect`, with what the resolver returns. -/
def connect (c : Connecting E) (resolved : ErrorCode) (addresses : List (Address E)) :
    Except ConnectFault (ErrorCode × Connecting E) :=
  if c.isOpen then .error .assertion
  else if resolved.failed then .ok (resolved, c)
  else c.tryAddresses addresses

end Connecting

namespace Answer

/-- The address accepts the connection and sends a greeting. -/
def Greets : Answer → Prop
  | .accepted stream => ValidHello (stream.segments.flatten.take 128)
  | .refused _ _ | .vanished => False

instance : (answer : Answer) → Decidable answer.Greets
  | .accepted stream => inferInstanceAs (Decidable (ValidHello (stream.segments.flatten.take 128)))
  | .refused _ _ | .vanished => .isFalse fun h ↦ h

/-- The connection is gone before anything is read from it. -/
def Vanishes : Answer → Prop
  | .vanished => True
  | .refused _ _ | .accepted _ => False

instance : (answer : Answer) → Decidable answer.Vanishes
  | .vanished => .isTrue trivial
  | .refused _ _ | .accepted _ => .isFalse fun h ↦ h

/-- The address is tried, and the next one after it. -/
def InVain (answer : Answer) : Prop := ¬ answer.Greets ∧ ¬ answer.Vanishes

end Answer

/-- The connection is to an address that has sent a greeting: the salt is the second line,
and the next message starts behind it. -/
structure Connecting.ConnectedTo {E : Type} (address : Address E) (c : Connecting E) : Prop where
  /-- The socket is connected to the address. -/
  peer : c.isOpen = true ∧ c.peer = some address.endpoint
  /-- Nothing of another address is in the salt or is received. -/
  greeted : ∃ stream, address.answer = .accepted stream ∧
    c.salt = slice stream.segments.flatten 64 64 ∧
    c.stream.buffer.unread = [] ∧ c.stream.pending = stream.segments.flatten.drop 128 ∧
    c.stream.nextLayer.error = stream.error

namespace Connecting

variable {E : Type} {c : Connecting E} {address : Address E}

/-! ## One address -/

theorem tryAddress_of_greets (c : Connecting E) (h : address.answer.Greets) :
    ∃ c', c.tryAddress address = .ok ({}, c') ∧ c'.ConnectedTo address ∧
      c'.tried = c.tried ++ [address.endpoint] := by
  obtain ⟨endpoint, answer⟩ := address
  cases answer with
  | refused ec hec => exact h.elim
  | vanished => exact h.elim
  | accepted stream =>
      obtain ⟨rest, hread, hrest⟩ := readTarantoolHello_of_valid h
      let reached : Connecting E :=
        { stream := ⟨{ stream with segments := rest }, c.stream.buffer.clear⟩
          isOpen := true
          peer := some endpoint
          salt := slice stream.segments.flatten 64 64
          tried := c.tried ++ [endpoint] }
      have hunread : reached.clear.stream.buffer.unread = [] :=
        (MutableBuffer.clear_spec c.stream.buffer.clear).1
      have hpending : reached.clear.stream.pending = stream.segments.flatten.drop 128 := by
        rw [IprotoFraming.pending, hunread, List.nil_append]
        exact hrest
      refine ⟨reached.clear, ?_, ⟨⟨rfl, rfl⟩, stream, rfl, rfl, hunread, hpending, rfl⟩, rfl⟩
      simp only [tryAddress, asyncConnect, close, Bool.false_and, Bool.false_eq_true, if_false,
        ErrorCode.failed_default, readHello, hread]
      rfl

theorem tryAddress_of_inVain (c : Connecting E) (h : address.answer.InVain) :
    ∃ ec c', c.tryAddress address = .ok (ec, c') ∧ ec.failed = true ∧
      c'.tried = c.tried ++ [address.endpoint] := by
  obtain ⟨endpoint, answer⟩ := address
  obtain ⟨hgreets, hvanishes⟩ := h
  cases answer with
  | vanished => exact absurd trivial hvanishes
  | refused ec hec =>
      refine ⟨ec, (c.clear.close.asyncConnect ⟨endpoint, .refused ec hec⟩).2, ?_, hec, rfl⟩
      simp only [tryAddress, asyncConnect, close, Bool.false_and, Bool.false_eq_true, if_false, hec]
      rfl
  | accepted stream =>
      obtain ⟨ec, stream', hread, hec⟩ := readTarantoolHello_of_not_valid hgreets
      let reached : Connecting E :=
        { stream := ⟨stream', c.stream.buffer.clear⟩
          isOpen := true
          peer := some endpoint
          salt := []
          tried := c.tried ++ [endpoint] }
      refine ⟨ec, reached, ?_, hec, rfl⟩
      simp only [tryAddress, asyncConnect, close, Bool.false_and, Bool.false_eq_true, if_false,
        ErrorCode.failed_default, readHello, hread, hec]
      rfl

/-- Addresses that are tried in vain are passed over. -/
theorem tryAddresses_append {before : List (Address E)}
    (h : ∀ address ∈ before, address.answer.InVain) (c : Connecting E)
    (rest : List (Address E)) :
    ∃ c' : Connecting E, c.tryAddresses (before ++ rest) = c'.tryAddresses rest ∧
      c'.tried = c.tried ++ before.map Address.endpoint := by
  induction before generalizing c with
  | nil => exact ⟨c, rfl, (List.append_nil _).symm⟩
  | cons address before ih =>
      obtain ⟨hfirst, hbefore⟩ := List.forall_mem_cons.mp h
      obtain ⟨ec, c₁, htry, hec, htried₁⟩ := tryAddress_of_inVain c hfirst
      obtain ⟨c₂, hrest, htried₂⟩ := ih hbefore c₁
      refine ⟨c₂, ?_, ?_⟩
      · rw [List.cons_append, tryAddresses, htry, ← hrest]
        exact if_pos hec
      · rw [htried₂, htried₁, List.append_assoc, List.map_cons, List.singleton_append]

/-- The first address that greets ends the loop. -/
theorem tryAddresses_of_greets {before after : List (Address E)}
    (hbefore : ∀ b ∈ before, b.answer.InVain) (h : address.answer.Greets) (c : Connecting E) :
    ∃ c', c.tryAddresses (before ++ address :: after) = .ok ({}, c') ∧ c'.ConnectedTo address ∧
      c'.tried = c.tried ++ before.map Address.endpoint ++ [address.endpoint] := by
  obtain ⟨c₁, hrest, htried₁⟩ := tryAddresses_append hbefore c (address :: after)
  obtain ⟨c₂, htry, hconnected, htried₂⟩ := tryAddress_of_greets c₁ h
  refine ⟨c₂, ?_, hconnected, ?_⟩
  · rw [hrest, tryAddresses, htry]
    rfl
  · rw [htried₂, htried₁]

theorem connect_of_closed (hclosed : c.isOpen = false) (addresses : List (Address E)) :
    c.connect {} addresses = c.tryAddresses addresses := by
  rw [connect, hclosed]
  rfl

/-- A closed connection with an old salt. -/
def reconnecting : Connecting Nat where
  stream := ⟨greetingWith [], MutableBuffer.new 16⟩
  isOpen := false
  peer := none
  salt := [0x41]
  tried := []

theorem failed_connectionRefused : ErrorCode.failed ⟨111, .system⟩ = true := rfl

end Connecting

end Tntpp
