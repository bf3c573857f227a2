import Tntpp.Box.Encoding
import Tntpp.Detail.Connect
import Tntpp.Detail.Scramble

/-!
# The handshake

What a client does from the first byte of a greeting to the request that authenticates it,
and what a server makes of that request.  The server has stored `SHA1(SHA1(password))` for a
user, has sent twenty bytes of salt or more, and decodes the request as any other message.

The hashes of the server are those of the standard: nothing here is about the client's own
implementation of SHA-1 but that it agrees (`sha1_eq`).
-/

namespace Tntpp

open Block
open MsgPack (Object Codec)

/-! ## The server -/

/-- The value under a field of a map. -/
def valueUnder (f : FieldType) : List (Object × Object) → Option Object
  | [] => none
  | (.uint key, val) :: kvs => if key = f.value then some val else valueUnder f kvs
  | _ :: kvs => valueUnder f kvs

/-- What a server reads of the body of an authentication request: the user, the method and
the scramble. -/
def credentialsOf : Object → Option (List UInt8 × List UInt8 × List UInt8)
  | .map kvs =>
      match valueUnder .username kvs, valueUnder .tuple kvs with
      | some (.str username), some (.array [.str method, .str scramble]) =>
          some (username, method, scramble)
      | _, _ => none
  | _ => none

/-- A server that has stored a hash for each user and has sent `salt` grants a request. -/
def Grants (stored : List UInt8 → Option (List UInt8)) (salt : List UInt8) (request : Object) :
    Prop :=
  ∃ username scramble hash, credentialsOf request = some (username, Connector.chapSha1, scramble) ∧
    stored username = some hash ∧ Accepts hash salt scramble

/-- The scramble of the right password is granted. -/
theorem grants_scrambleOf {stored : List UInt8 → Option (List UInt8)}
    {username password : List UInt8}
    (hstored : stored username = some (SecureHash.sha1 (SecureHash.sha1 password)))
    (salt : List UInt8) :
    Grants stored salt (.map (Request.auth username (scrambleOf password salt)).entries) :=
  ⟨username, scrambleOf password salt, _, rfl, hstored, accepts_scrambleOf password salt⟩

/-! ## The greeting of a server -/

section

variable {version salt rest : List UInt8}

/-- The bytes a server sends first: a line with its version, and a line with the salt. -/
def greetingBytes (version salt : List UInt8) : List UInt8 :=
  version ++ [0x0a] ++ saltLine (encode64 salt)

theorem length_saltLine {line : List UInt8} (h : line.length ≤ 63) :
    (saltLine line).length = 64 := by
  simp only [saltLine, List.length_append, List.length_replicate, List.length_singleton]
  omega

/-- They are a greeting, and the second line is the salt. -/
theorem validHello_greetingBytes (hversion : version.length = 63)
    (hline : (encode64 salt).length ≤ 63) (rest : List UInt8) :
    ValidHello ((greetingBytes version salt ++ rest).take 128) ∧
      slice (greetingBytes version salt ++ rest) 64 64 = saltLine (encode64 salt) := by
  have hfirst : (version ++ [0x0a]).length = 64 := by
    rw [List.length_append, hversion]
    rfl
  have hsecond := length_saltLine hline
  have hlen : (greetingBytes version salt).length = 128 := by
    rw [greetingBytes, List.length_append, hfirst, hsecond]
  have hspaces :
      (encode64 salt ++ List.replicate (63 - (encode64 salt).length) 0x20).length = 63 := by
    rw [List.length_append, List.length_replicate]
    omega
  rw [List.take_left' hlen]
  refine ⟨⟨hlen, ?_, ?_⟩, ?_⟩
  · rw [greetingBytes, List.getElem?_append_left (by rw [hfirst]; decide),
      List.getElem?_append_right (Nat.le_of_eq hversion), hversion]
    rfl
  · rw [greetingBytes, List.getElem?_append_right (by rw [hfirst]; decide), hfirst, saltLine,
      List.getElem?_append_right (by rw [hspaces]), hspaces]
    rfl
  · rw [greetingBytes, List.append_assoc, slice, List.drop_left' hfirst, List.take_left' hsecond]

end

/-! ## From the greeting to the request -/

/-- What fills the second line is space. -/
theorem isSpace_fill (n : Nat) :
    ∀ c ∈ List.replicate n (0x20 : UInt8) ++ [0x0a], isSpace c = true := by
  intro c hc
  rcases List.mem_append.mp hc with hc | hc
  · rw [List.eq_of_mem_replicate hc]
    rfl
  · rw [List.mem_singleton.mp hc]
    rfl

/-- Whichever addresses were tried in vain, and however the greeting arrives: once `connect`
has reached a server that sends its greeting, `async_auth` sends the scramble of the method
for the salt of the connection, and a server that knows the user decodes the request to one
that it grants.  The length of the password and that of the request fit into 32 bits. -/
theorem handshake {E : Type} (mp : Codec) (hmp : mp.Lawful)
    (base64 : List UInt8 → Option (List UInt8))
    (hbase64 : ∀ s out, decodeGroups s = some out → base64 s = some out)
    (c : Connecting E) (before after : List (Address E)) (endpoint : E) (stream : AsyncReadStream)
    (version salt rest : List UInt8) (hclosed : c.isOpen = false)
    (hbefore : ∀ b ∈ before, b.answer.InVain) (hversion : version.length = 63)
    (hsalt : 20 ≤ salt.length) (hline : (encode64 salt).length ≤ 63)
    (hstream : stream.segments.flatten = greetingBytes version salt ++ rest)
    (username password : List UInt8) (hpassword : password.length < 2 ^ 32) (id : OperationId)
    (stored : List UInt8 → Option (List UInt8))
    (hstored : stored username = some (SecureHash.sha1 (SecureHash.sha1 password))) :
    ∃ c' : Connecting E,
      c.connect {} (before ++ ⟨endpoint, .accepted stream⟩ :: after) = .ok ({}, c') ∧
      c'.peer = some endpoint ∧ c'.stream.pending = rest ∧
      asyncAuth (scrambler base64) (some ⟨username, password⟩) c'.salt =
        .sent username (scrambleOf password salt) ∧
      (((Request.auth username (scrambleOf password salt)).payload mp id).length < 2 ^ 32 →
        ∀ (server : IprotoFraming) (later : List UInt8),
          server.pending =
            (Connector.authRequest mp id username (scrambleOf password salt)).stream ++ later →
          ∃ frame server' request, server.receiveMessage mp = some (({}, frame), server') ∧
            server'.pending = later ∧
            frame.header = { requestType := RequestType.auth.value, sync := id } ∧
            mp.unpack (server'.buffer.view frame.body) =
              some (request, (server'.buffer.view frame.body).length) ∧
            Grants stored salt request) := by
  obtain ⟨hvalid, hslice⟩ := validHello_greetingBytes hversion hline rest
  rw [← hstream] at hvalid hslice
  have hgreets : (⟨endpoint, .accepted stream⟩ : Address E).answer.Greets := hvalid
  obtain ⟨c', htry, hconnected, -⟩ := Connecting.tryAddresses_of_greets hbefore hgreets c
  obtain ⟨stream', hanswer, hsaltEq, -, hpending, -⟩ := hconnected.greeted
  obtain rfl : stream = stream' := by
    cases hanswer
    rfl
  have hlen : (greetingBytes version salt).length = 128 := by
    rw [greetingBytes, List.length_append, List.length_append, hversion, length_saltLine hline]
    rfl
  obtain ⟨_, left, hscramble, rfl, -⟩ := scramblePassword_eq_scrambleOf base64 hbase64 password []
    salt (List.replicate (63 - (encode64 salt).length) 0x20 ++ [0x0a]) hpassword hsalt
    (fun _ h ↦ absurd h List.not_mem_nil) (isSpace_fill _)
  have hcsalt : c'.salt =
      [] ++ encode64 salt ++ (List.replicate (63 - (encode64 salt).length) 0x20 ++ [0x0a]) := by
    rw [hsaltEq, hslice, saltLine, List.nil_append, List.append_assoc]
  rw [← hcsalt] at hscramble
  refine ⟨c', ?_, hconnected.peer.2, ?_,
    asyncAuth_of_scramble (congrArg (Except.map Prod.fst) hscramble), ?_⟩
  · exact (Connecting.connect_of_closed hclosed _).trans htry
  · rw [hpending, hstream, List.drop_left' hlen]
  · intro hpayload server later hserver
    have hmessage := (Request.auth username (scrambleOf password salt)).message_eq_payload hmp id
    have hbytes : (Connector.authRequest mp id username (scrambleOf password salt)).stream =
        ((Request.auth username (scrambleOf password salt)).wireFrame hmp id hpayload).bytes :=
      Except.ok.inj hmessage
    rw [hbytes] at hserver
    obtain ⟨frame, server', hreceive, hheader, -, hview, hleft, -⟩ :=
      IprotoFraming.receiveMessage_spec _ hserver
    have hbody :
        (mp.pack (.map (Request.auth username (scrambleOf password salt)).entries)).length <
        2 ^ 32 := by
      refine Nat.lt_of_le_of_lt ?_ hpayload
      rw [Request.payload, List.length_append]
      exact Nat.le_add_left _ _
    have hunpack := hmp.unpack_pack _ [] hbody
    rw [List.append_nil] at hunpack
    refine ⟨frame, server', _, hreceive, hleft, hheader, ?_, grants_scrambleOf hstored salt⟩
    rw [hview]
    exact hunpack

/-- A server whose greeting arrives in two portions, with a message behind it. -/
def greetingServer : AsyncReadStream where
  segments := [(greetingBytes (List.replicate 63 0x20) (List.replicate 32 0x07)).take 100,
    (greetingBytes (List.replicate 63 0x20) (List.replicate 32 0x07)).drop 100 ++ [0xce, 0x00]]
  error := ⟨2, .asio⟩
  failed_error := failed_eof

/-- One address refuses, and the second is that server. -/
theorem handshake_secret :
    ∃ c' : Connecting Nat,
      Connecting.reconnecting.connect {}
          [⟨1, .refused ⟨111, .system⟩ Connecting.failed_connectionRefused⟩,
            ⟨2, .accepted greetingServer⟩] = .ok ({}, c') ∧
      c'.peer = some 2 ∧ c'.stream.pending = [0xce, 0x00] ∧
      asyncAuth (scrambler decodeGroups) (some ⟨[0x75], [0x73, 0x65, 0x63]⟩) c'.salt =
        .sent [0x75] (scrambleOf [0x73, 0x65, 0x63] (List.replicate 32 0x07)) := by
  obtain ⟨c', hconnect, hpeer, hpending, hscramble, -⟩ :=
    handshake Codec.reference Codec.reference_lawful decodeGroups (fun _ _ h ↦ h)
      Connecting.reconnecting [⟨1, .refused ⟨111, .system⟩ Connecting.failed_connectionRefused⟩] []
      2 greetingServer (List.replicate 63 0x20) (List.replicate 32 0x07) [0xce, 0x00] rfl
      (List.forall_mem_singleton.mpr ⟨fun h ↦ h, fun h ↦ h⟩) rfl (by decide) (by decide) (by decide)
      [0x75] [0x73, 0x65, 0x63] (by decide) 0
      (fun _ ↦ some (SecureHash.sha1 (SecureHash.sha1 [0x73, 0x65, 0x63]))) rfl
  exact ⟨c', hconnect, hpeer, hpending, hscramble⟩

end Tntpp
