import Tntpp.Detail.Request

/-!
# The requests of a connector

What `Connector::ping`, `call`, `eval` and `async_auth` write before they hand the
message to `send_request`.  The identifier is the one they have just taken from
`generate_id`; it goes into the header and is the one the request is registered
under.
-/

namespace Tntpp

open MsgPack (Object Codec)

namespace Connector

/-- `pack` of a `PingRequest`, which is an empty map. -/
def packPingRequest (mp : Codec) (p : RequestPacker) : RequestPacker := p.beginMap mp 0

/-- `ping`. -/
def ping (mp : Codec) (id : OperationId) : RequestPacker :=
  (packPingRequest mp (RequestPacker.new.packHeader mp (requestHeader id .ping))).finalize

/-- `call`. -/
def call (mp : Codec) (id : OperationId) (function : List UInt8) (args : Object) : RequestPacker :=
  (beginRequest mp id .call 2 [(.functionName, .str function), (.tuple, args)]).finalize

/-- `eval`. -/
def eval (mp : Codec) (id : OperationId) (expression : List UInt8) (args : Object) : RequestPacker :=
  (beginRequest mp id .eval 2 [(.expr, .str expression), (.tuple, args)]).finalize

/-- The name of the authentication method. -/
def chapSha1 : List UInt8 := [0x63, 0x68, 0x61, 0x70, 0x2d, 0x73, 0x68, 0x61, 0x31]

/-- The request of `async_auth`; `scramble` is the string `ScramblePassword` returned. -/
def authRequest (mp : Codec) (id : OperationId) (username scramble : List UInt8) : RequestPacker :=
  (beginRequest mp id .auth 2
    [(.username, .str username), (.tuple, .array [.str chapSha1, .str scramble])]).finalize

end Connector

end Tntpp
