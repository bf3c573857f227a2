import Tntpp.Detail.Iproto.Header
import Tntpp.Detail.MutableBuffer

/-!
# Frames

An `IprotoFrame` is a header and a body.  The framing layer produces frames whose
body is a `FrozenBuffer`; the functions of this file read the body, and are stated
over a frame whose body is the bytes themselves.  `IprotoFrame.load` goes from one
to the other.

The body of a frame is not looked at before its user asks for it, so each of these
functions meets arbitrary server bytes.  An exception is an `Except.error`; a
function the source declares `noexcept` turns every exception that reaches its
boundary into `Exn.terminate`.
-/

namespace Tntpp

open MsgPack (Object Codec)

/-- A single response from the server. -/
structure IprotoFrame (β : Type) where
  /-- The decoded header. -/
  header : MessageHeader := {}
  /-- The body, which is left encoded. -/
  body : β
deriving DecidableEq, Repr

namespace IprotoFrame

/-- The frame with the bytes its body refers to. -/
def load (f : IprotoFrame FrozenBuffer) (m : MutableBuffer) : IprotoFrame (List UInt8) :=
  ⟨f.header, m.view f.body⟩

section

variable {β : Type}

/-- `is_error`. -/
def isError (f : IprotoFrame β) : Bool := f.header.isError

/-- `get_error_code`. -/
def getErrorCode (f : IprotoFrame β) : ErrorCode :=
  if f.header.isError then f.header.getErrorCode
  else ⟨TarantoolError.unknown.value.toNat, .tarantool⟩

end

/-- A function declared `noexcept`: what it throws ends the process. -/
def noexcept {α : Type} : Except Exn α → Except Exn α
  | .ok a => .ok a
  | .error _ => .error .terminate

/-! ## The error string -/

/-- The conversion of an object to a string, which accepts byte arrays too. -/
def asString : Object → Except Exn (List UInt8)
  | .str s => .ok s
  | .bin s => .ok s
  | _ => .error .typeError

/-- The loop of `get_error_string` over the entries of the body. -/
def findErrorString : List (Object × Object) → Except Exn (List UInt8)
  | [] => .ok []
  | (.uint key, val) :: kvs =>
      match intToFieldType key with
      | some .error24 => asString val
      | _ => findErrorString kvs
  | _ :: _ => .ok []

/-- `get_error_string`. -/
def getErrorString (mp : Codec) (f : IprotoFrame (List UInt8)) : Except Exn (List UInt8) :=
  noexcept <|
    if f.isError then
      match mp.unpack f.body with
      | none => .error .unpackError
      | some (.map kvs, _) => findErrorString kvs
      | some _ => .ok []
    else .error .terminate

/-! ## The result -/

section

variable {τ : Type} (mp : Codec) (convert : Object → τ → Except τ τ)

/-- The loop of `as` over the entries of the body: the first `Data` entry decides.
`convert val v` is the adaptor of the result type, which writes into a tuple that holds `v`;
where it throws, the tuple holds what was written so far. -/
def findData (v : τ) : List (Object × Object) → Except (Exn × τ) τ
  -- `assert(false && "data is not present in the response message")`
  | [] => .error (.terminate, v)
  | (.uint key, val) :: kvs =>
      match intToFieldType key with
      | some .data => (convert val v).mapError (.typeError, ·)
      | _ => findData v kvs
  | _ :: _ => .error (.typeError, v)

/-- `as(std::tuple<T...>&)`, of a tuple that holds `v`: the tuple, or what is thrown and the
tuple it leaves. -/
def asInto (f : IprotoFrame (List UInt8)) (v : τ) : Except (Exn × τ) τ :=
  if f.isError then .error (.systemError f.getErrorCode, v)
  else
    match mp.unpack f.body with
    | none => .error (.unpackError, v)
    | some (.map kvs, _) => findData convert v kvs
    | some _ => .error (.typeError, v)

/-- `as()`; `default` is the value-initialised tuple. -/
def as (default : τ) (f : IprotoFrame (List UInt8)) : Except Exn τ :=
  (asInto mp convert f default).mapError Prod.fst

/-- The `catch` clauses the overloads with an error code share: the tuple that is left, and
the error code. -/
def catchInto (ec : ErrorCode) : Except (Exn × τ) τ → Except Exn (τ × ErrorCode)
  | .ok v => .ok (v, ec)
  | .error (.systemError code, v) => .ok (v, code)
  | .error (.terminate, _) => .error .terminate
  | .error (_, v) => .ok (v, Errc.protocolError.code)

/-- `as(error_code&)`. -/
def asEc (default : τ) (f : IprotoFrame (List UInt8)) (ec : ErrorCode) :
    Except Exn (τ × ErrorCode) :=
  if f.isError then .ok (default, f.getErrorCode)
  else noexcept (catchInto ec ((as mp convert default f).mapError (·, default)))

/-- `as(std::tuple<T...>&, error_code&)`. -/
def asIntoEc (f : IprotoFrame (List UInt8)) (v : τ) (ec : ErrorCode) :
    Except Exn (τ × ErrorCode) :=
  noexcept <|
    if f.isError then .ok (v, f.getErrorCode)
    else catchInto ec (asInto mp convert f v)

end

/-! ## Error responses -/

section

variable {β : Type}

theorem getErrorCode_of_isError {f : IprotoFrame β} (h : f.isError = true) :
    f.getErrorCode = f.header.getErrorCode := if_pos h

/-- The error number a response carries. -/
def errorNumber (f : IprotoFrame β) : Nat := f.header.requestType.toNat - 0x8000

/-- The error numbers whose code tests true are those the client knows, without
zero. -/
theorem failed_getErrorCode_iff {f : IprotoFrame β} (h : f.isError = true) :
    f.getErrorCode.failed = true ↔ 1 ≤ f.errorNumber ∧ f.errorNumber ≤ 280 := by
  rw [getErrorCode_of_isError h]
  exact MessageHeader.failed_getErrorCode_iff h

end

section

variable {τ : Type} {mp : Codec} {convert : Object → τ → Except τ τ}
  {f : IprotoFrame (List UInt8)}

theorem asInto_of_isError (h : f.isError = true) (v : τ) :
    asInto mp convert f v = .error (.systemError f.getErrorCode, v) := if_pos h

theorem as_of_isError (h : f.isError = true) (default : τ) :
    as mp convert default f = .error (.systemError f.getErrorCode) := by
  rw [as, asInto_of_isError h]
  rfl

theorem asEc_of_isError (h : f.isError = true) (default : τ) (ec : ErrorCode) :
    asEc mp convert default f ec = .ok (default, f.getErrorCode) := if_pos h

theorem asIntoEc_of_isError (h : f.isError = true) (v : τ) (ec : ErrorCode) :
    asIntoEc mp convert f v ec = .ok (v, f.getErrorCode) := by
  rw [asIntoEc, if_pos h]
  rfl

end

end IprotoFrame

end Tntpp
