import Mathlib.Logic.Basic

/-!
# Error codes

`boost::system::error_code` is a number together with the category that gives it
a meaning.  Whether it *tests true*, that is whether it is an error at all, is
decided by `error_category::failed`, which no category of this program overrides:
a code is an error exactly when its number is not zero.  The number zero of the
client's own category is `TarantoolError::Unknown`, so the two conventions meet
in one value; `failed` keeps to what the library computes.
-/

namespace Tntpp

/-- The categories of the error codes this program handles. -/
inductive ErrorCategory where
  /-- `boost::system::system_category()`. -/
  | system
  /-- The categories of asio: end of file, address resolution. -/
  | asio
  /-- `iproto::tarantool_error_category()`. -/
  | tarantool
deriving DecidableEq, Repr

/-- `boost::system::error_code`; the default value is success. -/
structure ErrorCode where
  /-- The number. -/
  value : Int := 0
  /-- The category it belongs to. -/
  category : ErrorCategory := .system
deriving DecidableEq, Repr

namespace ErrorCode

/-- `error_code::operator bool`: the code tests true. -/
def failed (ec : ErrorCode) : Bool := ec.value != 0

@[simp] theorem failed_default : failed {} = false := rfl

theorem failed_iff {ec : ErrorCode} : ec.failed = true ↔ ec.value ≠ 0 := by simp [failed]

end ErrorCode

/-- The conditions of `boost::system::errc` this program reports. -/
inductive Errc where
  | alreadyConnected
  | badMessage
  | brokenPipe
  | illegalByteSequence
  | invalidArgument
  | messageSize
  | notConnected
  | operationCanceled
  | protocolError
  | stateNotRecoverable
deriving DecidableEq, Repr

namespace Errc

/-- The `errno` value behind a condition. -/
def value : Errc → Int
  | alreadyConnected => 106
  | badMessage => 74
  | brokenPipe => 32
  | illegalByteSequence => 84
  | invalidArgument => 22
  | messageSize => 90
  | notConnected => 107
  | operationCanceled => 125
  | protocolError => 71
  | stateNotRecoverable => 131

/-- `error_code(errc, system_category())`. -/
def code (e : Errc) : ErrorCode := ⟨e.value, .system⟩

end Errc

/-- An exception that may leave a function of the program. -/
inductive Exn where
  /-- `boost::system::system_error`. -/
  | systemError (code : ErrorCode)
  /-- `msgpack::type_error`, which is a `std::bad_cast`. -/
  | typeError
  /-- What `msgpack::unpack` throws, which is a `std::exception`. -/
  | unpackError
  /-- `std::bad_function_call`. -/
  | badFunctionCall
  /-- Not an exception: a failed assertion, or an exception that reached a
  `noexcept` boundary, and the process ends. -/
  | terminate
deriving DecidableEq, Repr

end Tntpp
