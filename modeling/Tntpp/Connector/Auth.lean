import Tntpp.Detail.Frame

/-!
# The outcome of an authentication, and error responses in general

`Connector::async_auth` sends an `Auth` request and turns what comes back into one
error code; `Connector::connect` hands that code to its caller, together with a
connector if it does not test true.  `authOutcome` and `connectOutcome` are these
two translations.  Logging is part of the first: at level `Info` the error string
of the response is formatted, which reads the body.

The question for an error response is whether every consumer ends up with an error
code that tests true.  It is answered by the error number alone, up to the logging:
`reportsError_iff`.
-/

namespace Tntpp

open MsgPack (Object Codec)

/-- What `async_auth` completes with, once its request has completed with `ec` and
`frame`.  `logs` says whether the logger takes `Info` messages. -/
def authOutcome (mp : Codec) (logs : Bool) (ec : ErrorCode) (frame : IprotoFrame (List UInt8)) :
    Except Exn ErrorCode :=
  if ec.failed then .ok ec
  else if frame.isError then do
    let _ ← if logs then frame.getErrorString mp else .ok []
    return frame.getErrorCode
  else .ok ec

/-- What `connect` completes with, given the outcome of its authentication: the
error code and whether there is a connector. -/
def connectOutcome (auth : ErrorCode) : ErrorCode × Bool :=
  if auth.failed then (auth, false) else ({}, true)

/-- Every consumer of the response `frame` sees a failure: the error code itself,
the three decoders, whatever the type of the result, its conversion and the error
code they are given, and the authentication the response may belong to. -/
structure ReportsError (mp : Codec) (logs : Bool) (frame : IprotoFrame (List UInt8)) : Prop where
  /-- `get_error_code` tests true. -/
  code : frame.getErrorCode.failed = true
  /-- `as()` throws a `system_error` whose code tests true. -/
  as : ∀ (τ : Type) (convert : Object → τ → Except τ τ) (default : τ), ∃ c,
    IprotoFrame.as mp convert default frame = .error (.systemError c) ∧ c.failed = true
  /-- `as(ec)` leaves an error code that tests true. -/
  asEc : ∀ (τ : Type) (convert : Object → τ → Except τ τ) (default : τ) (ec : ErrorCode), ∃ v c,
    IprotoFrame.asEc mp convert default frame ec = .ok (v, c) ∧ c.failed = true
  /-- `as(v, ec)` leaves an error code that tests true. -/
  asIntoEc : ∀ (τ : Type) (convert : Object → τ → Except τ τ) (v : τ) (ec : ErrorCode), ∃ v' c,
    IprotoFrame.asIntoEc mp convert frame v ec = .ok (v', c) ∧ c.failed = true
  /-- `async_auth` completes with an error code that tests true, and `connect` with
  it and no connector. -/
  auth : ∃ c, authOutcome mp logs {} frame = .ok c ∧ c.failed = true ∧
    connectOutcome c = (c, false)

section

variable {mp : Codec} {logs : Bool} {frame : IprotoFrame (List UInt8)}

/-- A rejected authentication completes with the error code of the response, unless
formatting the error string for the log ends the process. -/
theorem authOutcome_of_isError (h : frame.isError = true) {c : ErrorCode} :
    authOutcome mp logs {} frame = .ok c ↔
      c = frame.getErrorCode ∧ (logs = true → ∃ s, frame.getErrorString mp = .ok s) := by
  simp only [authOutcome, ErrorCode.failed_default, h, if_true, Bool.false_eq_true, if_false]
  cases logs with
  | false => simpa [bind, Except.bind, pure, Except.pure] using eq_comm
  | true =>
      cases hs : frame.getErrorString mp with
      | ok s => simpa [bind, Except.bind, pure, Except.pure] using eq_comm
      | error e => simp [bind, Except.bind]

/-- An error response is reported as an error exactly when its error number is one
the client knows and not zero, and the error string can be read where it is
logged. -/
theorem reportsError_iff (h : frame.isError = true) :
    ReportsError mp logs frame ↔
      (1 ≤ frame.errorNumber ∧ frame.errorNumber ≤ 280) ∧
        (logs = true → ∃ s, frame.getErrorString mp = .ok s) := by
  rw [← IprotoFrame.failed_getErrorCode_iff h]
  constructor
  · intro hr
    obtain ⟨c, hc, -⟩ := hr.auth
    exact ⟨hr.code, ((authOutcome_of_isError h).mp hc).2⟩
  · rintro ⟨hcode, hlog⟩
    exact {
      code := hcode
      as := fun _ _ default ↦ ⟨_, IprotoFrame.as_of_isError h default, hcode⟩
      asEc := fun _ _ default ec ↦ ⟨_, _, IprotoFrame.asEc_of_isError h default ec, hcode⟩
      asIntoEc := fun _ _ v ec ↦ ⟨_, _, IprotoFrame.asIntoEc_of_isError h v ec, hcode⟩
      auth := ⟨_, (authOutcome_of_isError h).mpr ⟨rfl, hlog⟩, hcode, if_pos hcode⟩ }

end

/-- A response with error `1` whose body is `{Error_24: "x"}`. -/
theorem reportsError_known :
    ReportsError Codec.reference true ⟨{ requestType := 0x8001 }, [0x81, 0x31, 0xa1, 0x78]⟩ :=
  (reportsError_iff (by decide)).mpr ⟨by decide, fun _ ↦ ⟨[0x78], rfl⟩⟩

/-- A response with error `281`, the first the client does not know: it is an error
response, and its error code is success. -/
theorem unknown_error_not_reported :
    (⟨{ requestType := 0x8119 }, [0x80]⟩ : IprotoFrame (List UInt8)).isError = true ∧
      ¬ ReportsError Codec.reference false ⟨{ requestType := 0x8119 }, [0x80]⟩ :=
  ⟨by decide, fun h ↦ absurd h.code (by decide)⟩

end Tntpp
