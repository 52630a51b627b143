import VaultGovernance.Error
import VaultGovernance.Form.Issue

/-!
# VaultGovernance.Http.Reply

What a request is answered with.  Whatever goes wrong is answered in one shape:
a stable code, a message, details, and the trace of the request.
-/

namespace VaultGovernance

namespace Http

/-- An answer before it is addressed to a request. -/
inductive Reply where
  /-- A result. -/
  | content (status : Nat) (body : Json)
  /-- A refusal of the domain. -/
  | refused (e : DomainError)
  /-- Input that does not have the declared form. -/
  | invalid (issues : List Issue)
  /-- A failure that HTTP itself has a status for. -/
  | failed (status : Nat) (code message : String) (details : OrderedMap Json)
  /-- A failure that callers learn nothing about. -/
  | internal

/-- An answer to a request. -/
structure Response where
  status : Nat
  /-- The body; null when it is empty. -/
  body : Json
  /-- The trace in the header of the answer. -/
  trace : Option String
deriving DecidableEq

namespace Reply

/-- A failure whose code is its status. -/
def plain (status : Nat) (message : String) : Reply :=
  failed status ("HTTP_" ++ natText status) message []

/-- There is no such endpoint. -/
def nowhere : Reply := plain 404 "Not Found"

/-- The endpoint does not answer to the method. -/
def wrongMethod : Reply := plain 405 "Method Not Allowed"

/-- There is no such setting. -/
def noSetting (key : String) : Reply :=
  failed 404 "SETTING_NOT_FOUND" ("System setting '" ++ key ++ "' not found") [("key", .str key)]

/-- The metrics are closed to the caller. -/
def metricsDenied : Reply :=
  plain 403 ("Access to metrics endpoint denied. Set METRICS_PUBLIC=true or provide valid " ++
    "METRICS_TOKEN.")

/-- The status of an answer. -/
def status : Reply → Nat
  | content status _ => status
  | refused e => e.httpStatus
  | invalid _ => 422
  | failed status .. => status
  | internal => 500

/-- A failure in the common shape. -/
def failureBody (code message : String) (details : OrderedMap Json) (trace : String) : Json :=
  .obj [("error", .obj [("code", .str code), ("message", .str message),
    ("details", .obj details), ("trace_id", .str trace)])]

/-- The body of an answer to a request with a trace. -/
def body (trace : String) : Reply → Json
  | content _ body => body
  | refused e => failureBody e.code e.message e.details trace
  | invalid issues =>
    failureBody "VALIDATION_ERROR" "Request validation failed"
      [("errors", .arr (issues.map (·.toJson)))] trace
  | failed _ code message details => failureBody code message details trace
  | internal => failureBody "INTERNAL_ERROR" "An internal error occurred" [] trace

/-- The answer to a request with a trace.  An internal failure escapes before
the trace is put into the header. -/
def toResponse (trace : String) (r : Reply) : Response where
  status := r.status
  body := r.body trace
  trace :=
    match r with
    | internal => none
    | _ => some trace

end Reply

end Http

end VaultGovernance
