import VaultGovernance.Log.Level
import VaultGovernance.Log.Template

/-!
# VaultGovernance.Log.Entry

Log entries as objects: the time, the level, the logger and the message, the
trace, an exception, and whatever else was attached.  An attachment with the
name of an attribute that a record always has takes its place and is not shown
under its own name.
-/

namespace VaultGovernance

/-! ## Exceptions -/

/-- An exception that a record carries. -/
inductive LoggedException where
  /-- A refusal of the domain. -/
  | refusal (e : DomainError)
  /-- Any other one, by its kind and what it was made with. -/
  | other (kind : String) (args : List Json)

namespace DomainError

/-- The name of the kind of a refusal. -/
def kindName : DomainError → String
  | general .. => "DomainError"
  | notFound .. => "EntityNotFound"
  | invalidTransition .. => "InvalidTransition"
  | immutableField .. => "ImmutableField"
  | invalidPayload .. => "InvalidPayloadForType"
  | unknownVoteOption .. => "UnknownVoteOption"
  | invalidVoteValue .. => "InvalidVoteValue"
  | duplicateVote .. => "DuplicateVote"
  | proposalNotActive .. => "ProposalNotActive"
  | snapshotRequired .. => "SnapshotRequired"
  | noVotingPower .. => "NoVotingPower"
  | invalidClaimAmount .. => "InvalidClaimAmount"
  | constraintViolation .. => "ConstraintViolation"

end DomainError

namespace LoggedException

/-- What stands in front of the kind of a refusal. -/
def refusalScope : String := "vaultdao.core.common.errors."

/-- The kind of an exception. -/
def kind : LoggedException → String
  | refusal e => refusalScope ++ e.kindName
  | other kind _ => kind

/-- What an exception says: a missing key is quoted, a single value stands for
itself, and several are listed. -/
def message : LoggedException → String
  | refusal e => e.message
  | other _ [] => ""
  | other "KeyError" [a] => a.literal
  | other _ [a] => a.display
  | other _ args => "(" ++ Json.literalItems args ++ ")"

/-- The line of an exception. -/
def line (e : LoggedException) : String :=
  if e.message = "" then e.kind else e.kind ++ ": " ++ e.message

end LoggedException

/-! ## Records -/

/-- What is to be logged. -/
structure LogRecord where
  logger : String
  level : LogLevel
  message : String
  args : List Json
  /-- What else was attached. -/
  extra : OrderedMap Json
  exception : Option LoggedException

namespace LogRecord

/-- The attributes that are not shown under their own names. -/
def reserved : List String :=
  ["name", "msg", "args", "created", "filename", "funcName", "levelname", "levelno", "lineno",
    "module", "msecs", "message", "pathname", "process", "processName", "relativeCreated",
    "thread", "threadName", "taskName", "exc_info", "exc_text", "stack_info", "trace_id"]

/-- An attribute that an attachment may have replaced. -/
def shown (r : LogRecord) (name : String) (own : Json) : Json :=
  (r.extra.get? name).getD own

/-- The arguments of the message, if there are any: a single object with
entries is asked for them by name. -/
def arguments (r : LogRecord) : Option Template.Arguments :=
  match r.extra.get? "args" with
  | some j => if j.isTruthy then some (.one j) else none
  | none =>
    match r.args with
    | [] => none
    | [.obj (e :: es)] => some (.one (.obj (e :: es)))
    | args => some (.several args)

/-- The message with its arguments. -/
def text (r : LogRecord) : Except Fault String :=
  let template := (r.shown "msg" (.str r.message)).display
  match r.arguments with
  | none => .ok template
  | some args => Template.fill template args

/-- The trace: that of the context unless it is empty, else the attached
one. -/
def trace (r : LogRecord) (context : Option String) : OrderedMap Json :=
  match context with
  | some t => if t = "" then attached else [("trace_id", .str t)]
  | none => attached
where
  /-- The attached trace. -/
  attached : OrderedMap Json :=
    match r.extra.get? "trace_id" with
    | some j => [("trace_id", j)]
    | none => []

/-- The exception, as it is shown. -/
def exceptionEntry (r : LogRecord) : Except Fault (OrderedMap Json) :=
  match r.extra.get? "exc_info" with
  | some j => if j.isTruthy then .error .wrongType else .ok []
  | none => .ok (r.exception.toList.map fun e => ("exception", .str e.line))

/-- The entry of a record at a time, in the context of a trace. -/
def entry (r : LogRecord) (now : Timestamp) (context : Option String) :
    Except Fault (OrderedMap Json) := do
  let message ← r.text
  let exception ← r.exceptionEntry
  let own : OrderedMap Json := [
    ("timestamp", .str now.utcText),
    ("level", r.shown "levelname" (.str r.level.text)),
    ("logger", r.shown "name" (.str r.logger)),
    ("message", .str message)]
  return (own ++ r.trace context ++ exception).merge
    (r.extra.filter fun e => !reserved.contains e.1)

end LogRecord

end VaultGovernance
