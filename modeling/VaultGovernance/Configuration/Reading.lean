import VaultGovernance.Configuration.Basic
import VaultGovernance.Form.Field
import VaultGovernance.Json.Reader
import VaultGovernance.Text.Pieces

/-!
# VaultGovernance.Configuration.Reading

Reading the configuration.  Values are given directly or by environment
variables; a value given directly wins, names of environment variables count in
any letter case, and names that mean nothing are passed over.  Every value is
checked, and one bad value refuses the whole configuration.
-/

namespace VaultGovernance

namespace Configuration

/-! ## Lists -/

/-- The entries of a text between commas, without blanks around them; empty
ones do not count. -/
def commaEntries (s : String) : List String :=
  ((pieces ',' s.toList).map fun piece => String.ofList (trimBoth isBlank piece)).filter (· ≠ "")

/-- A list of texts: a list, or a text with commas.  A value of any other kind
is the empty list. -/
def texts : Form.Check (List String) := fun p j =>
  match j with
  | .str s => .valid (commaEntries s)
  | .arr _ => Form.list (Form.checking Form.text) p j
  | _ => .valid []

/-! ## Sources -/

/-- The names of the values that are lists. -/
def listNames : List String := ["CORS_ALLOW_ORIGINS", "CORS_ALLOW_METHODS", "CORS_ALLOW_HEADERS"]

/-- What an environment variable says: a list may be written as JSON, and null
says nothing; any other value is its text. -/
def ofVariable (name text : String) : Option Json :=
  if listNames.contains name then
    match Json.read text with
    | .ok .null => none
    | .ok j => some j
    | .error _ => some (.str text)
  else some (.str text)

/-- The lower-case form of an ASCII name. -/
def lowerName (s : String) : String := String.ofList (Decimal.lowerAscii s.toList)

/-- What the sources say about a name. -/
def given (values : OrderedMap Json) (environment : OrderedMap String) (name : String) :
    Option Json :=
  match values.get? name with
  | some j => some j
  | none =>
    let lowered := OrderedMap.ofEntries (environment.map fun v => (lowerName v.1, v.2))
    (lowered.get? (lowerName name)).bind (ofVariable name)

/-! ## Reading -/

/-- The configuration that values and the variables of the environment give, where
`base` has the defaults. -/
def check (base : Configuration) (values : OrderedMap Json) (environment : OrderedMap String) :
    Checked Configuration :=
  let field {α : Type} (name : String) (default : α) (check : Form.Check α) : Checked α :=
    match given values environment name with
    | some j => check [.key name] j
    | none => .valid default
  let text := Form.checking Form.text
  let truth := Form.checking Form.truth
  let number := Form.checking Form.number
  Configuration.mk
    <$> field "ENV" base.environment text
    <*> field "LOG_LEVEL" base.logLevel text
    <*> field "DATABASE_URL" base.databaseUrl text
    <*> field "API_V1_PREFIX" base.apiPath text
    <*> field "ADMIN_V1_PREFIX" base.adminPath text
    <*> field "METRICS_PUBLIC" base.metricsPublic truth
    <*> field "METRICS_TOKEN" base.metricsToken text
    <*> field "DEFAULT_EXECUTION_THRESHOLD" base.executionThreshold number
    <*> field "DEFAULT_PARTICIPATION_THRESHOLD" base.participationThreshold number
    <*> field "CORS_ENABLED" base.allowsOrigins truth
    <*> field "CORS_ALLOW_ORIGINS" base.allowedOrigins texts
    <*> field "CORS_ALLOW_METHODS" base.allowedMethods texts
    <*> field "CORS_ALLOW_HEADERS" base.allowedHeaders texts
    <*> field "CORS_ALLOW_CREDENTIALS" base.allowCredentials truth

/-- The configuration, or the fault that some value is bad. -/
def read (base : Configuration) (values : OrderedMap Json) (environment : OrderedMap String) :
    Except Fault Configuration :=
  match check base values environment with
  | .valid c => .ok c
  | .invalid _ => .error .invalidConfiguration

/-- A running configuration after another one was read: access to the metrics
and the thresholds follow it, the rest stays until the next start. -/
def reloaded (running fresh : Configuration) : Configuration :=
  { running with
    metricsPublic := fresh.metricsPublic
    metricsToken := fresh.metricsToken
    executionThreshold := fresh.executionThreshold
    participationThreshold := fresh.participationThreshold }

end Configuration

end VaultGovernance
