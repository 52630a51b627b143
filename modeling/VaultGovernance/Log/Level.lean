/-!
# VaultGovernance.Log.Level

How serious a log entry is, and how the log is set up.  Setting it up again
replaces the earlier setup, so there is one handler however often it is done
(`jsonHandlers_setUp`).
-/

namespace VaultGovernance

/-- How serious a log entry is. -/
inductive LogLevel where
  | unset
  | debug
  | info
  | warning
  | error
  | critical
deriving DecidableEq

namespace LogLevel

/-- The name of a level. -/
def text : LogLevel → String
  | unset => "NOTSET"
  | debug => "DEBUG"
  | info => "INFO"
  | warning => "WARNING"
  | error => "ERROR"
  | critical => "CRITICAL"

/-- The names by which levels can be asked for. -/
def names : List (String × LogLevel) :=
  [("NOTSET", unset), ("DEBUG", debug), ("INFO", info), ("WARN", warning), ("WARNING", warning),
    ("ERROR", error), ("CRITICAL", critical), ("FATAL", critical)]

/-- A letter of a name in upper case.  Besides the ASCII letters, two more
letters have an ASCII one as their upper case: the dotless i and the long s. -/
def upperLetter (c : Char) : Char :=
  if c = 'ı' then 'I' else if c = 'ſ' then 'S' else c.toUpper

/-- The level with a name in any letter case; a name that is none is the level
of information. -/
def ofName (name : String) : LogLevel :=
  let upper := String.ofList (name.toList.map upperLetter)
  match names.find? fun n => n.1 = upper with
  | some n => n.2
  | none => info

end LogLevel

/-- How a handler writes entries. -/
inductive LogFormat where
  | json
  | other
deriving DecidableEq

/-- How the log is set up. -/
structure LogSetup where
  level : LogLevel
  handlers : List LogFormat

namespace LogSetup

/-- The handlers that write JSON. -/
def jsonHandlers (s : LogSetup) : List LogFormat := s.handlers.filter (· = .json)

/-- Sets the log up for a level: one JSON handler takes the place of all that
there were. -/
def setUp (s : LogSetup) (level : LogLevel) : LogSetup :=
  ⟨level, s.handlers.filter (· ≠ .json) ++ [.json]⟩

/-- There is one JSON handler after setting up. -/
theorem jsonHandlers_setUp (s : LogSetup) (level : LogLevel) :
    (s.setUp level).jsonHandlers = [.json] := by
  have h : (s.handlers.filter (· ≠ .json)).filter (· = .json) = [] := by
    rw [List.filter_filter, List.filter_eq_nil_iff]
    intro f _
    simp
  rw [jsonHandlers, setUp, List.filter_append, h]
  rfl

/-- The setups after setting up for some levels in turn. -/
def setUpAll (s : LogSetup) : List LogLevel → List LogSetup
  | [] => []
  | level :: levels => s.setUp level :: (s.setUp level).setUpAll levels

end LogSetup

end VaultGovernance
