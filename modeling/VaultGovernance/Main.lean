import VaultGovernance.CommandLine.Commands
import VaultGovernance.Session

/-!
# VaultGovernance.Main

The command line: a command and its arguments, carried out on an empty store.
-/

namespace VaultGovernance

namespace CommandLine

/-- The commands by name. -/
def command? : List String → Option (Action Outcome)
  | "normalize-claims" :: words => some (normalizeClaims words)
  | ["seed-system-settings"] => some seedSettings
  | _ => none

/-- Carries a command out; what it leaves behind is nothing when it fails. -/
def perform (words : List String) : Option Outcome := do
  let act ← command? words
  ((Session.start {}).perform act).1.toOption

end CommandLine

end VaultGovernance

/-- Writes the output of a command and ends with its exit code. -/
def main (args : List String) : IO UInt32 := do
  match VaultGovernance.CommandLine.perform args with
  | some outcome =>
    IO.print outcome.output
    return outcome.exitCode.toUInt32
  | none => return 2
