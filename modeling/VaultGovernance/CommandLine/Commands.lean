import VaultGovernance.Claim.Normalization
import VaultGovernance.CommandLine.Arguments
import VaultGovernance.Settings.Document

/-!
# VaultGovernance.CommandLine.Commands

The commands for operators: normalizing legacy claims, and seeding the settings
document.  A command writes a report and ends with an exit code.
-/

namespace VaultGovernance

namespace CommandLine

open VaultGovernance.Action

/-- What a command leaves behind. -/
structure Outcome where
  exitCode : Nat
  output : String
deriving DecidableEq

/-- Lines as text. -/
def unlines (lines : List String) : String := String.join (lines.map (· ++ "\n"))

/-! ## Normalizing claims -/

/-- The line between the parts of a report. -/
def rule : String := String.ofList (List.replicate 80 '=')

/-- The report before the work. -/
def heading (args : Arguments) : List String :=
  [rule, "Claims Normalization", rule] ++
    (if args.dryRun then ["DRY RUN MODE - No changes will be committed"] else []) ++
    (match args.limit with
      | some n => ["Limit: " ++ intText n]
      | none => []) ++
    [rule]

/-- The report after the work. -/
def summary (s : Claim.BackfillStats) : List String :=
  [rule, "Normalization Summary", rule,
    "Normalized: " ++ natText s.normalizedCount,
    "Skipped (already normalized): " ++ natText s.skippedCount,
    "Errors: " ++ natText s.errors.length] ++
    (if s.errors.isEmpty then []
      else "" :: "Errors:" :: s.errors.map fun e => "  - " ++ e.toJson.literal) ++
    [rule]

/-- The help for the command. -/
def help : List String :=
  ["usage: normalize_claims.py [-h] [--dry-run] [--limit LIMIT]",
    "",
    "Normalize legacy claim metadata amounts into columns",
    "",
    "options:",
    "  -h, --help     show this help message and exit",
    "  --dry-run      Simulate without committing to database",
    "  --limit LIMIT  Limit number of claims to normalize"]

/-- Normalizes claims as the arguments ask for. -/
def normalize (args : Arguments) : Action Outcome := do
  let stats ← Claim.runBackfill args.limit args.dryRun
  return ⟨if stats.errors.isEmpty then 0 else 1, unlines (heading args ++ summary stats)⟩

/-- The command that normalizes claims.  A limit must be positive. -/
def normalizeClaims (words : List String) : Action Outcome :=
  match parse words with
  | .help => done ⟨0, unlines help⟩
  | .misused => done ⟨2, ""⟩
  | .run args =>
    match args.limit with
    | some n =>
      if n ≤ 0 then done ⟨1, unlines ["ERROR: --limit must be positive: " ++ intText n]⟩
      else normalize args
    | none => normalize args

/-! ## Seeding the settings -/

/-- The lines for the keys that were added, in the order of the keys. -/
def addedLines (added : OrderedMap Json) : List String :=
  if added.isEmpty then ["  ✓ All default keys present"]
  else (sortTexts added.keys).map fun key =>
    "  ✓ Added " ++ key ++ "=" ++ ((added.get? key).getD .null).display

/-- The command that seeds the settings document. -/
def seedSettings : Action Outcome := do
  let added ← transaction Settings.seed
  return ⟨0, unlines (["Seeding system settings..."] ++ addedLines added ++
    ["", "✅ System settings seeded successfully"])⟩

end CommandLine

end VaultGovernance
