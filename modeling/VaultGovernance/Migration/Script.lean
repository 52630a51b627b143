import VaultGovernance.Migration.Chain
import VaultGovernance.Text.Pieces

/-!
# VaultGovernance.Migration.Script

Scripts that take a database from one position in the chain of revisions to
another, and the accounts of the chain.  A script is a list of blocks: the
statements of one transaction, each step under a comment that names it and
followed by the change of the row that holds the position.
-/

namespace VaultGovernance

namespace Migration

/-! ## The row that holds the position -/

/-- The table of the position. -/
def positionTable : String := "alembic_version"

/-- The column of the position. -/
def positionColumn : String := "version_num"

/-- Creates the table of the position. -/
def createPositionTable : Statement := .createTable positionTable
  [requiredColumn positionColumn (.varchar 32)]
  [.namedPrimaryKey "alembic_version_pkc" positionColumn]

/-- The column behind its table. -/
def qualifiedColumn : String := positionTable ++ "." ++ positionColumn

/-- Changes the row from one revision to another; the base has no row. -/
def moveRow : (source target : Option String) → List Statement
  | none, none => []
  | none, some target =>
    [.sql ["INSERT INTO", positionTable, "(" ++ positionColumn ++ ")", "VALUES",
      "(" ++ constantText target ++ ")", "RETURNING", qualifiedColumn]]
  | some source, some target =>
    [.sql ["UPDATE", positionTable, "SET", positionColumn ++ "=" ++ constantText target,
      "WHERE", qualifiedColumn, "=", constantText source]]
  | some source, none =>
    [.sql ["DELETE FROM", positionTable, "WHERE", qualifiedColumn, "=", constantText source]]

/-! ## Steps -/

/-- One step of a script. -/
structure Step where
  name : String
  source : Option String
  target : Option String
  statements : List Statement

namespace Step

/-- The comment that names a step. -/
def comment (s : Step) : String :=
  let side : Option String → List String := fun id => id.toList
  " ".intercalate (["-- Running", s.name] ++ side s.source ++ ["->"] ++ side s.target)

/-- The blocks of a step. -/
def blocks (s : Step) : List String :=
  s.comment :: ((s.statements ++ moveRow s.source s.target).map (·.text))

end Step

/-- The steps up from one position to another; there are none when it is not
above. -/
def upgradeSteps (low high : Nat) : List Step :=
  (between low high).map fun (p, r) => ⟨"upgrade", idAt p, some r.id, r.upgrade⟩

/-- The steps down from one position to another. -/
def downgradeSteps (high low : Nat) : List Step :=
  (between low high).reverse.map fun (p, r) => ⟨"downgrade", some r.id, idAt p, r.downgrade⟩

/-- The step that only notes another position. -/
def stampSteps (source target : Nat) : List Step :=
  if source = target then [] else [⟨"stamp_revision", idAt source, idAt target, []⟩]

/-- The script of some steps.  From the base on the table of the position is
created first. -/
def script (source : Nat) (steps : List Step) : List String :=
  let table := if source = 0 ∧ !steps.isEmpty then [createPositionTable.text] else []
  "BEGIN;" :: (table ++ steps.flatMap (·.blocks) ++ ["COMMIT;"])

/-! ## Commands -/

/-- What stands before and after the colon of a range; without a colon there is
only an end. -/
def splitRange (range : String) : Option String × String :=
  match splitAtChar ':' range.toList with
  | (_, none) => (none, range)
  | (start, some rest) => (some (String.ofList start), String.ofList rest)

/-- The position that a name denotes, or another one for the empty name. -/
def positionOr (default : Nat) (name : String) : Except Fault Nat :=
  if name = "" then .ok default else position name

/-- The script that goes up to a position, from the base unless the range says
otherwise. -/
def upgrade (range : String) : Except Fault (List String) := do
  let (start, stop) := splitRange range
  let source ← position (start.getD "base")
  let target ← position stop
  return script source (upgradeSteps source target)

/-- The script that goes down to a position.  The range must say where it
starts, and not below its end. -/
def downgrade (range : String) : Except Fault (List String) :=
  match splitRange range with
  | (none, _) => .error .badCommand
  | (some start, stop) => do
    let source ← position start
    let target ← position stop
    if source < target then .error .badCommand
    else return script source (downgradeSteps source target)

/-- The script that only notes a position. -/
def stamp (range : String) : Except Fault (List String) := do
  let (start, stop) := splitRange range
  let source ← position (start.getD "base")
  let target ← position stop
  return script source (stampSteps source target)

/-- What marks the last revision. -/
def headMark (position : Nat) : String := if position = head then " (head)" else ""

/-- The line of a revision whose position before it is given. -/
def historyLine (before : Nat) (r : Revision) : String :=
  (idAt before).getD "<base>" ++ " -> " ++ r.id ++ headMark (before + 1) ++ ", " ++ r.title

/-- The revisions of a range, the latest one first, its start included. -/
def history (range : Option String) : Except Fault (List String) := do
  let (start, stop) ←
    match range with
    | none => Except.ok ("", "")
    | some range =>
      match splitRange range with
      | (none, _) => .error .badCommand
      | (some start, stop) => .ok (start, stop)
  let low ← positionOr 0 start
  let high ← positionOr head stop
  if high < low then .error .badCommand
  else return ((between (low - 1) high).map fun (p, r) => historyLine p r).reverse

/-- The last revisions. -/
def heads : List String :=
  (idAt head).toList.map (· ++ headMark head)

/-- The revisions that were applied to an empty database. -/
def current : List String := (idAt 0).toList

end Migration

end VaultGovernance
