import VaultGovernance.Error
import VaultGovernance.Migration.ClaimColumns
import VaultGovernance.Migration.DistributedStatus
import VaultGovernance.Migration.GovernanceTables
import VaultGovernance.Migration.SettingsTable
import VaultGovernance.Migration.SnapshotTable

/-!
# VaultGovernance.Migration.Chain

All revisions in order.  A position in the chain is the number of revisions
that have been applied: zero is the base, and the length of the chain is the
head.
-/

namespace VaultGovernance

namespace Migration

/-- The revisions from the first to the last. -/
def chain : List Revision :=
  [GovernanceTables.revision, DistributedStatus.revision, ClaimColumns.revision,
    SettingsTable.revision, SnapshotTable.revision]

/-- The last position. -/
def head : Nat := chain.length

/-- The identifier of the revision at a position; the base has none. -/
def idAt : (position : Nat) → Option String
  | 0 => none
  | position + 1 => (chain[position]?).map (·.id)

/-- The position of a revision, found by its identifier. -/
def positionOf? (id : String) : Option Nat :=
  (chain.findIdx? fun r => r.id = id).map (· + 1)

/-- The position that a name denotes. -/
def position (name : String) : Except Fault Nat :=
  if name = "base" then .ok 0
  else if name = "head" ∨ name = "heads" then .ok head
  else
    match positionOf? name with
    | some p => .ok p
    | none => .error .badCommand

/-- The revisions from one position up to another, with their positions before
they are applied. -/
def between (low high : Nat) : List (Nat × Revision) :=
  (((List.range head).zip chain).take high).drop low

end Migration

end VaultGovernance
