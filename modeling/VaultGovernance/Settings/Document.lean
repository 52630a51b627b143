import VaultGovernance.Action
import VaultGovernance.Json.Coerce
import VaultGovernance.Store.Column

/-!
# VaultGovernance.Settings.Document

Reading and writing the settings document key by key.  The first write creates
the row with the defaults; the document is never replaced as a whole.
-/

namespace VaultGovernance

namespace Settings

open VaultGovernance.Action

/-- The stored document; nothing before the first write. -/
def stored : Action (OrderedMap Json) := do
  match (← store).settings with
  | some row => done row.data.entries
  | none => done []

/-- The settings row, created with the defaults if there is none. -/
def ensure : Action SettingsRow := do
  match (← store).settings with
  | some row => done row
  | none =>
    let row : SettingsRow := ⟨.obj defaults, ← now, none⟩
    modify fun s => s.putSettings row
    done row

/-- The value of a key, or the default the caller gives. -/
def get (key : String) (default : Json) : Action Json := do
  done (((← stored).get? key).getD default)

/-- Every key that has a default, with its stored value or the default. -/
def getAll : Action (OrderedMap Json) := do
  let document ← stored
  done (defaults.map fun e => (e.1, (document.get? e.1).getD e.2))

/-- Writes a document into a row; a document equal to the kept one leaves the
row as it is. -/
def overwrite (row : SettingsRow) (document : OrderedMap Json) : Action Unit := do
  if Json.same row.data (.obj document) then done ()
  else
    let time ← now
    modify fun s => s.putSettings { row with data := .obj document, updatedAt := some time }

/-- Merges values into the document, and answers with the merged document.  The document is
kept as a text, so each value must have one; those in it already do. -/
def update (values : OrderedMap Json) : Action (OrderedMap Json) := do
  let row ← ensure
  let merged := row.data.entries.merge values
  if values.all fun e => e.2.canShow then
    overwrite row merged
    done merged
  else fail .unstorable

/-- Writes one key. -/
def set (key : String) (value : Json) : Action (OrderedMap Json) :=
  update [(key, value)]

/-- Removes a key, and answers whether it was there. -/
def delete (key : String) : Action Bool := do
  match (← store).settings with
  | none => done false
  | some row =>
    if row.data.hasField key then
      overwrite row (row.data.entries.remove key)
      done true
    else done false

/-- The fee for a proposal of a type. -/
def proposalFee (type : ProposalType) : Action Int := do
  ofExcept (← get (proposalFeeKey type) (.int (defaultProposalFee type))).toInteger

/-- The fee for a vote. -/
def votingFee : Action Int := do
  ofExcept (← get votingFeeKey (.int defaultVotingFee)).toInteger

/-- Creates the row if needed and adds the default keys it lacks, and answers
with the added ones. -/
def seed : Action (OrderedMap Json) := do
  let row ← ensure
  let missing := defaults.filter fun e => !row.data.hasField e.1
  if missing.isEmpty then done []
  else
    let _ ← update missing
    done missing

end Settings

end VaultGovernance
