import VaultGovernance.Snapshot.Basic
import VaultGovernance.Store.Basic

/-!
# VaultGovernance.Store.Describe

One-line descriptions of rows, for people who look at the store.
-/

namespace VaultGovernance

namespace Describe

/-- A member of a closed set, by the set's name and its own in capitals. -/
def member {α : Type} [Choice α] (a : α) : String :=
  Choice.name α ++ "." ++ (Choice.text a).toUpper

/-- A description of a row from its named parts. -/
def row (kind : String) (parts : List (String × String)) : String :=
  "<" ++ kind ++ "(" ++ DomainError.commaList (parts.map fun p => p.1 ++ "=" ++ p.2) ++ ")>"

/-- The word for nothing. -/
def nothing : String := "None"

/-- The description of a vault. -/
def vault (v : Vault) : String :=
  row "Vault" [("id", v.id.text), ("name", v.name), ("stage", member v.stage)]

/-- The description of an asset. -/
def asset (a : Asset) : String :=
  let origin := match a.origin with
    | some o => member o
    | none => nothing
  row "Asset" [("id", a.id.text), ("vault_id", a.vaultId.text), ("status", member a.status),
    ("origin_type", origin)]

/-- The description of a snapshot. -/
def snapshot (x : Snapshot) : String :=
  row "Snapshot" [("id", x.id.text), ("vault_id", x.vaultId.text),
    ("addresses", natText x.balances.entries.length)]

/-- The description of a proposal. -/
def proposal (p : Proposal) : String :=
  row "Proposal" [("id", p.id.text), ("type", member p.type), ("status", member p.status)]

/-- The description of an option. -/
def voteOption (o : VoteOption) : String :=
  row "VoteOption" [("id", o.id.text), ("label", o.label), ("order", intText o.order)]

/-- The description of a vote. -/
def vote (v : Vote) : String :=
  row "Vote" [("id", v.id.text), ("proposal_id", v.proposalId.text), ("voter_id", v.voterId),
    ("option", v.optionId)]

/-- The description of a claim. -/
def claim (c : Claim) : String :=
  let amount := match c.lovelaceAmount with
    | some n => intText n
    | none => nothing
  row "Claim" [("id", c.id.text), ("type", member c.kind), ("status", member c.status),
    ("lovelace_amount", amount)]

/-- The description of the settings row. -/
def settings (r : SettingsRow) : String :=
  let keys := Json.arr ((sortTexts r.data.entries.keys).map .str)
  row "SystemSettings" [("id", Settings.rowId.text), ("keys", keys.literal)]

end Describe

end VaultGovernance
