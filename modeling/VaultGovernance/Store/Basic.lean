import VaultGovernance.Asset.Basic
import VaultGovernance.Claim.Basic
import VaultGovernance.Settings.Basic
import VaultGovernance.Snapshot.Basic
import VaultGovernance.Vault.Basic
import VaultGovernance.Vote.Basic

/-!
# VaultGovernance.Store.Basic

The store: the rows of each table in the order in which they were inserted, and
the number of rows inserted so far, from which identifiers are drawn.  Foreign
keys are not enforced.
-/

namespace VaultGovernance

/-- Everything that is kept. -/
structure Store where
  vaults : List Vault := []
  assets : List Asset := []
  snapshots : List Snapshot := []
  proposals : List Proposal := []
  votes : List Vote := []
  claims : List Claim := []
  settings : Option SettingsRow := none
  /-- How many rows have been inserted. -/
  serial : Nat := 0
deriving DecidableEq, Inhabited

namespace Store

/-- The store without rows. -/
def empty : Store := {}

/-! ## Looking up -/

/-- The vault with an identifier. -/
def vault? (s : Store) (id : Uuid) : Option Vault := s.vaults.find? fun v => v.id = id

/-- The asset with an identifier. -/
def asset? (s : Store) (id : Uuid) : Option Asset := s.assets.find? fun a => a.id = id

/-- The snapshot with an identifier. -/
def snapshot? (s : Store) (id : Uuid) : Option Snapshot := s.snapshots.find? fun x => x.id = id

/-- The proposal with an identifier. -/
def proposal? (s : Store) (id : Uuid) : Option Proposal := s.proposals.find? fun p => p.id = id

/-- The claim with an identifier. -/
def claim? (s : Store) (id : Uuid) : Option Claim := s.claims.find? fun c => c.id = id

/-- The snapshot a proposal is bound to. -/
def snapshotOf? (s : Store) (p : Proposal) : Option Snapshot := p.snapshotId.bind s.snapshot?

/-- The votes on a proposal. -/
def votesOn (s : Store) (proposalId : Uuid) : List Vote :=
  s.votes.filter fun v => v.proposalId = proposalId

/-- The assets of a vault. -/
def assetsOf (s : Store) (vaultId : Uuid) : List Asset :=
  s.assets.filter fun a => a.vaultId = vaultId

/-- The snapshots of a vault. -/
def snapshotsOf (s : Store) (vaultId : Uuid) : List Snapshot :=
  s.snapshots.filter fun x => x.vaultId = vaultId

/-! ## Writing -/

/-- Replaces the vault with the same identifier. -/
def putVault (s : Store) (v : Vault) : Store :=
  { s with vaults := s.vaults.map fun r => if r.id = v.id then v else r }

/-- Replaces the asset with the same identifier. -/
def putAsset (s : Store) (a : Asset) : Store :=
  { s with assets := s.assets.map fun r => if r.id = a.id then a else r }

/-- Replaces the snapshot with the same identifier. -/
def putSnapshot (s : Store) (x : Snapshot) : Store :=
  { s with snapshots := s.snapshots.map fun r => if r.id = x.id then x else r }

/-- Replaces the proposal with the same identifier. -/
def putProposal (s : Store) (p : Proposal) : Store :=
  { s with proposals := s.proposals.map fun r => if r.id = p.id then p else r }

/-- Replaces the claim with the same identifier. -/
def putClaim (s : Store) (c : Claim) : Store :=
  { s with claims := s.claims.map fun r => if r.id = c.id then c else r }

/-- Writes the settings row. -/
def putSettings (s : Store) (row : SettingsRow) : Store := { s with settings := some row }

/-- The identifier of the next row. -/
def nextId (s : Store) : Uuid := Uuid.ofSerial (s.serial + 1)

/-- Adds a vault as the next row. -/
def addVault (s : Store) (v : Vault) : Store :=
  { s with vaults := s.vaults ++ [v], serial := s.serial + 1 }

/-- Adds an asset as the next row. -/
def addAsset (s : Store) (a : Asset) : Store :=
  { s with assets := s.assets ++ [a], serial := s.serial + 1 }

/-- Adds a snapshot as the next row. -/
def addSnapshot (s : Store) (x : Snapshot) : Store :=
  { s with snapshots := s.snapshots ++ [x], serial := s.serial + 1 }

/-- Adds a proposal as the next row, and its options as the rows after it. -/
def addProposal (s : Store) (p : Proposal) : Store :=
  { s with proposals := s.proposals ++ [p], serial := s.serial + 1 + p.options.length }

/-- Adds a vote as the next row. -/
def addVote (s : Store) (v : Vote) : Store :=
  { s with votes := s.votes ++ [v], serial := s.serial + 1 }

/-- Adds a claim as the next row. -/
def addClaim (s : Store) (c : Claim) : Store :=
  { s with claims := s.claims ++ [c], serial := s.serial + 1 }

end Store

end VaultGovernance
