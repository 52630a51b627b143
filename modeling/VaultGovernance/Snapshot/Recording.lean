import VaultGovernance.Snapshot.Basic
import VaultGovernance.Vault.Lifecycle

/-!
# VaultGovernance.Snapshot.Recording

Recording and finding snapshots.  Only a vault in governance has them.
-/

namespace VaultGovernance

namespace Snapshot

open VaultGovernance.Action

/-- The table of snapshots. -/
def table : String := "snapshot"

/-- The vault with an identifier, if it is in governance. -/
def governedVault (vaultId : Uuid) (reason : String) : Action Vault := do
  let vault ← Vault.find vaultId
  if vault.stage = .locked then done vault
  else
    Vault.refuseStage vault .locked (some reason) []

/-- Records the balances of a vault's token. -/
def create (vaultId : Uuid) (assetId : Option String) (balances : OrderedMap Json) :
    Action Snapshot := do
  let vault ← governedVault vaultId "snapshots require a vault in governance"
  let texts ← ofExcept (normalizeBalances balances)
  let assetId ← ofExcept (Column.required table "asset_id" assetId)
  let snapshot : Snapshot := {
    id := (← store).nextId
    vaultId := vault.id
    assetId
    balances := balanceDocument texts
    createdAt := ← now }
  modify fun s => s.addSnapshot snapshot
  done snapshot

/-- The later of two snapshots; of two from one moment the second. -/
def laterOf (best : Option Snapshot) (x : Snapshot) : Option Snapshot :=
  match best with
  | some b => if b.createdAt.le x.createdAt then some x else some b
  | none => some x

/-- The latest of some snapshots. -/
def latestOf (snapshots : List Snapshot) : Option Snapshot :=
  snapshots.foldl laterOf none

/-- The latest snapshot of a vault. -/
def latest (vaultId : Uuid) : Action (Option Snapshot) := do
  done (latestOf ((← store).snapshotsOf vaultId))

/-- The snapshots of a vault, newest first. -/
def list (vaultId : Uuid) : Action (List Snapshot) := do
  let _ ← Vault.find vaultId
  done (((← store).snapshotsOf vaultId).reverse.mergeSort fun a b => b.createdAt.le a.createdAt)

end Snapshot

end VaultGovernance
