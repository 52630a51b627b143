import VaultGovernance.Choice
import VaultGovernance.Number.Decimal

/-!
# VaultGovernance.Asset.Basic

Assets held by a vault.  An asset is pending until the vault locks it, and
leaves the locked status once: returned to its owner or paid out.  Each status
but the first has a time stamp, written when the status is entered.
-/

namespace VaultGovernance

/-- Where an asset stands. -/
inductive AssetStatus where
  /-- Recorded and not yet locked. -/
  | pending
  | locked
  /-- Returned to its owner. -/
  | released
  /-- Paid out by an executed distribution. -/
  | distributed
deriving DecidableEq, Inhabited

namespace AssetStatus

instance : Choice AssetStatus where
  name := "AssetStatus"
  all := [pending, locked, released, distributed]
  text
    | pending => "pending"
    | locked => "locked"
    | released => "released"
    | distributed => "distributed"

/-- The statuses that may follow a status. -/
def next : AssetStatus → List AssetStatus
  | pending => [locked]
  | locked => [released, distributed]
  | released => []
  | distributed => []

end AssetStatus

/-- How an asset entered its vault. -/
inductive AssetOrigin where
  | invested
  | contributed
deriving DecidableEq, Inhabited

instance : Choice AssetOrigin where
  name := "AssetOriginType"
  all := [.invested, .contributed]
  text
    | .invested => "invested"
    | .contributed => "contributed"

/-- What kind of asset it is. -/
inductive AssetKind where
  | nft
  | ft
  | ada
deriving DecidableEq, Inhabited

instance : Choice AssetKind where
  name := "AssetType"
  all := [.nft, .ft, .ada]
  text
    | .nft => "nft"
    | .ft => "ft"
    | .ada => "ada"

/-- An asset position. -/
structure Asset where
  id : Uuid
  vaultId : Uuid
  policyId : String
  /-- The asset's name under its policy. -/
  assetName : String
  kind : AssetKind
  quantity : Decimal
  status : AssetStatus
  origin : Option AssetOrigin
  lockedAt : Option Timestamp
  releasedAt : Option Timestamp
  distributedAt : Option Timestamp
  addedBy : Option String
  metadata : Json
  createdAt : Timestamp
  updatedAt : Option Timestamp
deriving DecidableEq, Inhabited

namespace Asset

/-- The asset with the time stamp of a status written. -/
def stamped (a : Asset) (target : AssetStatus) (now : Timestamp) : Asset :=
  match target with
  | .pending => a
  | .locked => { a with lockedAt := some now }
  | .released => { a with releasedAt := some now }
  | .distributed => { a with distributedAt := some now }

/-- The asset after it entered a status. -/
def moved (a : Asset) (target : AssetStatus) (now : Timestamp) : Asset :=
  { a.stamped target now with status := target, updatedAt := some now }

@[simp] theorem status_moved (a : Asset) (target : AssetStatus) (now : Timestamp) :
    (a.moved target now).status = target := rfl

@[simp] theorem id_moved (a : Asset) (target : AssetStatus) (now : Timestamp) :
    (a.moved target now).id = a.id := by
  cases target <;> rfl

@[simp] theorem vaultId_moved (a : Asset) (target : AssetStatus) (now : Timestamp) :
    (a.moved target now).vaultId = a.vaultId := by
  cases target <;> rfl

end Asset

end VaultGovernance
