import VaultGovernance.Choice
import VaultGovernance.Number.Decimal

/-!
# VaultGovernance.Claim.Basic

Claims: amounts owed to the participants of a vault.
-/

namespace VaultGovernance

/-- Why a claim exists. -/
inductive ClaimKind where
  | lp
  | contributor
  | acquirer
  | l4va
  | finalDistribution
  | cancellation
  | distribution
  | termination
  | expansion
deriving DecidableEq, Inhabited

instance : Choice ClaimKind where
  name := "ClaimType"
  all := [.lp, .contributor, .acquirer, .l4va, .finalDistribution, .cancellation, .distribution,
    .termination, .expansion]
  text
    | .lp => "lp"
    | .contributor => "contributor"
    | .acquirer => "acquirer"
    | .l4va => "l4va"
    | .finalDistribution => "final_distribution"
    | .cancellation => "cancellation"
    | .distribution => "distribution"
    | .termination => "termination"
    | .expansion => "expansion"

/-- Where a claim stands. -/
inductive ClaimStatus where
  | available
  | pending
  | claimed
  | failed
deriving DecidableEq, Inhabited

instance : Choice ClaimStatus where
  name := "ClaimStatus"
  all := [.available, .pending, .claimed, .failed]
  text
    | .available => "available"
    | .pending => "pending"
    | .claimed => "claimed"
    | .failed => "failed"

/-- A claim. -/
structure Claim where
  id : Uuid
  userId : Option String
  vaultId : Option Uuid
  kind : ClaimKind
  status : ClaimStatus
  /-- The amount in vault tokens. -/
  amount : Int
  lovelaceAmount : Option Int
  multiplier : Option Decimal
  description : Option String
  metadata : Json
  createdAt : Timestamp
  updatedAt : Option Timestamp
deriving DecidableEq, Inhabited

end VaultGovernance
