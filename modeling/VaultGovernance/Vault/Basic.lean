import VaultGovernance.Choice
import VaultGovernance.Number.Decimal

/-!
# VaultGovernance.Vault.Basic

Vaults and their lifecycle.  A vault moves forward through its stages along
the edges of `VaultStage.next`; two stages can only be entered once the
configuration they need has been recorded.
-/

namespace VaultGovernance

/-- The stages of a vault's life. -/
inductive VaultStage where
  | draft
  | published
  | contribution
  | acquire
  /-- The stage in which the vault is governed by proposals and votes. -/
  | locked
  | terminating
  | terminated
  /-- The stage of a vault that did not reach its thresholds. -/
  | failed
deriving DecidableEq, Inhabited

namespace VaultStage

instance : Choice VaultStage where
  name := "VaultStage"
  all := [draft, published, contribution, acquire, locked, terminating, terminated, failed]
  text
    | draft => "draft"
    | published => "published"
    | contribution => "contribution"
    | acquire => "acquire"
    | locked => "locked"
    | terminating => "terminating"
    | terminated => "terminated"
    | failed => "failed"

/-- The stages that may follow a stage. -/
def next : VaultStage → List VaultStage
  | draft => [published]
  | published => [contribution, failed]
  | contribution => [acquire, failed]
  | acquire => [locked, failed]
  | locked => [terminating]
  | terminating => [terminated]
  | terminated => []
  | failed => []

/-- Whether the results of the acquire window are fixed in a stage. -/
def freezesAcquireResults : VaultStage → Bool
  | locked | terminating | terminated => true
  | _ => false

/-- Whether entering a stage returns the vault's locked assets. -/
def releasesAssets : VaultStage → Bool
  | failed | terminated => true
  | _ => false

end VaultStage

/-- A vault.  A configuration value that has not been recorded is null. -/
structure Vault where
  id : Uuid
  name : String
  stage : VaultStage
  /-- Multipliers computed when the acquire window closes. -/
  acquireMultiplier : Json
  /-- The distribution of the native asset computed with them. -/
  adaDistribution : Json
  /-- Contract parameters applied at publication. -/
  applyParamsResult : Json
  /-- The script used by distributions. -/
  dispatchScript : Json
  executionThreshold : Option Decimal
  participationThreshold : Option Decimal
  failureReason : Option String
  createdAt : Timestamp
  updatedAt : Option Timestamp
deriving DecidableEq, Inhabited

namespace Vault

/-- The name of the applied contract parameters among the fields. -/
def applyParamsField : String := "apply_params_result"

/-- The name of the acquire multipliers among the fields. -/
def acquireMultiplierField : String := "acquire_multiplier"

/-- The name of the distribution among the fields. -/
def adaDistributionField : String := "ada_distribution"

/-- The name of the dispatch script among the fields. -/
def dispatchScriptField : String := "dispatch_preloaded_script"

/-- The configuration a stage needs, by field name, with what is recorded. -/
def requirements (v : Vault) : VaultStage → List (String × Json)
  | .published => [(applyParamsField, v.applyParamsResult)]
  | .locked =>
    [(acquireMultiplierField, v.acquireMultiplier), (adaDistributionField, v.adaDistribution)]
  | _ => []

/-- The fields a stage needs that have not been recorded. -/
def missingFor (v : Vault) (target : VaultStage) : List String :=
  ((v.requirements target).filter fun e => e.2.isNull).map (·.1)

end Vault

end VaultGovernance
