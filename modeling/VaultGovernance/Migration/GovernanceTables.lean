import VaultGovernance.Migration.Revision

/-!
# VaultGovernance.Migration.GovernanceTables

The first revision: the tables of vaults, assets, proposals, options, votes and
claims, and the enumerations they use.
-/

namespace VaultGovernance

namespace Migration

namespace GovernanceTables

/-- The enumerations with their values. -/
def enumerations : List (String × List String) := [
  ("vault_stage", ["draft", "published", "contribution", "acquire", "locked", "terminating",
    "terminated", "failed"]),
  ("assets_status_enum", ["pending", "locked", "released"]),
  ("assets_origin_type_enum", ["invested", "contributed"]),
  ("assets_type_enum", ["nft", "ft", "ada"]),
  ("proposal_status_enum", ["unpaid", "upcoming", "active", "passed", "rejected", "executed"]),
  ("proposal_proposal_type_enum", ["staking", "distribution", "termination", "burning",
    "marketplace_action", "expansion"]),
  ("claims_type_enum", ["lp", "contributor", "acquirer", "l4va", "final_distribution",
    "cancellation", "distribution", "termination", "expansion"]),
  ("claims_status_enum", ["available", "pending", "claimed", "failed"])]

/-- The table of vaults. -/
def vaults : Statement := .createTable "vaults" [
    idColumn,
    createdColumn,
    updatedColumn,
    requiredColumn "name" (.varchar 255),
    defaultedColumn "stage" (.enumeration "vault_stage") "draft",
    optionalColumn "acquire_multiplier" .jsonb,
    optionalColumn "ada_distribution" .jsonb,
    optionalColumn "apply_params_result" .jsonb,
    optionalColumn "dispatch_preloaded_script" .jsonb,
    optionalColumn "execution_threshold" (.numeric 5 2),
    optionalColumn "participation_threshold" (.numeric 5 2),
    optionalColumn "failure_reason" .text]
  [.primaryKey "id"]

/-- The table of assets. -/
def assets : Statement := .createTable "assets" [
    idColumn,
    createdColumn,
    updatedColumn,
    requiredColumn "vault_id" .uuid,
    requiredColumn "policy_id" (.varchar 64),
    requiredColumn "asset_id" (.varchar 128),
    defaultedColumn "type" (.enumeration "assets_type_enum") "nft",
    defaultedColumn "quantity" (.numeric 20 2) "1",
    defaultedColumn "status" (.enumeration "assets_status_enum") "pending",
    optionalColumn "origin_type" (.enumeration "assets_origin_type_enum"),
    optionalColumn "locked_at" .timestamp,
    optionalColumn "released_at" .timestamp,
    optionalColumn "added_by" (.varchar 255),
    optionalColumn "metadata" .jsonb]
  [.primaryKey "id", .foreignKey "fk_assets_vault_id" "vault_id" "vaults" false]

/-- The table of proposals. -/
def proposals : Statement := .createTable "proposal" [
    idColumn,
    createdColumn,
    updatedColumn,
    requiredColumn "vault_id" .uuid,
    requiredColumn "creator_id" (.varchar 255),
    requiredColumn "title" (.varchar 255),
    defaultedColumn "description" .text "",
    requiredColumn "status" (.enumeration "proposal_status_enum"),
    requiredColumn "proposal_type" (.enumeration "proposal_proposal_type_enum"),
    optionalColumn "start_date" .timestamp,
    optionalColumn "end_date" .timestamp,
    optionalColumn "execution_date" .timestamp,
    optionalColumn "fungible_tokens" .jsonb,
    optionalColumn "non_fungible_tokens" .jsonb,
    optionalColumn "distribution_assets" .jsonb,
    optionalColumn "burn_assets" .jsonb,
    optionalColumn "termination_reason" .text,
    optionalColumn "termination_date" .timestamp,
    defaultedColumn "has_custom_vote_options" .boolean "false",
    { optionalColumn "abstain" .boolean with default := .constant "false" }]
  [.primaryKey "id", .foreignKey "fk_proposal_vault_id" "vault_id" "vaults" true]

/-- The table of the options of proposals. -/
def voteOptions : Statement := .createTable "vote_options" [
    idColumn,
    requiredColumn "proposal_id" .uuid,
    requiredColumn "label" (.varchar 255),
    defaultedColumn "order" .integer "0"]
  [.primaryKey "id", .foreignKey "fk_vote_options_proposal_id" "proposal_id" "proposal" false]

/-- The table of votes, one for each voter and proposal. -/
def votes : Statement := .createTable "vote" [
    idColumn,
    requiredColumn "proposal_id" .uuid,
    requiredColumn "voter_id" (.varchar 255),
    optionalColumn "voter_address" (.varchar 255),
    defaultedColumn "vote_weight" .bigint "1",
    requiredColumn "vote_option_id" (.varchar 255),
    createdColumn]
  [.primaryKey "id", .foreignKey "fk_vote_proposal_id" "proposal_id" "proposal" false,
    .unique "uq_vote_proposal_voter" ["proposal_id", "voter_id"]]

/-- The table of claims. -/
def claims : Statement := .createTable "claims" [
    idColumn,
    createdColumn,
    updatedColumn,
    optionalColumn "user_id" (.varchar 255),
    optionalColumn "vault_id" .uuid,
    requiredColumn "type" (.enumeration "claims_type_enum"),
    defaultedColumn "status" (.enumeration "claims_status_enum") "available",
    defaultedColumn "amount" .bigint "0",
    optionalColumn "lovelace_amount" .bigint,
    optionalColumn "multiplier" (.numeric 30 10),
    optionalColumn "description" .text,
    optionalColumn "metadata" .jsonb]
  [.primaryKey "id", .foreignKey "fk_claims_vault_id" "vault_id" "vaults" false]

/-- The revision. -/
def revision : Revision where
  id := "create_vault_gov_20260112"
  title := "create_vault_governance_tables"
  upgrade :=
    (enumerations.map fun e => .ensureEnumeration e.1 e.2) ++ [
      vaults, indexOn "vaults" "id", indexOn "vaults" "stage",
      assets, indexOn "assets" "id", indexOn "assets" "vault_id", indexOn "assets" "status",
      .createIndex "ix_assets_vault_status" "assets" ["vault_id", "status"],
      proposals, indexOn "proposal" "id", indexOn "proposal" "vault_id",
      indexOn "proposal" "status",
      .createIndex "ix_proposal_vault_status" "proposal" ["vault_id", "status"],
      voteOptions, indexOn "vote_options" "proposal_id",
      votes, indexOn "vote" "proposal_id", indexOn "vote" "voter_id",
      claims, indexOn "claims" "id", indexOn "claims" "user_id", indexOn "claims" "vault_id"]
  downgrade :=
    [.dropTable "claims", .dropTable "vote", .dropTable "vote_options", .dropTable "proposal",
      .dropTable "assets", .dropTable "vaults"] ++
      enumerations.reverse.map fun e => .sql ["DROP TYPE IF EXISTS", e.1]

end GovernanceTables

end Migration

end VaultGovernance
