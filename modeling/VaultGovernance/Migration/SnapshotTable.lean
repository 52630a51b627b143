import VaultGovernance.Migration.Revision

/-!
# VaultGovernance.Migration.SnapshotTable

The fifth revision: snapshots of balances, proposals that are bound to one, and
votes that are cast by an address, one for each address and proposal.
-/

namespace VaultGovernance

namespace Migration

namespace SnapshotTable

/-- The table of snapshots. -/
def snapshots : Statement := .createTable "snapshot" [
    idColumn,
    requiredColumn "vault_id" .uuid,
    requiredColumn "asset_id" (.varchar 255),
    requiredColumn "address_balances" .jsonb,
    createdColumn]
  [.primaryKey "id", .foreignKey "fk_snapshot_vault_id" "vault_id" "vaults" true]

/-- The index for finding the latest snapshot of a vault. -/
def latestIndex : String := "ix_snapshot_vault_created"

/-- The revision. -/
def revision : Revision where
  id := "governance_snapshots_20260305"
  title := "add_governance_snapshots"
  upgrade := [
    snapshots,
    indexOn "snapshot" "vault_id",
    .createIndex latestIndex "snapshot" ["vault_id", "created_at"],
    .addColumn "proposal" (optionalColumn "snapshot_id" .uuid),
    .addConstraint "proposal"
      (.foreignKey "fk_proposal_snapshot_id" "snapshot_id" "snapshot" false),
    .sql ["UPDATE vote SET voter_address = voter_id WHERE voter_address IS NULL"],
    .require "vote" "voter_address" true,
    .addConstraint "vote" (.unique "uq_vote_proposal_address" ["proposal_id", "voter_address"])]
  downgrade := [
    .dropConstraint "vote" "uq_vote_proposal_address",
    .require "vote" "voter_address" false,
    .dropConstraint "proposal" "fk_proposal_snapshot_id",
    .dropColumn "proposal" "snapshot_id",
    .dropIndex latestIndex,
    .dropIndex (indexName "snapshot" "vault_id"),
    .dropTable "snapshot"]

end SnapshotTable

end Migration

end VaultGovernance
