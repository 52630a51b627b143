import VaultGovernance.Migration.Revision

/-!
# VaultGovernance.Migration.DistributedStatus

The second revision: assets can be paid out, and proposals can ask for
marketplace actions.
-/

namespace VaultGovernance

namespace Migration

namespace DistributedStatus

/-- Adds the status unless it is there. -/
def ensureStatus : Statement := .sql [
  "DO $$ BEGIN IF NOT EXISTS (",
  "SELECT 1 FROM pg_enum WHERE enumlabel = 'distributed'",
  "AND enumtypid = (SELECT oid FROM pg_type WHERE typname = 'assets_status_enum')",
  ") THEN ALTER TYPE assets_status_enum ADD VALUE 'distributed'; END IF; END $$;"]

/-- Takes the status back: a value of an enumeration cannot be dropped, so the
rows are moved and the enumeration is built again without it. -/
def withdrawStatus : List Statement := [
  .sql ["UPDATE assets SET status = 'released' WHERE status = 'distributed'"],
  .sql ["ALTER TABLE assets ALTER COLUMN status DROP DEFAULT"],
  .sql ["ALTER TYPE assets_status_enum RENAME TO assets_status_enum_old"],
  .sql ["CREATE TYPE assets_status_enum AS ENUM ('pending', 'locked', 'released')"],
  .sql ["ALTER TABLE assets ALTER COLUMN status TYPE assets_status_enum",
    "USING status::text::assets_status_enum"],
  .sql ["ALTER TABLE assets ALTER COLUMN status SET DEFAULT 'pending'"],
  .sql ["DROP TYPE assets_status_enum_old"]]

/-- The revision. -/
def revision : Revision where
  id := "asset_distributed_20260120"
  title := "add_distributed_asset_status"
  upgrade := [
    ensureStatus,
    .addColumn "assets" (optionalColumn "distributed_at" .timestamp),
    .addColumn "proposal" (optionalColumn "marketplace_actions" .jsonb)]
  downgrade :=
    [.dropColumn "proposal" "marketplace_actions", .dropColumn "assets" "distributed_at"] ++
      withdrawStatus

end DistributedStatus

end Migration

end VaultGovernance
