import VaultGovernance.Claim.Normalization
import VaultGovernance.Vote.Result

/-!
# VaultGovernance.Http.Representation

Rows as they are shown over HTTP.  Decimals are texts in their scientific form
and dates are without offset.  A document column is shown only if it has the
kind its field is declared with.
-/

namespace VaultGovernance

namespace Representation

/-- A value as shown, or why it cannot be. -/
abbrev Shown := Except Fault Json

/-- A document that is an object or nothing. -/
def objectDocument : Json → Shown
  | .null => .ok .null
  | .obj entries => .ok (.obj entries)
  | _ => .error .wrongType

/-- A document that is a list or nothing. -/
def listDocument : Json → Shown
  | .null => .ok .null
  | .arr items => .ok (.arr items)
  | _ => .error .wrongType

/-- A decimal; it must be finite. -/
def decimal (d : Decimal) : Shown :=
  if d.isFinite then .ok (.str d.scientificText) else .error .wrongType

/-- A decimal or nothing. -/
def optionalDecimal : Option Decimal → Shown
  | none => .ok .null
  | some d => decimal d

/-- A date. -/
def date (t : Timestamp) : Json := .str t.text

/-- A date or nothing. -/
def optionalDate (t : Option Timestamp) : Json := Json.ofOption date t

/-- A text or nothing. -/
def optionalText (t : Option String) : Json := Json.ofOption .str t

/-- Rows as a list. -/
def list {α : Type} (one : α → Shown) (rows : List α) : Shown := do
  return .arr (← rows.mapM one)

/-- A vault. -/
def vault (v : Vault) : Shown := do
  return .obj [
    ("id", v.id.toJson),
    ("name", .str v.name),
    ("stage", Choice.toJson v.stage),
    ("acquire_multiplier", ← listDocument v.acquireMultiplier),
    ("ada_distribution", ← listDocument v.adaDistribution),
    ("apply_params_result", ← objectDocument v.applyParamsResult),
    ("dispatch_preloaded_script", ← objectDocument v.dispatchScript),
    ("execution_threshold", ← optionalDecimal v.executionThreshold),
    ("participation_threshold", ← optionalDecimal v.participationThreshold),
    ("failure_reason", optionalText v.failureReason),
    ("created_at", date v.createdAt),
    ("updated_at", optionalDate v.updatedAt)]

/-- An asset. -/
def asset (a : Asset) : Shown := do
  return .obj [
    ("id", a.id.toJson),
    ("vault_id", a.vaultId.toJson),
    ("policy_id", .str a.policyId),
    ("asset_id", .str a.assetName),
    ("type", Choice.toJson a.kind),
    ("quantity", ← decimal a.quantity),
    ("status", Choice.toJson a.status),
    ("origin_type", Json.ofOption Choice.toJson a.origin),
    ("locked_at", optionalDate a.lockedAt),
    ("released_at", optionalDate a.releasedAt),
    ("distributed_at", optionalDate a.distributedAt),
    ("added_by", optionalText a.addedBy),
    ("metadata", ← objectDocument a.metadata),
    ("created_at", date a.createdAt),
    ("updated_at", optionalDate a.updatedAt)]

/-- A snapshot in summary: how many addresses it lists and what they hold
together. -/
def snapshot (s : Snapshot) : Shown := do
  return .obj [
    ("id", s.id.toJson),
    ("vault_id", s.vaultId.toJson),
    ("asset_id", .str s.assetId),
    ("address_count", .int s.balances.entries.length),
    ("total_voting_power", .int (← s.totalVotingPower)),
    ("created_at", date s.createdAt)]

/-- An option of a ballot. -/
def voteOption (o : VoteOption) : Json :=
  .obj [("id", o.id.toJson), ("label", .str o.label), ("order", .int o.order)]

/-- A proposal. -/
def proposal (p : Proposal) : Shown := do
  return .obj [
    ("id", p.id.toJson),
    ("vault_id", p.vaultId.toJson),
    ("snapshot_id", Json.ofOption Uuid.toJson p.snapshotId),
    ("creator_id", .str p.creatorId),
    ("title", .str p.title),
    ("description", .str p.description),
    ("status", Choice.toJson p.status),
    ("proposal_type", Choice.toJson p.type),
    ("start_date", optionalDate p.startDate),
    ("end_date", optionalDate p.endDate),
    ("execution_date", optionalDate p.executionDate),
    ("fungible_tokens", ← listDocument p.fungibleTokens),
    ("non_fungible_tokens", ← listDocument p.nonFungibleTokens),
    ("distribution_assets", ← listDocument p.distributionAssets),
    ("burn_assets", ← listDocument p.burnAssets),
    ("marketplace_actions", ← listDocument p.marketplaceActions),
    ("termination_reason", optionalText p.terminationReason),
    ("termination_date", optionalDate p.terminationDate),
    ("has_custom_vote_options", .bool p.hasCustomOptions),
    ("abstain", Json.ofOption .bool p.abstain),
    ("vote_options", .arr (p.shownOptions.map voteOption)),
    ("created_at", date p.createdAt)]

/-- A vote. -/
def vote (v : Vote) : Json :=
  .obj [
    ("id", v.id.toJson),
    ("proposal_id", v.proposalId.toJson),
    ("voter_id", .str v.voterId),
    ("voter_address", .str v.voterAddress),
    ("vote_weight", .int v.weight),
    ("vote_option_id", .str v.optionId),
    ("created_at", date v.createdAt)]

/-- One row of a tally. -/
def tallyRow (r : TallyRow) : Json :=
  .obj [
    ("vote_option_id", .str r.optionId),
    ("label", .str r.label),
    ("count", .int r.count),
    ("weight", .int r.weight)]

/-- The tally of a proposal. -/
def tally (proposalId : Uuid) (rows : List TallyRow) : Json :=
  .obj [("proposal_id", proposalId.toJson), ("rows", .arr (rows.map tallyRow))]

/-- The outcome of a fixed ballot. -/
def result (r : VoteResult) : Json :=
  .obj [
    ("yes_votes", .int r.yesVotes),
    ("no_votes", .int r.noVotes),
    ("abstain_votes", .int r.abstainVotes),
    ("total_votes", .int r.totalVotes),
    ("total_votes_including_abstain", .int r.totalVotesIncludingAbstain),
    ("yes_vote_percent", .int r.yesVotePercent),
    ("no_vote_percent", .int r.noVotePercent),
    ("abstain_vote_percent", .int r.abstainVotePercent),
    ("participation_percent", .float r.participationPercent),
    ("meets_participation_threshold", .bool r.meetsParticipationThreshold),
    ("meets_execution_threshold", .bool r.meetsExecutionThreshold),
    ("is_successful", .bool r.isSuccessful)]

/-- A proposal whose voting was closed, with the outcome of its fixed ballot. -/
def decision (d : Proposal × Option VoteResult) : Shown := do
  return .obj [("proposal", ← proposal d.1), ("result", Json.ofOption result d.2)]

/-- A claim. -/
def claim (c : Claim) : Shown := do
  return .obj [
    ("id", c.id.toJson),
    ("user_id", optionalText c.userId),
    ("vault_id", Json.ofOption Uuid.toJson c.vaultId),
    ("type", Choice.toJson c.kind),
    ("status", Choice.toJson c.status),
    ("amount", .int c.amount),
    ("lovelace_amount", Json.ofOption .int c.lovelaceAmount),
    ("multiplier", ← optionalDecimal c.multiplier),
    ("description", optionalText c.description),
    ("metadata", ← objectDocument c.metadata),
    ("created_at", date c.createdAt)]

/-- The account of a backfill. -/
def backfill (dryRun : Bool) (s : Claim.BackfillStats) : Json :=
  .obj (s.toEntries ++ [("dry_run", .bool dryRun)])

/-- Settings. -/
def settings (values : OrderedMap Json) : Json := .obj [("settings", .obj values)]

end Representation

end VaultGovernance
