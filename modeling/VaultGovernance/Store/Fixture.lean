import VaultGovernance.Action
import VaultGovernance.Store.Column

/-!
# VaultGovernance.Store.Fixture

Direct writes to the store, past every rule of governance: inserting votes,
claims and the settings row as they are, and writing single columns of a row.
Only the rules of the columns hold here.  Migrated and damaged data arise this
way.
-/

namespace VaultGovernance

namespace Fixture

open VaultGovernance.Action

/-! ## Inserting rows -/

/-- A vote to insert. -/
structure VoteDraft where
  proposalId : Option Uuid
  voterId : Option String
  voterAddress : Option String
  optionId : Option String
  weight : Option Int

/-- Whether a vote has the proposal and the address of another. -/
def sameAddress (a b : Vote) : Bool :=
  a.proposalId = b.proposalId && a.voterAddress = b.voterAddress

/-- Whether a vote has the proposal and the voter of another. -/
def sameVoter (a b : Vote) : Bool :=
  a.proposalId = b.proposalId && a.voterId = b.voterId

/-- The unique indexes of votes: by address first, then by voter. -/
def checkUnique (votes : List Vote) (v : Vote) : Except Fault Unit :=
  if votes.any (sameAddress v) then
    .error (.integrity "UNIQUE constraint failed: vote.proposal_id, vote.voter_address")
  else if votes.any (sameVoter v) then
    .error (.integrity "UNIQUE constraint failed: vote.proposal_id, vote.voter_id")
  else .ok ()

/-- The row of a vote. -/
def voteRow (s : Store) (now : Timestamp) (d : VoteDraft) : Except Fault Vote := do
  let proposalId ← Column.required "vote" "proposal_id" d.proposalId
  let voterId ← Column.required "vote" "voter_id" d.voterId
  let voterAddress ← Column.required "vote" "voter_address" d.voterAddress
  let optionId ← Column.required "vote" "vote_option_id" d.optionId
  let vote : Vote :=
    ⟨s.nextId, proposalId, voterId, voterAddress, d.weight.getD 1, optionId, now⟩
  checkUnique s.votes vote
  return vote

/-- Inserts votes one after the other. -/
def insertVotes : List VoteDraft → Action (List Vote)
  | [] => done []
  | d :: rest => do
    let vote ← ofExcept (voteRow (← store) (← now) d)
    modify fun s => s.addVote vote
    let votes ← insertVotes rest
    done (vote :: votes)

/-- Inserts votes; a weight that fits no column is found first. -/
def addVotes (drafts : List VoteDraft) : Action (List Vote) := do
  let _ ← ofExcept (drafts.mapM fun d => Column.bigint (d.weight.getD 1))
  insertVotes drafts

/-- A claim to insert. -/
structure ClaimDraft where
  kind : ClaimKind := .lp
  status : ClaimStatus := .available
  userId : Option String := none
  vaultId : Option Uuid := none
  amount : Int := 0
  lovelaceAmount : Option Int := none
  multiplier : Option Decimal := none
  description : Option String := none
  metadata : Json := .null

/-- Inserts a claim. -/
def addClaim (d : ClaimDraft) : Action Claim := do
  let amount ← ofExcept (Column.bigint d.amount)
  let lovelaceAmount ← ofExcept (Column.optionalBigint d.lovelaceAmount)
  let multiplier ← ofExcept (Column.optionalNumeric Column.multiplierPlaces d.multiplier)
  let claim : Claim := {
    id := (← store).nextId
    userId := d.userId
    vaultId := d.vaultId
    kind := d.kind
    status := d.status
    amount
    lovelaceAmount
    multiplier
    description := d.description
    metadata := Column.document d.metadata
    createdAt := ← now
    updatedAt := none }
  modify fun s => s.addClaim claim
  done claim

/-- Inserts the settings row. -/
def insertSettings (data : Json) : Action SettingsRow := do
  match (← store).settings with
  | some _ => fail (.integrity "UNIQUE constraint failed: system_settings.id")
  | none =>
    let row : SettingsRow := ⟨Column.document data, ← now, none⟩
    modify fun s => s.putSettings row
    done row

/-! ## Writing columns -/

/-- A column that must not be empty, given a value of any kind. -/
def requiredOfJson {α : Type} (table column : String) (convert : Json → Except Fault (Option α))
    (j : Json) : Except Fault α := do
  Column.required table column (← convert j)

/-- A column of named members, given a value of any kind; a text that names no
member fails the check of the column. -/
def choiceOfJson (α : Type) [Choice α] (constraint : String) (j : Json) :
    Except Fault (Option α) :=
  match j with
  | .null => .ok none
  | .str s =>
    match Choice.ofText? s with
    | some a => .ok (some a)
    | none => .error (.integrity ("CHECK constraint failed: " ++ constraint))
  | _ => .error .unstorable

/-- Writes one column of a vault. -/
def writeVault (v : Vault) (name : String) (j : Json) : Except Fault Vault := do
  match name with
  | "name" => return { v with name := ← requiredOfJson "vaults" "name" Column.textOfJson j }
  | "stage" =>
    return { v with
      stage := ← requiredOfJson "vaults" "stage" (choiceOfJson VaultStage "vault_stage") j }
  | "acquire_multiplier" =>
    return { v with acquireMultiplier := Column.overwriteDocument v.acquireMultiplier j }
  | "ada_distribution" =>
    return { v with adaDistribution := Column.overwriteDocument v.adaDistribution j }
  | "apply_params_result" =>
    return { v with applyParamsResult := Column.overwriteDocument v.applyParamsResult j }
  | "dispatch_preloaded_script" =>
    return { v with dispatchScript := Column.overwriteDocument v.dispatchScript j }
  | "execution_threshold" =>
    return { v with
      executionThreshold :=
        ← Column.optionalNumeric Column.moneyPlaces (← Column.decimalOfJson j) }
  | "participation_threshold" =>
    return { v with
      participationThreshold :=
        ← Column.optionalNumeric Column.moneyPlaces (← Column.decimalOfJson j) }
  | "failure_reason" => return { v with failureReason := ← Column.textOfJson j }
  | "created_at" =>
    return { v with createdAt := ← requiredOfJson "vaults" "created_at" Column.dateOfJson j }
  | "updated_at" => return { v with updatedAt := ← Column.dateOfJson j }
  | _ => return v

/-- Writes one column of an asset. -/
def writeAsset (a : Asset) (name : String) (j : Json) : Except Fault Asset := do
  match name with
  | "vault_id" =>
    return { a with vaultId := ← requiredOfJson "assets" "vault_id" Column.uuidOfJson j }
  | "policy_id" =>
    return { a with policyId := ← requiredOfJson "assets" "policy_id" Column.textOfJson j }
  | "asset_id" =>
    return { a with assetName := ← requiredOfJson "assets" "asset_id" Column.textOfJson j }
  | "type" =>
    return { a with
      kind := ← requiredOfJson "assets" "type" (choiceOfJson AssetKind "assets_type_enum") j }
  | "quantity" =>
    let d ← Column.optionalNumeric Column.moneyPlaces (← Column.decimalOfJson j)
    return { a with quantity := ← Column.required "assets" "quantity" d }
  | "status" =>
    return { a with
      status :=
        ← requiredOfJson "assets" "status" (choiceOfJson AssetStatus "assets_status_enum") j }
  | "locked_at" => return { a with lockedAt := ← Column.dateOfJson j }
  | "released_at" => return { a with releasedAt := ← Column.dateOfJson j }
  | "distributed_at" => return { a with distributedAt := ← Column.dateOfJson j }
  | "added_by" => return { a with addedBy := ← Column.textOfJson j }
  | "metadata" | "asset_metadata" =>
    return { a with metadata := Column.overwriteDocument a.metadata j }
  | "created_at" =>
    return { a with createdAt := ← requiredOfJson "assets" "created_at" Column.dateOfJson j }
  | "updated_at" => return { a with updatedAt := ← Column.dateOfJson j }
  | _ => return a

/-- Writes one column of a snapshot. -/
def writeSnapshot (x : Snapshot) (name : String) (j : Json) : Except Fault Snapshot := do
  match name with
  | "vault_id" =>
    return { x with vaultId := ← requiredOfJson "snapshot" "vault_id" Column.uuidOfJson j }
  | "asset_id" =>
    return { x with assetId := ← requiredOfJson "snapshot" "asset_id" Column.textOfJson j }
  | "address_balances" => return { x with balances := Column.overwriteDocument x.balances j }
  | "created_at" =>
    return { x with createdAt := ← requiredOfJson "snapshot" "created_at" Column.dateOfJson j }
  | _ => return x

/-- Writes one column of a proposal. -/
def writeProposal (p : Proposal) (name : String) (j : Json) : Except Fault Proposal := do
  match name with
  | "vault_id" =>
    return { p with vaultId := ← requiredOfJson "proposal" "vault_id" Column.uuidOfJson j }
  | "snapshot_id" => return { p with snapshotId := ← Column.uuidOfJson j }
  | "creator_id" =>
    return { p with creatorId := ← requiredOfJson "proposal" "creator_id" Column.textOfJson j }
  | "title" => return { p with title := ← requiredOfJson "proposal" "title" Column.textOfJson j }
  | "description" =>
    return { p with description := ← requiredOfJson "proposal" "description" Column.textOfJson j }
  | "status" =>
    return { p with
      status := ← requiredOfJson "proposal" "status"
        (choiceOfJson ProposalStatus "proposal_status_enum") j }
  | "proposal_type" =>
    return { p with
      type := ← requiredOfJson "proposal" "proposal_type"
        (choiceOfJson ProposalType "proposal_proposal_type_enum") j }
  | "start_date" => return { p with startDate := ← Column.dateOfJson j }
  | "end_date" => return { p with endDate := ← Column.dateOfJson j }
  | "execution_date" => return { p with executionDate := ← Column.dateOfJson j }
  | "fungible_tokens" =>
    return { p with fungibleTokens := Column.overwriteDocument p.fungibleTokens j }
  | "non_fungible_tokens" =>
    return { p with nonFungibleTokens := Column.overwriteDocument p.nonFungibleTokens j }
  | "distribution_assets" =>
    return { p with distributionAssets := Column.overwriteDocument p.distributionAssets j }
  | "burn_assets" => return { p with burnAssets := Column.overwriteDocument p.burnAssets j }
  | "marketplace_actions" =>
    return { p with marketplaceActions := Column.overwriteDocument p.marketplaceActions j }
  | "termination_reason" => return { p with terminationReason := ← Column.textOfJson j }
  | "termination_date" => return { p with terminationDate := ← Column.dateOfJson j }
  | "has_custom_vote_options" =>
    return { p with
      hasCustomOptions :=
        ← requiredOfJson "proposal" "has_custom_vote_options" Column.truthOfJson j }
  | "abstain" => return { p with abstain := ← Column.truthOfJson j }
  | "created_at" =>
    return { p with createdAt := ← requiredOfJson "proposal" "created_at" Column.dateOfJson j }
  | "updated_at" => return { p with updatedAt := ← Column.dateOfJson j }
  | _ => return p

/-- Writes columns one after the other. -/
def writeAll {α : Type} (write : α → String → Json → Except Fault α) (row : α)
    (values : OrderedMap Json) : Except Fault α :=
  values.foldlM (fun row e => write row e.1 e.2) row

/-- Writes columns of a vault; a change stamps the row. -/
def patchVault (id : Uuid) (values : OrderedMap Json) : Action Vault := do
  match (← store).vault? id with
  | none => refuse (.notFound "vault" id.toJson)
  | some old =>
    let new ← ofExcept (writeAll writeVault old values)
    let time ← now
    let row := if new = old then old else { new with updatedAt := some time }
    modify fun s => s.putVault row
    done row

/-- Writes columns of an asset; a change stamps the row. -/
def patchAsset (id : Uuid) (values : OrderedMap Json) : Action Asset := do
  match (← store).asset? id with
  | none => refuse (.notFound "asset" id.toJson)
  | some old =>
    let new ← ofExcept (writeAll writeAsset old values)
    let time ← now
    let row := if new = old then old else { new with updatedAt := some time }
    modify fun s => s.putAsset row
    done row

/-- Writes columns of a snapshot. -/
def patchSnapshot (id : Uuid) (values : OrderedMap Json) : Action Snapshot := do
  match (← store).snapshot? id with
  | none => refuse (.notFound "snapshot" id.toJson)
  | some old =>
    let row ← ofExcept (writeAll writeSnapshot old values)
    modify fun s => s.putSnapshot row
    done row

/-- Writes columns of a proposal; a change stamps the row. -/
def patchProposal (id : Uuid) (values : OrderedMap Json) : Action Proposal := do
  match (← store).proposal? id with
  | none => refuse (.notFound "proposal" id.toJson)
  | some old =>
    let new ← ofExcept (writeAll writeProposal old values)
    let time ← now
    let row := if new = old then old else { new with updatedAt := some time }
    modify fun s => s.putProposal row
    done row

end Fixture

end VaultGovernance
