import VaultGovernance.Form.Field
import VaultGovernance.Proposal.Lifecycle
import VaultGovernance.Vote.Casting

/-!
# VaultGovernance.Http.Body

The forms that requests carry.  Each is checked entry by entry and becomes the
action it asks for; where the action is about a row of its own, the row's
identifier comes from the path.
-/

namespace VaultGovernance

namespace Body

open Form

/-! ## Vaults -/

/-- A new vault. -/
def vault : Check (Action Vault) := form fun p f =>
  (fun title execution participation => Vault.create (some title) execution participation)
    <$> required "name" (checking (name 255)) p f
    <*> maybe "execution_threshold" (checking percentage) p f
    <*> maybe "participation_threshold" (checking percentage) p f

/-- The next stage of a vault. -/
def stage : Check (Uuid → Action Vault) := form fun p f =>
  (fun target reason id => Vault.advance id target reason)
    <$> required "stage" (checking (member VaultStage)) p f
    <*> maybe "reason" (checking text) p f

/-- The applied contract parameters of a vault. -/
def applyParams : Check (Uuid → Action Vault) := form fun p f =>
  (fun result id => Vault.recordApplyParams id (.obj result))
    <$> required "apply_params_result" anyObject p f

/-- The dispatch script of a vault. -/
def dispatchScript : Check (Uuid → Action Vault) := form fun p f =>
  (fun script id => Vault.recordDispatchScript id (.obj script))
    <$> required "dispatch_preloaded_script" anyObject p f

/-- The results of the acquire window of a vault. -/
def acquireResults : Check (Uuid → Action Vault) := form fun p f =>
  (fun multiplier distribution id => Vault.recordAcquireResults id multiplier distribution)
    <$> required "acquire_multiplier" anyList p f
    <*> required "ada_distribution" anyList p f

/-! ## Assets -/

/-- A new asset of a vault. -/
def asset : Check (Uuid → Action Asset) := form fun p f =>
  (fun policyId assetName kind quantity origin addedBy metadata id =>
    Asset.create id {
      policyId := some policyId
      assetName := some assetName
      kind := Choice.toJson kind
      quantity := some quantity
      origin := Json.ofOption Choice.toJson origin
      addedBy
      metadata := Json.ofOption .obj metadata })
    <$> required "policy_id" (checking (name 64)) p f
    <*> required "asset_id" (checking (name 128)) p f
    <*> optional "type" AssetKind.nft (checking (member AssetKind)) p f
    <*> optional "quantity" (Decimal.ofNat 1) (checking amount) p f
    <*> maybe "origin_type" (checking (member AssetOrigin)) p f
    <*> maybe "added_by" (checking (textUpTo 255)) p f
    <*> maybe "metadata" anyObject p f

/-- The next status of an asset. -/
def transition : Check (Uuid → Action Asset) := form fun p f =>
  (fun target id => Asset.transition id target)
    <$> required "status" (checking (member AssetStatus)) p f

/-- The entry of a change, if the form has it. -/
def changed {α : Type} (entry : String) (check : Check α) (toJson : α → Json) (p : Place)
    (f : OrderedMap Json) : Checked (List (String × Json)) :=
  optional entry [] (fun p j => (fun a => [(entry, Json.ofOption toJson a)]) <$> orNull check p j)
    p f

/-- The entries of a change that are checked. -/
def checkedEntries : List String :=
  ["policy_id", "asset_id", "type", "quantity", "added_by", "metadata"]

/-- New field values of an asset.  Entries that are not declared are passed on
behind the declared ones. -/
def assetChange : Check (Uuid → Action Asset) := form fun p f =>
  (fun policyId assetName kind quantity addedBy metadata id =>
    Asset.update id (policyId ++ assetName ++ kind ++ quantity ++ addedBy ++ metadata ++
      f.filter fun e => !checkedEntries.contains e.1))
    <$> changed "policy_id" (checking (name 64)) .str p f
    <*> changed "asset_id" (checking (name 128)) .str p f
    <*> changed "type" (checking (member AssetKind)) Choice.toJson p f
    <*> changed "quantity" (checking amount) (fun d => .str d.scientificText) p f
    <*> changed "added_by" (checking (textUpTo 255)) .str p f
    <*> changed "metadata" anyObject .obj p f

/-! ## Snapshots -/

/-- A balance: a text, or a value that is read as an integer. -/
def balance : Check Json := fun p j =>
  match j with
  | .str s => .valid (.str s)
  | j => (Json.int <$> checking integer (p.entry "int") j).orElse
      (.str <$> checking text (p.entry "str") j)

/-- A snapshot of a vault. -/
def snapshot : Check (Uuid → Action Snapshot) := form fun p f =>
  (fun assetId balances id => Snapshot.create id (some assetId) balances)
    <$> required "asset_id" (checking (name 255)) p f
    <*> required "address_balances" (object balance) p f

/-! ## Proposals -/

/-- A position on a ballot: an integer that is at least zero. -/
def position : Reader Int := ensuring integer (fun n => 0 ≤ n) .below

/-- An option with its label and its position. -/
def optionForm : Check Json := form fun p f =>
  (fun label order => .obj [("label", .str label), ("order", Json.ofOption .int order)])
    <$> required "label" (checking (name 255)) p f
    <*> maybe "order" (checking position) p f

/-- An option of a ballot: its label, or a form. -/
def ballotOption : Check Json := fun p j =>
  match j with
  | .str s => .valid (.str s)
  | j => (optionForm (p.entry "VoteOptionIn") j).orElse
      (.str <$> checking text (p.entry "str") j)

/-- The entries of a payload that are given. -/
def payloadOf (entries : List (String × Option Json)) : OrderedMap Json :=
  entries.filterMap fun e => e.2.map fun j => (e.1, j)

/-- The payload of a proposal. -/
def payload (p : Place) (f : OrderedMap Json) : Checked (OrderedMap Json) :=
  (fun fungible nonFungible distribution burn marketplace reason date => payloadOf [
    ("fungible_tokens", fungible),
    ("non_fungible_tokens", nonFungible),
    (Distribution.field, distribution),
    ("burn_assets", burn),
    ("marketplace_actions", marketplace),
    ("termination_reason", reason.map Json.str),
    (Proposal.dateField, date.map fun t : Timestamp => Json.str t.text)])
    <$> maybe "fungible_tokens" anyList p f
    <*> maybe "non_fungible_tokens" anyList p f
    <*> maybe Distribution.field anyList p f
    <*> maybe "burn_assets" anyList p f
    <*> maybe "marketplace_actions" anyList p f
    <*> maybe "termination_reason" (checking text) p f
    <*> maybe Proposal.dateField (checking date) p f

/-- A proposal on a vault. -/
def proposal : Check (Uuid → Action Proposal) := form fun p f =>
  (fun creatorId type title description startDate endDate abstain options payload id =>
    Proposal.create id {
      type
      creatorId := some creatorId
      title := some title
      description := some description
      payload
      options := Json.ofOption .arr options
      abstain := some abstain
      startDate
      endDate })
    <$> required "creator_id" (checking (name 255)) p f
    <*> required "proposal_type" (checking (member ProposalType)) p f
    <*> required "title" (checking (name 255)) p f
    <*> optional "description" "" (checking text) p f
    <*> maybe "start_date" (checking date) p f
    <*> maybe "end_date" (checking date) p f
    <*> optional "abstain" false (checking truth) p f
    <*> maybe "vote_options" (list ballotOption) p f
    <*> payload p f

/-- A vote on a proposal. -/
def vote : Check (Uuid → Action Vote) := form fun p f =>
  (fun voterId optionId address id => Vote.cast id (some voterId) (.str optionId) (some address))
    <$> required "voter_id" (checking (name 255)) p f
    <*> required "vote_option_id" (checking (textFrom 1)) p f
    <*> required "voter_address" (checking (name 255)) p f

/-! ## Settings and claims -/

/-- An object with at least one entry. -/
def someObject : Check (OrderedMap Json) := fun p j =>
  match j with
  | .obj [] => .fault p .tooFew j
  | j => anyObject p j

/-- New settings. -/
def settings : Check (Action (OrderedMap Json)) := form fun p f =>
  Settings.update <$> required "settings" someObject p f

/-- How claims are to be normalized: at most so many, and whether only to count
them. -/
def backfill : Check (Option Int × Bool) := form fun p f =>
  Prod.mk
    <$> maybe "limit" (checking (ensuring integer (fun n => 0 < n) .notGreater)) p f
    <*> optional "dry_run" false (checking truth) p f

end Body

end VaultGovernance
