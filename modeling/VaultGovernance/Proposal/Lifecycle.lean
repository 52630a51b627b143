import VaultGovernance.Proposal.Ballot
import VaultGovernance.Proposal.Distribution
import VaultGovernance.Proposal.Payload
import VaultGovernance.Settings.Document
import VaultGovernance.Snapshot.Recording
import VaultGovernance.Vote.Result
import VaultGovernance.Vote.Tally

/-!
# VaultGovernance.Proposal.Lifecycle

The life of a proposal: making it, paying its fee, opening its voting, closing
it with a decision, and executing what was decided.
-/

namespace VaultGovernance

namespace Proposal

open VaultGovernance.Action

/-- The table of proposals. -/
def table : String := "proposal"

/-! ## Making a proposal -/

/-- A proposal as it is submitted. -/
structure Draft where
  type : ProposalType
  creatorId : Option String
  title : Option String
  description : Option String := some ""
  payload : OrderedMap Json := []
  options : Json := .null
  abstain : Option Bool := some false
  startDate : Option Timestamp := none
  endDate : Option Timestamp := none

/-- The payload field that holds a date. -/
def dateField : String := "termination_date"

/-- Refuses a payload whose date is a text that gives no date. -/
def checkDate (payload : OrderedMap Json) : Except Fault Unit :=
  match Payload.value payload dateField with
  | .str s =>
    if s = "" ∨ (Moment.ofIso? s).isSome then .ok ()
    else .error (.badValue ("Invalid isoformat string: " ++ quoted s))
  | _ => .ok ()

/-- The row of a submitted proposal, its payload validated and its options
read. -/
def rowOf (s : Store) (vaultId : Uuid) (snapshotId : Uuid) (fee : Int) (draft : Draft)
    (fields : OrderedMap Json) (options : List Ballot.OptionDraft) (now : Timestamp) :
    Except Fault Proposal := do
  let terminationReason ← Column.textOfJson (Payload.value fields "termination_reason")
  let terminationDate ← Column.dateOfJson (Payload.value fields dateField)
  let creatorId ← Column.required table "creator_id" draft.creatorId
  let title ← Column.required table "title" draft.title
  let rows ← Ballot.store (s.serial + 2) options
  let document (name : String) : Json := Column.document (Payload.value fields name)
  return {
    id := s.nextId
    vaultId
    snapshotId := some snapshotId
    creatorId
    title
    description := draft.description.getD ""
    status := if 0 < fee then .unpaid else .upcoming
    type := draft.type
    startDate := draft.startDate
    endDate := draft.endDate
    executionDate := none
    fungibleTokens := document "fungible_tokens"
    nonFungibleTokens := document "non_fungible_tokens"
    distributionAssets := document Distribution.field
    burnAssets := document "burn_assets"
    marketplaceActions := document "marketplace_actions"
    terminationReason
    terminationDate
    hasCustomOptions := !options.isEmpty
    abstain := some (draft.abstain.getD false)
    options := rows
    createdAt := now
    updatedAt := none }

/-- Makes a proposal on a vault in governance.  It is bound to the vault's
latest snapshot, and waits for its fee if there is one. -/
def create (vaultId : Uuid) (draft : Draft) : Action Proposal := do
  ofExcept (checkDate draft.payload)
  let vault ← Snapshot.governedVault vaultId "proposals require a vault in governance"
  let fields ← ofExcept (Payload.validate draft.type draft.payload)
  if draft.type = .distribution then
    ofExcept (Distribution.check (← store) vault.id (Payload.value fields Distribution.field))
  match ← Snapshot.latest vault.id with
  | none => refuse (.snapshotRequired vault.id.toJson)
  | some snapshot =>
    let fee ← Settings.proposalFee draft.type
    let options ← ofExcept (Ballot.read draft.options)
    let proposal ← ofExcept
      (rowOf (← store) vault.id snapshot.id fee draft fields options (← now))
    modify fun s => s.addProposal proposal
    done proposal

/-! ## Moving a proposal -/

/-- The refusal of a status. -/
def refuseStatus (p : Proposal) (target : ProposalStatus) (reason : Option String)
    (extra : OrderedMap Json) : DomainError :=
  .invalidTransition entity p.id.toJson (Choice.toJson p.status) (Choice.toJson target) reason extra

/-- Moves a proposal to a status that may follow its own; `finish` completes
the row. -/
def enter (p : Proposal) (target : ProposalStatus) (finish : Timestamp → Proposal → Proposal) :
    Action Proposal := do
  if p.status.next.contains target then
    let time ← now
    let moved := finish time { p with status := target, updatedAt := some time }
    modify fun s => s.putProposal moved
    done moved
  else refuse (p.refuseStatus target none [])

/-- Notes that the fee was paid. -/
def markFeePaid (id : Uuid) : Action Proposal := do
  enter (← find id) .upcoming fun _ p => p

/-- Opens the voting; a start date that was not given is now. -/
def openVoting (id : Uuid) : Action Proposal := do
  enter (← find id) .active fun time p => { p with startDate := p.startDate.or (some time) }

/-! ## Deciding -/

/-- The thresholds of a vault: its own, or those of the configuration. -/
def thresholds (c : Configuration) (v : Vault) : Threshold × Threshold :=
  (match v.executionThreshold with
    | some d => .decimal d
    | none => .binary c.executionThreshold,
  match v.participationThreshold with
    | some d => .decimal d
    | none => .binary c.participationThreshold)

/-- The voting power behind a proposal; nothing when it has no snapshot. -/
def powerBehind (s : Store) (p : Proposal) : Except Fault (Option Int) :=
  match s.snapshotOf? p with
  | some x => x.totalVotingPower.map some
  | none => .ok none

/-- Participation in percent on a ballot of one's own. -/
def participation (castWeight : Int) (power : Option Int) : Except Fault Binary64 :=
  match power with
  | some p => if p = 0 then .ok .hundred else VoteResult.percent castWeight p
  | none => .ok .hundred

/-- Whether a ballot of one's own passes: exactly one option leads, and the
participation is met. -/
def passesCustom (rows : List TallyRow) (threshold : Threshold) (power : Option Int) :
    Except Fault Bool := do
  let percent ← participation (TallyRow.totalWeight rows) power
  match TallyRow.leading? rows with
  | some _ => return (← threshold.toBinary64).le percent
  | none => return false

/-- The decision on a proposal: whether it passes, and the outcome of a fixed
ballot. -/
def decide (c : Configuration) (s : Store) (v : Vault) (p : Proposal) :
    Except Fault (Bool × Option VoteResult) := do
  let rows ← Vote.tallyOf s p
  let (execution, participation) := thresholds c v
  let power ← powerBehind s p
  if p.hasCustomOptions then
    return (← passesCustom rows participation power, none)
  else
    let result ← VoteResult.ofRows rows execution participation power
    return (result.isSuccessful, some result)

/-- Closes the voting with a decision; an end date that was not given is
now. -/
def finalize (id : Uuid) : Action (Proposal × Option VoteResult) := do
  let proposal ← find id
  if proposal.status = .active then
    let s ← store
    match s.vault? proposal.vaultId with
    | none => fail .wrongType
    | some vault =>
      let (passed, result) ← ofExcept (proposal.decide (← configuration) s vault)
      let closed ← enter proposal (if passed then .passed else .rejected) fun time p =>
        { p with endDate := p.endDate.or (some time) }
      done (closed, result)
  else refuse (proposal.refuseStatus .passed none [])

/-! ## Executing -/

/-- What executing a proposal does to its vault and the vault's assets. -/
def applyEffects (p : Proposal) (v : Vault) : Action Unit := do
  match p.type with
  | .distribution =>
    if v.dispatchScript.isNull then
      refuse (p.refuseStatus .executed (some "vault has no dispatch script")
        [("missing_fields", DomainError.textList [Vault.dispatchScriptField])])
    else
      let ids ← ofExcept (Distribution.identifiers p.distributionAssets)
      let _ ← Asset.distribute v.id ids
      done ()
  | .termination =>
    let _ ← Vault.advance v.id .terminating none
    done ()
  | _ => done ()

/-- Executes a proposal that passed. -/
def execute (id : Uuid) : Action Proposal := do
  let proposal ← find id
  if proposal.status = .passed then
    let vault ← Vault.find proposal.vaultId
    applyEffects proposal vault
    enter proposal .executed fun time p => { p with executionDate := some time }
  else refuse (proposal.refuseStatus .executed none [])

end Proposal

end VaultGovernance
