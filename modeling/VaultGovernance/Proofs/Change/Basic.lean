import VaultGovernance.Proofs.Operation

/-!
# VaultGovernance.Proofs.Change.Basic

What an operation may do to the store.  `Operation.Does c s op s'` lists every way
in which an operation in the context `c` takes the store `s` to `s'`, each with
what the operation checked before it wrote, and with the operation's name where
only that one makes the change.  An operation with no constructor of its own only
reads.  `Change c s s'` says that some operation does it.  Invariants of whole
runs are proved by going through the constructors, and never by opening an
operation again.

Two operations write more than one row in a way that needs a relation of its
own: paying out a list of assets goes through them one after the other
(`PaidOut`), and executing a proposal first has its effects (`Effect`).
-/

namespace VaultGovernance

/-! ## Assets -/

/-- Moves every asset that a vault holds in one status to another. -/
def Store.moveHeld (s : Store) (vaultId : Uuid) (source target : AssetStatus)
    (time : Timestamp) : Store :=
  { s with assets := s.assets.map fun a =>
      if Asset.isHeld vaultId source a then a.moved target time else a }

/-- Moves the assets of a vault as entering a stage asks. -/
def Store.settleAssets (s : Store) (vaultId : Uuid) (target : VaultStage)
    (time : Timestamp) : Store :=
  if target = .locked then s.moveHeld vaultId .pending .locked time
  else if target.releasesAssets then s.moveHeld vaultId .locked .released time
  else s

/-- An asset as it is recorded in a vault. -/
structure Asset.Recorded (c : Context) (s : Store) (a : Asset) : Prop where
  id : a.id = s.nextId
  vault : ∃ v, s.vault? a.vaultId = some v
  status : a.status = .pending
  lockedAt : a.lockedAt = none
  releasedAt : a.releasedAt = none
  distributedAt : a.distributedAt = none
  createdAt : a.createdAt = c.now
  updatedAt : a.updatedAt = none

/-- The second row differs from the first in free fields only. -/
def Asset.Edited (time : Timestamp) (a a' : Asset) : Prop :=
  a' = { a with
    kind := a'.kind
    policyId := a'.policyId
    assetName := a'.assetName
    quantity := a'.quantity
    addedBy := a'.addedBy
    metadata := a'.metadata
    updatedAt := some time }

/-- The moves that an operation makes on all assets of a vault in one status. -/
inductive AssetStatus.BulkStep (vaultId : Uuid) : Operation → AssetStatus → AssetStatus → Prop
  | locked : BulkStep vaultId (.lockPendingAssets vaultId) .pending .locked
  | released : BulkStep vaultId (.releaseLockedAssets vaultId) .locked .released

/-- Moving many assets follows the table of statuses. -/
theorem AssetStatus.BulkStep.edge {vaultId : Uuid} {op : Operation} {source target : AssetStatus}
    (h : BulkStep vaultId op source target) : target ∈ source.next := by
  cases h <;> decide

/-- Listed assets of a vault, each of them locked, are paid out in order. -/
inductive PaidOut (time : Timestamp) (vaultId : Uuid) : List Uuid → Store → Store → Prop
  | nil (s : Store) : PaidOut time vaultId [] s s
  | cons {a : Asset} {rest : List Uuid} {s s' : Store}
      (found : s.asset? a.id = some a)
      (owner : a.vaultId = vaultId)
      (locked : a.status = .locked)
      (others : PaidOut time vaultId rest (s.putAsset (a.moved .distributed time)) s') :
      PaidOut time vaultId (a.id :: rest) s s'

/-! ## Vaults -/

namespace Vault

/-- The row of a new vault. -/
def drafted (id : Uuid) (name : String) (execution participation : Option Decimal)
    (time : Timestamp) : Vault where
  id
  name
  stage := .draft
  acquireMultiplier := .null
  adaDistribution := .null
  applyParamsResult := .null
  dispatchScript := .null
  executionThreshold := execution
  participationThreshold := participation
  failureReason := none
  createdAt := time
  updatedAt := none

/-- The row of a vault that enters a stage. -/
def entered (v : Vault) (target : VaultStage) (reason : Option String) (time : Timestamp) : Vault :=
  { v with
    stage := target
    updatedAt := some time
    failureReason := v.reasonAfter target reason }

/-- The second row differs from the first in recorded configuration only, and
keeps the acquire results where the stage fixes them. -/
structure Reconfigured (time : Timestamp) (v v' : Vault) : Prop where
  rest : v' = { v with
    acquireMultiplier := v'.acquireMultiplier
    adaDistribution := v'.adaDistribution
    applyParamsResult := v'.applyParamsResult
    dispatchScript := v'.dispatchScript
    updatedAt := some time }
  frozen : v.stage.freezesAcquireResults = true →
    v'.acquireMultiplier = v.acquireMultiplier ∧ v'.adaDistribution = v.adaDistribution

end Vault

/-! ## Proposals -/

/-- The fee for a proposal of a type, as the settings of a store have it. -/
def Settings.feeIn (s : Store) (type : ProposalType) : Except Fault Int :=
  let document := match s.settings with
    | some row => row.data.entries
    | none => []
  ((document.get? (proposalFeeKey type)).getD (.int (defaultProposalFee type))).toInteger

/-- The moves along the table of statuses, each with the one operation that makes
it. -/
inductive ProposalStatus.Step (id : Uuid) : Operation → ProposalStatus → ProposalStatus → Prop
  | feePaid : Step id (.markFeePaid id) .unpaid .upcoming
  | opened : Step id (.openVoting id) .upcoming .active
  | passed : Step id (.finalizeProposal id) .active .passed
  | rejected : Step id (.finalizeProposal id) .active .rejected
  | executed : Step id (.executeProposal id) .passed .executed

/-- The effects of executing a proposal, on the store before its own row
moves. -/
inductive Effect (time : Timestamp) (p : Proposal) (v : Vault) (s : Store) : Store → Prop
  | distribution {ids : List Uuid} {s' : Store}
      (type : p.type = .distribution)
      (script : v.dispatchScript.isNull = false)
      (read : Distribution.identifiers p.distributionAssets = .ok ids)
      (paid : PaidOut time v.id ids s s') : Effect time p v s s'
  | termination
      (type : p.type = .termination)
      (stage : v.stage = .locked) :
      Effect time p v s (s.putVault (v.entered .terminating none time))
  | none
      (type : p.type ≠ .distribution ∧ p.type ≠ .termination) : Effect time p v s s

namespace Proposal

/-- The row of a proposal that enters a status. -/
def entered (p : Proposal) (target : ProposalStatus) (time : Timestamp) : Proposal :=
  { p with status := target, updatedAt := some time }

/-- A proposal as it is made on a vault in governance with its latest
snapshot. -/
structure Submitted (c : Context) (s : Store) (v : Vault) (x : Snapshot) (p : Proposal) :
    Prop where
  vault : s.vault? v.id = some v
  governed : v.stage = .locked
  latest : Snapshot.latestOf (s.snapshotsOf v.id) = some x
  status : ∃ fee, Settings.feeIn s p.type = .ok fee ∧
    p.status = if 0 < fee then .unpaid else .upcoming
  row : ∃ draft fee fields options,
    Payload.validate draft.type draft.payload = .ok fields ∧
    (draft.type = .distribution →
      Distribution.check s v.id (Payload.value fields Distribution.field) = .ok ()) ∧
    Ballot.read draft.options = .ok options ∧
    rowOf s v.id x.id fee draft fields options c.now = .ok p

/-- How a proposal moves: its new row, and the store into which it is
written. -/
inductive Moved (c : Context) (s : Store) (p : Proposal) : Proposal → Store → Prop
  | feePaid (status : p.status = .unpaid) : Moved c s p (p.entered .upcoming c.now) s
  | opened (status : p.status = .upcoming) :
      Moved c s p
        { p.entered .active c.now with startDate := p.startDate.or (some c.now) } s
  | closed {v : Vault} {passed : Bool} {result : Option VoteResult}
      (status : p.status = .active)
      (vault : s.vault? p.vaultId = some v)
      (decision : p.decide c.configuration s v = .ok (passed, result)) :
      Moved c s p
        { p.entered (if passed then .passed else .rejected) c.now with
          endDate := p.endDate.or (some c.now) } s
  | executed {v : Vault} {s' : Store}
      (status : p.status = .passed)
      (vault : s.vault? p.vaultId = some v)
      (effect : Effect c.now p v s s') :
      Moved c s p { p.entered .executed c.now with executionDate := some c.now } s'

end Proposal

/-- A vote that is taken on a proposal. -/
structure Vote.Taken (c : Context) (s : Store) (p : Proposal) (v : Vote) : Prop where
  id : v.id = s.nextId
  proposal : v.proposalId = p.id
  createdAt : v.createdAt = c.now
  isOpen : requireOpen p c.now = .ok ()
  option : ∃ ref, resolveOption p ref = .ok v.optionId
  power : powerOn s p (some v.voterAddress) = .ok v.weight
  positive : 0 < v.weight
  fits : Column.fitsBigint v.weight = true
  first : (s.votesOn p.id).any (isFrom (some v.voterId) (some v.voterAddress)) = false

/-! ## Changes -/

/-- What an operation may do to the store. -/
inductive Operation.Does (c : Context) (s : Store) : Operation → Store → Prop
  | unchanged {op : Operation} : Does c s op s
  | vaultAdded {op : Operation} (name : String) {execution participation : Option Decimal}
      (storedExecution : ∃ d, Column.optionalNumeric Column.moneyPlaces d = .ok execution)
      (storedParticipation : ∃ d, Column.optionalNumeric Column.moneyPlaces d = .ok participation) :
      Does c s op (s.addVault (Vault.drafted s.nextId name execution participation c.now))
  | vaultAdvanced {op : Operation} {v : Vault} {target : VaultStage} (reason : Option String)
      (found : s.vault? v.id = some v)
      (edge : target ∈ v.stage.next)
      (ready : v.missingFor target = []) :
      Does c s op ((s.putVault (v.entered target reason c.now)).settleAssets v.id target c.now)
  | vaultRecorded {op : Operation} {v v' : Vault}
      (found : s.vault? v.id = some v)
      (row : Vault.Reconfigured c.now v v') : Does c s op (s.putVault v')
  | assetAdded {op : Operation} {a : Asset} (row : Asset.Recorded c s a) :
      Does c s op (s.addAsset a)
  | assetMoved {a : Asset} {target : AssetStatus}
      (found : s.asset? a.id = some a)
      (edge : target ∈ a.status.next) :
      Does c s (.transitionAsset a.id target) (s.putAsset (a.moved target c.now))
  | assetsMoved {op : Operation} (vaultId : Uuid) {source target : AssetStatus}
      (step : AssetStatus.BulkStep vaultId op source target) :
      Does c s op (s.moveHeld vaultId source target c.now)
  | assetsPaidOut {vaultId : Uuid} {ids : List Uuid} {s' : Store}
      (paid : PaidOut c.now vaultId ids s s') : Does c s (.distributeAssets vaultId ids) s'
  | assetEdited {op : Operation} {a a' : Asset}
      (found : s.asset? a.id = some a)
      (row : Asset.Edited c.now a a') : Does c s op (s.putAsset a')
  | snapshotAdded {op : Operation} {v : Vault} {balances : OrderedMap Json}
      {texts : OrderedMap String}
      (assetId : String)
      (found : s.vault? v.id = some v)
      (governed : v.stage = .locked)
      (canonical : Snapshot.normalizeBalances balances = .ok texts) :
      Does c s op
        (s.addSnapshot ⟨s.nextId, v.id, assetId, Snapshot.balanceDocument texts, c.now⟩)
  | proposalAdded {v : Vault} {x : Snapshot} {p : Proposal} {draft : Proposal.Draft}
      (type : draft.type = p.type)
      (row : Proposal.Submitted c s v x p) :
      Does c s (.createProposal v.id draft) (s.addProposal p)
  | proposalMoved {op : Operation} {p p' : Proposal} {s' : Store}
      (found : s.proposal? p.id = some p)
      (step : ProposalStatus.Step p.id op p.status p'.status)
      (moved : Proposal.Moved c s p p' s') : Does c s op (s'.putProposal p')
  | voteAdded {op : Operation} {p : Proposal} {v : Vote}
      (found : s.proposal? p.id = some p)
      (taken : Vote.Taken c s p v) : Does c s op (s.addVote v)
  | claimsChanged {op : Operation} (claims : List Claim) : Does c s op { s with claims }
  | settingsChanged {op : Operation} (row : SettingsRow) : Does c s op (s.putSettings row)

/-- What some operation may do to the store. -/
def Change (c : Context) (s s' : Store) : Prop := ∃ op : Operation, op.Does c s s'

end VaultGovernance
