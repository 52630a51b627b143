import VaultGovernance.Claim.Normalization
import VaultGovernance.Proposal.Lifecycle
import VaultGovernance.Vote.Casting

/-!
# VaultGovernance.Proofs.Operation

The operations that the service offers, as data, and runs of them.  A call is an
operation at some time under some configuration; it is performed as one
transaction.  The clock of a run may stand still or go back, and the
configuration may change from call to call.
-/

namespace VaultGovernance

/-- An operation of the service with its arguments. -/
inductive Operation where
  | createVault (name : Option String) (execution participation : Option Decimal)
  | getVault (id : Uuid)
  | advanceVault (id : Uuid) (target : VaultStage) (reason : Option String)
  | failVault (id : Uuid) (reason : Option String)
  | recordApplyParams (id : Uuid) (result : Json)
  | recordDispatchScript (id : Uuid) (script : Json)
  | recordAcquireResults (id : Uuid) (multiplier distribution : Json)
  | createAsset (vaultId : Uuid) (draft : Asset.Draft)
  | getAsset (id : Uuid)
  | listAssets (vaultId : Uuid) (status : Option AssetStatus)
  | transitionAsset (id : Uuid) (target : AssetStatus)
  | updateAsset (id : Uuid) (fields : OrderedMap Json)
  | lockPendingAssets (vaultId : Uuid)
  | releaseLockedAssets (vaultId : Uuid)
  | distributeAssets (vaultId : Uuid) (ids : List Uuid)
  | createSnapshot (vaultId : Uuid) (assetId : Option String) (balances : OrderedMap Json)
  | latestSnapshot (vaultId : Uuid)
  | listSnapshots (vaultId : Uuid)
  | createProposal (vaultId : Uuid) (draft : Proposal.Draft)
  | getProposal (id : Uuid)
  | proposalFee (type : ProposalType)
  | markFeePaid (id : Uuid)
  | openVoting (id : Uuid)
  | finalizeProposal (id : Uuid)
  | executeProposal (id : Uuid)
  | castVote (proposalId : Uuid) (voterId : Option String) (optionRef : Json)
      (address : Option String)
  | tally (proposalId : Uuid)
  | getClaim (id : Uuid)
  | normalizeClaims (limit : Option Int) (dryRun : Bool)
  | ensureSettings
  | getSetting (key : String) (default : Json)
  | getAllSettings
  | updateSettings (values : OrderedMap Json)
  | setSetting (key : String) (value : Json)
  | deleteSetting (key : String)
  | votingFee
  | seedSettings

/-- An action without its result. -/
def Action.discarded {α : Type} (act : Action α) : Action Unit := act.andThen fun _ => .done ()

/-- What an operation does. -/
def Operation.action : Operation → Action Unit
  | createVault name execution participation =>
    (Vault.create name execution participation).discarded
  | getVault id => (Vault.find id).discarded
  | advanceVault id target reason => (Vault.advance id target reason).discarded
  | failVault id reason => (Vault.markFailed id reason).discarded
  | recordApplyParams id result => (Vault.recordApplyParams id result).discarded
  | recordDispatchScript id script => (Vault.recordDispatchScript id script).discarded
  | recordAcquireResults id multiplier distribution =>
    (Vault.recordAcquireResults id multiplier distribution).discarded
  | createAsset vaultId draft => (Asset.create vaultId draft).discarded
  | getAsset id => (Asset.find id).discarded
  | listAssets vaultId status => (Asset.list vaultId status).discarded
  | transitionAsset id target => (Asset.transition id target).discarded
  | updateAsset id fields => (Asset.update id fields).discarded
  | lockPendingAssets vaultId => (Asset.lockPending vaultId).discarded
  | releaseLockedAssets vaultId => (Asset.releaseLocked vaultId).discarded
  | distributeAssets vaultId ids => (Asset.distribute vaultId ids).discarded
  | createSnapshot vaultId assetId balances =>
    (Snapshot.create vaultId assetId balances).discarded
  | latestSnapshot vaultId => (Snapshot.latest vaultId).discarded
  | listSnapshots vaultId => (Snapshot.list vaultId).discarded
  | createProposal vaultId draft => (Proposal.create vaultId draft).discarded
  | getProposal id => (Proposal.find id).discarded
  | proposalFee type => (Settings.proposalFee type).discarded
  | markFeePaid id => (Proposal.markFeePaid id).discarded
  | openVoting id => (Proposal.openVoting id).discarded
  | finalizeProposal id => (Proposal.finalize id).discarded
  | executeProposal id => (Proposal.execute id).discarded
  | castVote proposalId voterId optionRef address =>
    (Vote.cast proposalId voterId optionRef address).discarded
  | tally proposalId => (Vote.tally proposalId).discarded
  | getClaim id => (Claim.get id).discarded
  | normalizeClaims limit dryRun => (Claim.backfill limit dryRun).discarded
  | ensureSettings => Settings.ensure.discarded
  | getSetting key default => (Settings.get key default).discarded
  | getAllSettings => Settings.getAll.discarded
  | updateSettings values => (Settings.update values).discarded
  | setSetting key value => (Settings.set key value).discarded
  | deleteSetting key => (Settings.delete key).discarded
  | votingFee => Settings.votingFee.discarded
  | seedSettings => Settings.seed.discarded

/-- An operation at a time, under a configuration. -/
structure Call where
  context : Context
  operation : Operation

namespace World

/-- The world after a call: a transaction, undone in the store when it fails. -/
def called (w : World) (k : Call) : World :=
  (Action.transaction k.operation.action k.context w).2

/-- The world after calls in order. -/
def after (w : World) (calls : List Call) : World := calls.foldl called w

@[simp] theorem after_nil (w : World) : w.after [] = w := rfl

@[simp] theorem after_cons (w : World) (k : Call) (calls : List Call) :
    w.after (k :: calls) = (w.called k).after calls := rfl

theorem after_append (w : World) (earlier later : List Call) :
    w.after (earlier ++ later) = (w.after earlier).after later :=
  List.foldl_append

end World

/-- The store that calls lead to from an empty one. -/
def storeAfter (calls : List Call) : Store := (World.after {} calls).store

/-! ## A run

A vault with one asset is locked, and its members vote to pay the asset out.
The rows take the numbers of the order in which they are made. -/

namespace Sample

/-- A call under the default configuration. -/
def call (second : Int) (operation : Operation) : Call :=
  ⟨⟨⟨second * Timestamp.second⟩, {}⟩, operation⟩

/-- The only vault. -/
def vaultId : Uuid := .ofSerial 1

/-- Its only asset. -/
def assetId : Uuid := .ofSerial 2

/-- The proposal to pay the asset out. -/
def proposalId : Uuid := .ofSerial 4

/-- What is proposed. -/
def draft : Proposal.Draft where
  type := .distribution
  creatorId := some "alice"
  title := some "Pay out"
  payload := [(Distribution.field, .arr [.str assetId.text])]

/-- A vault is locked and a proposal is opened for voting. -/
def opening : List Call :=
  [call 1 (.createVault (some "Treasury") none none),
    call 2 (.createAsset vaultId { policyId := some "policy", assetName := some "token" }),
    call 3 (.recordApplyParams vaultId (.str "applied")),
    call 4 (.advanceVault vaultId .published none),
    call 5 (.advanceVault vaultId .contribution none),
    call 6 (.advanceVault vaultId .acquire none),
    call 7 (.recordAcquireResults vaultId (.arr []) (.arr [])),
    call 8 (.advanceVault vaultId .locked none),
    call 9 (.recordDispatchScript vaultId (.str "script")),
    call 10 (.createSnapshot vaultId (some "shares") [("alice", .int 60), ("bob", .int 40)]),
    call 11 (.createProposal vaultId draft),
    call 12 (.markFeePaid proposalId),
    call 13 (.openVoting proposalId)]

/-- Both members vote. -/
def voting : List Call :=
  [call 14 (.castVote proposalId (some "Alice") (.str "yes") (some "alice")),
    call 15 (.castVote proposalId (some "Bob") (.str "no") (some "bob"))]

/-- The proposal passes and is executed. -/
def closing : List Call :=
  [call 16 (.finalizeProposal proposalId), call 17 (.executeProposal proposalId)]

end Sample

end VaultGovernance
