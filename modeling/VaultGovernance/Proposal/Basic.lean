import VaultGovernance.Choice

/-!
# VaultGovernance.Proposal.Basic

Proposals of a vault's governance.  A proposal waits for its fee, then for its
voting to open, is decided by the votes, and is executed when it passed.  Its
payload, its ballot and its snapshot are fixed when it is made.
-/

namespace VaultGovernance

/-- What a proposal asks the vault to do. -/
inductive ProposalType where
  | staking
  | distribution
  | termination
  | burning
  | marketplaceAction
  | expansion
deriving DecidableEq, Inhabited

instance : Choice ProposalType where
  name := "ProposalType"
  all := [.staking, .distribution, .termination, .burning, .marketplaceAction, .expansion]
  text
    | .staking => "staking"
    | .distribution => "distribution"
    | .termination => "termination"
    | .burning => "burning"
    | .marketplaceAction => "marketplace_action"
    | .expansion => "expansion"

/-- Where a proposal stands. -/
inductive ProposalStatus where
  /-- Waiting for the governance fee. -/
  | unpaid
  | upcoming
  /-- Open for voting. -/
  | active
  | passed
  | rejected
  | executed
deriving DecidableEq, Inhabited

namespace ProposalStatus

instance : Choice ProposalStatus where
  name := "ProposalStatus"
  all := [unpaid, upcoming, active, passed, rejected, executed]
  text
    | unpaid => "unpaid"
    | upcoming => "upcoming"
    | active => "active"
    | passed => "passed"
    | rejected => "rejected"
    | executed => "executed"

/-- The statuses that may follow a status. -/
def next : ProposalStatus → List ProposalStatus
  | unpaid => [upcoming]
  | upcoming => [active]
  | active => [passed, rejected]
  | passed => [executed]
  | rejected => []
  | executed => []

end ProposalStatus

/-- One entry of a proposal's own ballot. -/
structure VoteOption where
  id : Uuid
  label : String
  order : Int
deriving DecidableEq, Inhabited

/-- A proposal, with the options of its own ballot in the order they were
given. -/
structure Proposal where
  id : Uuid
  vaultId : Uuid
  snapshotId : Option Uuid
  creatorId : String
  title : String
  description : String
  status : ProposalStatus
  type : ProposalType
  startDate : Option Timestamp
  endDate : Option Timestamp
  executionDate : Option Timestamp
  fungibleTokens : Json
  nonFungibleTokens : Json
  distributionAssets : Json
  burnAssets : Json
  marketplaceActions : Json
  terminationReason : Option String
  terminationDate : Option Timestamp
  hasCustomOptions : Bool
  /-- Whether the fixed ballot also accepts an abstention. -/
  abstain : Option Bool
  options : List VoteOption
  createdAt : Timestamp
  updatedAt : Option Timestamp
deriving DecidableEq, Inhabited

/-- The values of the fixed ballot. -/
inductive VoteChoice where
  | yes
  | no
  | abstain
deriving DecidableEq, Inhabited

instance : Choice VoteChoice where
  name := "VoteChoice"
  all := [.yes, .no, .abstain]
  text
    | .yes => "yes"
    | .no => "no"
    | .abstain => "abstain"

namespace Proposal

/-- The values the fixed ballot of a proposal accepts, in order. -/
def fixedBallot (p : Proposal) : List String :=
  if p.abstain = some true then ["yes", "no", "abstain"] else ["yes", "no"]

/-- The options in the order they are shown with the proposal: by position,
and in the order they were given where positions are equal. -/
def shownOptions (p : Proposal) : List VoteOption :=
  p.options.mergeSort fun a b => a.order ≤ b.order

/-- Whether one option comes before another on the ballot that is counted: by
position, then by identifier. -/
def optionLe (a b : VoteOption) : Bool :=
  a.order < b.order || (a.order = b.order && a.id.le b.id)

/-- The options in the order in which votes are counted. -/
def countedOptions (p : Proposal) : List VoteOption :=
  p.options.mergeSort optionLe

/-- The entries of the ballot in the order in which votes are counted: what a
vote stores, and the label. -/
def ballot (p : Proposal) : List (String × String) :=
  if p.hasCustomOptions then p.countedOptions.map fun o => (o.id.text, o.label)
  else p.fixedBallot.map fun v => (v, v)

/-- Whether voting has ended at a point in time. -/
def votingClosed (p : Proposal) (now : Timestamp) : Bool :=
  match p.endDate with
  | none => false
  | some e => e.micros < now.micros

end Proposal

end VaultGovernance
