import VaultGovernance.Proposal.Basic

/-!
# VaultGovernance.Settings.Basic

The settings document: one row that holds every tunable under a key.  The fees
of governance have defaults, which count where the document has no value.
-/

namespace VaultGovernance

/-- The settings row. -/
structure SettingsRow where
  data : Json
  createdAt : Timestamp
  updatedAt : Option Timestamp
deriving DecidableEq, Inhabited

namespace Settings

/-- The identifier of the settings row. -/
def rowId : Uuid := ⟨0x470ba027d444404da377b41257d0efe7⟩

/-- The key of the fee for a vote. -/
def votingFeeKey : String := "governance_fee_voting"

/-- The key of the fee for a proposal of a type. -/
def proposalFeeKey (type : ProposalType) : String :=
  "governance_fee_proposal_" ++ Choice.text type

/-- The default fee for a proposal of a type. -/
def defaultProposalFee : ProposalType → Int
  | .staking => 5000000
  | .distribution => 5000000
  | .termination => 10000000
  | .burning => 3000000
  | .marketplaceAction => 5000000
  | .expansion => 10000000

/-- The default fee for a vote. -/
def defaultVotingFee : Int := 0

/-- The defaults in order. -/
def defaults : OrderedMap Json :=
  (Choice.all.map fun t => (proposalFeeKey t, .int (defaultProposalFee t))) ++
    [(votingFeeKey, .int defaultVotingFee)]

end Settings

end VaultGovernance
