import VaultGovernance.Proposal.Basic

/-!
# VaultGovernance.Proposal.Payload

The payload of a proposal: which fields its type requires and which it allows.
Only populated fields count; both what is missing and what is not allowed are
reported at once.
-/

namespace VaultGovernance

/-- The fields a proposal type asks for. -/
structure PayloadRule where
  /-- Fields that must all be there. -/
  requiredAll : List String
  /-- Fields of which at least one must be there, if there are any. -/
  requiredAny : List String

namespace PayloadRule

/-- The fields a payload may have. -/
def allowed (r : PayloadRule) : List String := r.requiredAll ++ r.requiredAny

/-- The rule of a proposal type. -/
def of : ProposalType → PayloadRule
  | .staking => ⟨[], ["fungible_tokens", "non_fungible_tokens"]⟩
  | .distribution => ⟨["distribution_assets"], []⟩
  | .burning => ⟨["burn_assets"], []⟩
  | .marketplaceAction => ⟨["marketplace_actions"], []⟩
  | .termination => ⟨["termination_reason", "termination_date"], []⟩
  | .expansion => ⟨[], []⟩

/-- The required fields that are not among the given ones. -/
def missing (r : PayloadRule) (given : List String) : List String :=
  r.requiredAll.filter (fun f => !given.contains f) ++
    (if r.requiredAny.any given.contains then [] else r.requiredAny)

/-- The given fields that are not allowed. -/
def forbidden (r : PayloadRule) (given : List String) : List String :=
  given.filter fun f => !r.allowed.contains f

end PayloadRule

namespace Payload

/-- The fields of a payload that count. -/
def populated (payload : OrderedMap Json) : OrderedMap Json :=
  payload.filter fun e => e.2.isPopulated

/-- The populated fields of a payload that fits its type. -/
def validate (type : ProposalType) (payload : OrderedMap Json) : Except Fault (OrderedMap Json) :=
  let fields := populated payload
  let missing := (PayloadRule.of type).missing fields.keys
  let forbidden := (PayloadRule.of type).forbidden fields.keys
  if missing.isEmpty && forbidden.isEmpty then .ok fields
  else .error (.refusal (.invalidPayload (Choice.toJson type) missing forbidden []))

/-- The value of a field; null when it is not there. -/
def value (fields : OrderedMap Json) (name : String) : Json :=
  (fields.get? name).getD .null

end Payload

end VaultGovernance
