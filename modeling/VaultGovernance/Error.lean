import VaultGovernance.Json.Literal
import VaultGovernance.Timestamp
import VaultGovernance.Uuid

/-!
# VaultGovernance.Error

What can go wrong.  A `DomainError` is a refusal that callers are meant to see:
it has a stable code, a message and details.  A `Fault` is any way an operation
can end without a result: a refusal, or a cause below the domain such as an
integer that does not fit its column.
-/

namespace VaultGovernance

/-- Texts in increasing order. -/
def sortTexts (texts : List String) : List String :=
  texts.mergeSort fun a b => a ≤ b

/-- A refusal with its cause.  Values that callers may give freely are kept as
they were given. -/
inductive DomainError where
  /-- A refusal with a message of its own. -/
  | general (message : String) (details : OrderedMap Json)
  /-- No row has this identifier. -/
  | notFound (entity : String) (id : Json)
  /-- The change is not an edge of the transition table, or its condition does
  not hold. -/
  | invalidTransition (entity : String) (id current target : Json) (reason : Option String)
      (extra : OrderedMap Json)
  /-- The field is fixed once set. -/
  | immutableField (entity : String) (id : Json) (field : String)
  /-- The payload does not fit the proposal type. -/
  | invalidPayload (proposalType : Json) (missing forbidden : List String)
      (invalid : OrderedMap Json)
  /-- The proposal's own ballot does not have the option. -/
  | unknownVoteOption (proposalId optionRef : Json)
  /-- The fixed ballot does not have the value. -/
  | invalidVoteValue (proposalId value : Json) (allowed : List String)
  /-- The voter or the address has voted already. -/
  | duplicateVote (proposalId voterId voterAddress : Json)
  /-- Voting is not open, or its end has passed. -/
  | proposalNotActive (proposalId status : Json) (endDate : Option Timestamp)
  /-- The vault has no balance snapshot. -/
  | snapshotRequired (vaultId : Json)
  /-- The address holds nothing in the snapshot. -/
  | noVotingPower (proposalId voterAddress : Json)
  /-- A legacy amount is not a number. -/
  | invalidClaimAmount (claimId : Json) (field : String) (value : Json)
  /-- The store refused a write. -/
  | constraintViolation (constraint : String) (message : Option String) (extra : OrderedMap Json)
deriving DecidableEq

namespace DomainError

/-- The stable code. -/
def code : DomainError → String
  | general .. => "DOMAIN_ERROR"
  | notFound .. => "NOT_FOUND"
  | invalidTransition .. => "INVALID_TRANSITION"
  | immutableField .. => "IMMUTABLE_FIELD"
  | invalidPayload .. => "INVALID_PAYLOAD_FOR_TYPE"
  | unknownVoteOption .. => "UNKNOWN_VOTE_OPTION"
  | invalidVoteValue .. => "INVALID_VOTE_VALUE"
  | duplicateVote .. => "DUPLICATE_VOTE"
  | proposalNotActive .. => "PROPOSAL_NOT_ACTIVE"
  | snapshotRequired .. => "SNAPSHOT_REQUIRED"
  | noVotingPower .. => "NO_VOTING_POWER"
  | invalidClaimAmount .. => "INVALID_CLAIM_AMOUNT"
  | constraintViolation .. => "CONSTRAINT_VIOLATION"

/-- Texts joined by a comma and a blank. -/
def commaList (texts : List String) : String :=
  ", ".intercalate texts

/-- A value between single quotes, shown for itself. -/
def named (j : Json) : String := "'" ++ j.display ++ "'"

/-- What is wrong with a payload, part by part. -/
def payloadParts (missing forbidden : List String) (invalid : OrderedMap Json) : List String :=
  (if missing.isEmpty then [] else ["missing " ++ commaList (sortTexts missing)]) ++
  (if forbidden.isEmpty then [] else ["forbidden " ++ commaList (sortTexts forbidden)]) ++
  (if invalid.isEmpty then [] else ["invalid " ++ commaList (sortTexts invalid.keys)])

/-- The message for people. -/
def message : DomainError → String
  | general message _ => message
  | notFound entity id => entity ++ " " ++ named id ++ " not found"
  | invalidTransition entity id current target reason _ =>
    entity ++ " " ++ named id ++ " cannot move from " ++ named current ++ " to " ++ named target ++
      (match reason with
        | some r => if r = "" then "" else ": " ++ r
        | none => "")
  | immutableField entity id field =>
    entity ++ " " ++ named id ++ " field '" ++ field ++ "' cannot be modified"
  | invalidPayload type missing forbidden invalid =>
    "Invalid payload for " ++ named type ++ " proposal: " ++
      "; ".intercalate (payloadParts missing forbidden invalid)
  | unknownVoteOption proposal option =>
    "Proposal " ++ named proposal ++ " has no vote option " ++ named option
  | invalidVoteValue proposal value allowed =>
    named value ++ " is not a valid vote for proposal " ++ named proposal ++
      " (allowed: " ++ commaList allowed ++ ")"
  | duplicateVote proposal voter _ =>
    "Voter " ++ named voter ++ " already voted on proposal " ++ named proposal
  | proposalNotActive proposal status endDate =>
    match endDate with
    | some t => "Proposal " ++ named proposal ++ " voting period ended at " ++ t.utcText
    | none =>
      "Proposal " ++ named proposal ++ " is not open for voting (status: " ++ status.display ++ ")"
  | snapshotRequired vault => "Vault " ++ named vault ++ " has no snapshot for voting power"
  | noVotingPower proposal address =>
    "Address " ++ named address ++ " has no voting power for proposal " ++ named proposal
  | invalidClaimAmount claim field value =>
    "Claim " ++ named claim ++ " has a non-numeric " ++ field ++ ": " ++ value.literal
  | constraintViolation constraint message _ =>
    match message with
    | some m => if m = "" then "Constraint violation: " ++ constraint else m
    | none => "Constraint violation: " ++ constraint

/-- A value as text. -/
def shown (j : Json) : Json := .str j.display

/-- Texts as a list value. -/
def textList (texts : List String) : Json := .arr (texts.map .str)

/-- The details for programs. -/
def details : DomainError → OrderedMap Json
  | general _ details => details
  | notFound entity id => [("entity", .str entity), ("entity_id", shown id)]
  | invalidTransition entity id current target _ extra =>
    OrderedMap.merge
      [("entity", .str entity), ("entity_id", shown id), ("from", current), ("to", target)] extra
  | immutableField entity id field =>
    [("entity", .str entity), ("entity_id", shown id), ("field", .str field)]
  | invalidPayload type missing forbidden invalid =>
    [("proposal_type", type), ("missing", textList (sortTexts missing)),
      ("forbidden", textList (sortTexts forbidden))] ++
      (if invalid.isEmpty then [] else [("invalid", .obj invalid)])
  | unknownVoteOption proposal option =>
    [("proposal_id", shown proposal), ("vote_option_id", shown option)]
  | invalidVoteValue proposal value allowed =>
    [("proposal_id", shown proposal), ("vote_option_id", shown value),
      ("allowed", textList allowed)]
  | duplicateVote proposal voter address =>
    [("proposal_id", shown proposal), ("voter_id", shown voter)] ++
      (if address.isNull then [] else [("voter_address", address)])
  | proposalNotActive proposal status endDate =>
    [("proposal_id", shown proposal), ("status", status)] ++
      (match endDate with
        | some t => [("end_date", .str t.utcText)]
        | none => [])
  | snapshotRequired vault => [("vault_id", shown vault)]
  | noVotingPower proposal address =>
    [("proposal_id", shown proposal), ("voter_address", shown address)]
  | invalidClaimAmount claim field value =>
    [("claim_id", shown claim), ("field", .str field), ("value", shown value)]
  | constraintViolation constraint _ extra =>
    OrderedMap.merge [("constraint", .str constraint)] extra

/-- The HTTP status that a refusal is answered with. -/
def httpStatus : DomainError → Nat
  | general .. => 500
  | notFound .. => 404
  | invalidTransition .. | immutableField .. | duplicateVote .. | proposalNotActive ..
  | snapshotRequired .. | constraintViolation .. => 409
  | invalidPayload .. | unknownVoteOption .. | invalidVoteValue .. | noVotingPower ..
  | invalidClaimAmount .. => 422

/-- Code, message and details together. -/
def toEntries (e : DomainError) : OrderedMap Json :=
  [("code", .str e.code), ("message", .str e.message), ("details", .obj e.details)]

end DomainError

/-- An identifier as a value. -/
def Uuid.toJson (u : Uuid) : Json := .str u.text

/-- Any way an operation ends without a result. -/
inductive Fault where
  /-- A refusal. -/
  | refusal (e : DomainError)
  /-- A value is not acceptable, for the reason given. -/
  | badValue (message : String)
  /-- An object lacks a key. -/
  | missingKey (key : String)
  /-- A value has a kind that the operation cannot work with. -/
  | wrongType
  /-- A number does not fit where it goes. -/
  | outOfRange
  /-- The store could not evaluate a query. -/
  | queryFailed
  /-- The store could not take a value for a column. -/
  | unstorable
  /-- The store refused a row. -/
  | integrity (constraint : String)
  /-- Decimal arithmetic went beyond its largest exponent. -/
  | decimalOverflow
  /-- A configuration value was refused. -/
  | invalidConfiguration
  /-- A migration command cannot be carried out. -/
  | badCommand
deriving DecidableEq

namespace Fault

/-- What a fault becomes at the edge of a transaction: a row refused by the
store is a refusal with the constraint's name. -/
def atCommit : Fault → Fault
  | integrity constraint => refusal (.constraintViolation constraint none [])
  | f => f

/-- The text that shows a missing key. -/
def keyText (key : String) : String := quoted key

end Fault

end VaultGovernance
