import VaultGovernance.Vote.Tally

/-!
# VaultGovernance.Vote.Casting

Casting a vote.  A vote is taken while voting is open, for an entry of the
ballot, from an address with a positive balance in the proposal's snapshot, and
once per voter and per address.
-/

namespace VaultGovernance

namespace Vote

open VaultGovernance.Action

/-- The text of a value that may be missing, as a value. -/
def optionalText (t : Option String) : Json := Json.ofOption .str t

/-- The entry of the ballot that a reference names: the identifier of an option
of the proposal's own, or a value of the fixed ballot, each spelled exactly. -/
def resolveOption (p : Proposal) (ref : Json) : Except Fault String :=
  if p.hasCustomOptions then
    match p.options.find? fun o => o.id.text = ref.display with
    | some o => .ok o.id.text
    | none => .error (.refusal (.unknownVoteOption p.id.toJson ref))
  else
    match ref with
    | .str s =>
      if p.fixedBallot.contains s then .ok s
      else .error (.refusal (.invalidVoteValue p.id.toJson ref p.fixedBallot))
    | _ => .error (.refusal (.invalidVoteValue p.id.toJson ref p.fixedBallot))

/-- Refuses a proposal whose voting is not open. -/
def requireOpen (p : Proposal) (now : Timestamp) : Except Fault Unit :=
  if p.status = .active then
    if p.votingClosed now then
      .error (.refusal (.proposalNotActive p.id.toJson (Choice.toJson p.status) p.endDate))
    else .ok ()
  else .error (.refusal (.proposalNotActive p.id.toJson (Choice.toJson p.status) none))

/-- The voting power of an address on a proposal: its balance in the bound
snapshot. -/
def powerOn (s : Store) (p : Proposal) (address : Option String) : Except Fault Int :=
  match s.snapshotOf? p with
  | some x => x.votingPower address
  | none => .ok 0

/-- Whether a vote is from a voter or from an address. -/
def isFrom (voterId address : Option String) (v : Vote) : Bool :=
  some v.voterId = voterId || some v.voterAddress = address

/-- Casts a vote. -/
def cast (proposalId : Uuid) (voterId : Option String) (optionRef : Json)
    (address : Option String) : Action Vote := do
  let proposal ← Proposal.find proposalId
  ofExcept (requireOpen proposal (← now))
  let optionId ← ofExcept (resolveOption proposal optionRef)
  let s ← store
  let weight ← ofExcept (powerOn s proposal address)
  let duplicate : DomainError :=
    .duplicateVote proposalId.toJson (optionalText voterId) (optionalText address)
  if weight ≤ 0 then refuse (.noVotingPower proposal.id.toJson (optionalText address))
  else if (s.votesOn proposal.id).any (isFrom voterId address) then refuse duplicate
  else
    let weight ← ofExcept (Column.bigint weight)
    match voterId, address with
    | some voterId, some voterAddress =>
      let vote : Vote := {
        id := s.nextId
        proposalId := proposal.id
        voterId
        voterAddress
        weight
        optionId
        createdAt := ← now }
      modify fun s => s.addVote vote
      record (.voteCast proposal.hasCustomOptions)
      done vote
    | _, _ => refuse duplicate

end Vote

end VaultGovernance
