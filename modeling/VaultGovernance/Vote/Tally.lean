import VaultGovernance.Action
import VaultGovernance.Store.Column

/-!
# VaultGovernance.Vote.Tally

Counting votes.  The rows of a tally are the ballot in order, each with the
number and the weight of the votes that name it.  Weights are added up in
64 bits: a sum that leaves them fails the whole count.
-/

namespace VaultGovernance

namespace Proposal

open VaultGovernance.Action

/-- What messages call a proposal. -/
def entity : String := "proposal"

/-- The proposal with an identifier. -/
def find (id : Uuid) : Action Proposal := do
  match (← store).proposal? id with
  | some p => done p
  | none => refuse (.notFound entity id.toJson)

end Proposal

namespace Vote

open VaultGovernance.Action

/-- The sum of weights, as long as every partial sum fits 64 bits. -/
def boundedSum (weights : List Int) : Option Int :=
  weights.foldlM (fun sum w => if Column.fitsBigint (sum + w) then some (sum + w) else none) 0

/-- The weights of the votes that name an entry. -/
def weightsFor (votes : List Vote) (optionId : String) : List Int :=
  (votes.filter fun v => v.optionId = optionId).map (·.weight)

/-- Whether the weights of every entry that is named can be added up. -/
def canSum (votes : List Vote) : Bool :=
  votes.all fun v => (boundedSum (weightsFor votes v.optionId)).isSome

/-- The rows of a ballot for some votes. -/
def rowsFor (votes : List Vote) (ballot : List (String × String)) : List TallyRow :=
  ballot.map fun entry =>
    let weights := weightsFor votes entry.1
    ⟨entry.1, entry.2, weights.length, weights.foldr (· + ·) 0⟩

/-- The tally of a proposal in a store. -/
def tallyOf (s : Store) (p : Proposal) : Except Fault (List TallyRow) :=
  let votes := s.votesOn p.id
  if canSum votes then .ok (rowsFor votes p.ballot) else .error .queryFailed

/-- The tally of the proposal with an identifier. -/
def tally (proposalId : Uuid) : Action (List TallyRow) := do
  let proposal ← Proposal.find proposalId
  ofExcept (tallyOf (← store) proposal)

end Vote

end VaultGovernance
