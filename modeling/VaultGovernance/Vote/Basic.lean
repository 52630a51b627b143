import VaultGovernance.Proposal.Basic

/-!
# VaultGovernance.Vote.Basic

Votes and what is counted of them.  A vote weighs what its address held in the
proposal's snapshot, and names an entry of the ballot by its text.
-/

namespace VaultGovernance

/-- A vote. -/
structure Vote where
  id : Uuid
  proposalId : Uuid
  voterId : String
  voterAddress : String
  weight : Int
  /-- The entry of the ballot: a fixed value, or the text of an option's
  identifier. -/
  optionId : String
  createdAt : Timestamp
deriving DecidableEq, Inhabited

/-- One entry of the ballot with its votes and their weight. -/
structure TallyRow where
  optionId : String
  label : String
  count : Int
  weight : Int
deriving DecidableEq, Inhabited

namespace TallyRow

/-- The rows with a positive weight. -/
def voted (rows : List TallyRow) : List TallyRow :=
  rows.filter fun r => 0 < r.weight

/-- The largest weight, zero at least. -/
def topWeight (rows : List TallyRow) : Int :=
  rows.foldl (fun top r => max top r.weight) 0

/-- The row with the largest weight; none when nobody voted or the lead is
tied. -/
def leading? (rows : List TallyRow) : Option TallyRow :=
  match (voted rows).filter fun r => r.weight = topWeight rows with
  | [r] => some r
  | _ => none

/-- The weight of all rows together. -/
def totalWeight (rows : List TallyRow) : Int :=
  rows.foldr (fun r total => r.weight + total) 0

end TallyRow

end VaultGovernance
