import VaultGovernance.Number.Decimal
import VaultGovernance.Vote.Basic

/-!
# VaultGovernance.Vote.Result

The outcome of a fixed ballot.  Participation is the weight cast in percent of
the total voting power, the execution share is yes in percent of yes and no;
both are quotients rounded to a double, times one hundred, rounded again, and
compared with thresholds that are doubles too.
-/

namespace VaultGovernance

/-- A threshold in percent, as it is configured. -/
inductive Threshold where
  | decimal (d : Decimal)
  | whole (n : Int)
  | binary (x : Binary64)
deriving DecidableEq

namespace Threshold

/-- The double a threshold is compared as. -/
def toBinary64 : Threshold → Except Fault Binary64
  | decimal (.nan _ true _) => .error (.badValue "cannot convert signaling NaN to float")
  | decimal d => .ok d.toBinary64
  | whole n =>
    let x := Binary64.ofInt n
    if x.isFinite then .ok x else .error .outOfRange
  | binary x => .ok x

end Threshold

/-- The weighted outcome of a fixed ballot. -/
structure VoteResult where
  yesVotes : Int
  noVotes : Int
  abstainVotes : Int
  /-- Yes and no together. -/
  totalVotes : Int
  totalVotesIncludingAbstain : Int
  yesVotePercent : Int
  noVotePercent : Int
  abstainVotePercent : Int
  participationPercent : Binary64
  meetsParticipationThreshold : Bool
  meetsExecutionThreshold : Bool
  isSuccessful : Bool
deriving DecidableEq

namespace VoteResult

/-- The share `a / b` in percent. -/
def percent (a b : Int) : Except Fault Binary64 :=
  (Binary64.divInt? a b).elim (.error .outOfRange) fun q => .ok (q.mul .hundred)

/-- The weight of a ballot entry; of rows with one identifier the last
counts. -/
def weightOf (rows : List TallyRow) (choice : VoteChoice) : Int :=
  match rows.reverse.find? fun r => r.optionId = Choice.text choice with
  | some r => r.weight
  | none => 0

/-- The divisor of the whole percentages: the voting power if there is any,
else the yes and no votes, else one. -/
def percentBase (power : Option Int) (totalVotes : Int) : Int :=
  match power with
  | some p => if p ≠ 0 then p else if 0 < totalVotes then totalVotes else 1
  | none => if 0 < totalVotes then totalVotes else 1

/-- The outcome for given weights. -/
def ofWeights (yes no abstain : Int) (execution participation : Threshold) (power : Option Int) :
    Except Fault VoteResult := do
  let total := yes + no
  let totalAll := total + abstain
  let base := percentBase power total
  let participationPercent ←
    match power with
    | some p => if 0 < p then percent totalAll p else .ok .hundred
    | none => .ok .hundred
  let meetsParticipation := (← participation.toBinary64).le participationPercent
  let share ← if 0 < total then percent yes total else .ok .zero
  let meetsExecution := (← execution.toBinary64).le share
  return {
    yesVotes := yes
    noVotes := no
    abstainVotes := abstain
    totalVotes := total
    totalVotesIncludingAbstain := totalAll
    yesVotePercent := (yes * 100).fdiv base
    noVotePercent := (no * 100).fdiv base
    abstainVotePercent := (abstain * 100).fdiv base
    participationPercent
    meetsParticipationThreshold := meetsParticipation
    meetsExecutionThreshold := meetsExecution
    isSuccessful := meetsParticipation && meetsExecution }

/-- The outcome of tally rows. -/
def ofRows (rows : List TallyRow) (execution participation : Threshold) (power : Option Int) :
    Except Fault VoteResult :=
  ofWeights (weightOf rows .yes) (weightOf rows .no) (weightOf rows .abstain)
    execution participation power

end VoteResult

end VaultGovernance
