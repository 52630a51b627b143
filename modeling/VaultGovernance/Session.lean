import VaultGovernance.Action

/-!
# VaultGovernance.Session

A session: the world with a clock and a configuration, and actions performed on
it one after the other, each as a transaction.
-/

namespace VaultGovernance

/-- The world, the time and the configuration. -/
structure Session where
  context : Context
  world : World := {}

namespace Session

variable {α : Type}

/-- The moment at which the clock of a session starts. -/
def startOfClock : Timestamp := Timestamp.ofCivil 2026 1 1 0 0 0 0

/-- A session on an empty store. -/
def start (configuration : Configuration) : Session := ⟨⟨startOfClock, configuration⟩, {}⟩

/-- The session so many seconds later; the number may be negative. -/
def advance (s : Session) (seconds : Int) : Session :=
  { s with context := { s.context with now := s.context.now.addSeconds seconds } }

/-- The session with another configuration. -/
def configure (s : Session) (configuration : Configuration) : Session :=
  { s with context := { s.context with configuration } }

/-- Performs an action as it is. -/
def perform (s : Session) (act : Action α) : Except Fault α × Session :=
  let (r, world) := act s.context s.world
  (r, { s with world })

/-- Performs an action as a transaction. -/
def transact (s : Session) (act : Action α) : Except Fault α × Session :=
  s.perform (Action.transaction act)

/-- Performs actions in order, each after its wait, until one fails. -/
def performAll (s : Session) : List (Int × Action α) → Except Fault (List α) × Session
  | [] => (.ok [], s)
  | (wait, act) :: rest =>
    match (s.advance wait).perform act with
    | (.error e, s') => (.error e, s')
    | (.ok a, s') =>
      match performAll s' rest with
      | (.ok as, s'') => (.ok (a :: as), s'')
      | (.error e, s'') => (.error e, s'')

/-- Performs actions in order as one transaction. -/
def transactAll (s : Session) (acts : List (Int × Action α)) :
    Except Fault (List α) × Session :=
  match s.performAll acts with
  | (.ok as, s') => (.ok as, s')
  | (.error e, s') =>
    (.error e.atCommit, { s' with world := { s'.world with store := s.world.store } })

end Session

end VaultGovernance
