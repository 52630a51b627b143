import VaultGovernance.Json.Coerce

/-!
# VaultGovernance.Snapshot.Basic

Balance snapshots.  A snapshot maps addresses to token balances at one moment;
a proposal votes with the balances of the snapshot that was the vault's latest
when the proposal was made.  Balances are kept as the canonical texts of
non-negative integers of any size.
-/

namespace VaultGovernance

/-- A snapshot of balances. -/
structure Snapshot where
  id : Uuid
  vaultId : Uuid
  /-- The token whose balances are recorded. -/
  assetId : String
  /-- An object from address to balance. -/
  balances : Json
  createdAt : Timestamp
deriving DecidableEq, Inhabited

namespace Snapshot

/-- One balance in canonical form, or why it is refused.  The display form of
the value is what is read; a value without one has no literal form for the
message either. -/
def normalizeBalance (address : String) (balance : Json) : Except Fault String :=
  if address = "" then .error (.badValue "Snapshot address must not be empty")
  else if !balance.canShow then .error (.badValue integerTextMessage)
  else
    match readInteger balance.display with
    | .error _ =>
      .error (.badValue
        ("Balance for '" ++ address ++ "' is not an integer: " ++ balance.literal))
    | .ok n =>
      if n < 0 then .error (.badValue ("Balance for '" ++ address ++ "' must not be negative"))
      else .ok (intText n)

/-- All balances in canonical form; the first bad entry decides the fault. -/
def normalizeBalances : OrderedMap Json → Except Fault (OrderedMap String)
  | [] => .ok []
  | (address, balance) :: rest => do
    let text ← normalizeBalance address balance
    let texts ← normalizeBalances rest
    return (address, text) :: texts

/-- Balances as a document. -/
def balanceDocument (balances : OrderedMap String) : Json :=
  .obj (balances.map fun e => (e.1, .str e.2))

/-- The balance of an address in a document of balances; an address that is not
listed has none. -/
def powerIn (balances : Json) (address : Option String) : Except Fault Int :=
  match address with
  | none => .ok 0
  | some a => ((balances.entries.get? a).getD (.int 0)).toInteger

/-- The sum of all balances of a document. -/
def totalIn (balances : Json) : Except Fault Int :=
  balances.entries.foldlM (fun total e => do return total + (← e.2.toInteger)) 0

/-- The voting power of an address. -/
def votingPower (s : Snapshot) (address : Option String) : Except Fault Int :=
  powerIn s.balances address

/-- The voting power of all addresses together. -/
def totalVotingPower (s : Snapshot) : Except Fault Int :=
  totalIn s.balances

end Snapshot

end VaultGovernance
