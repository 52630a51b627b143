import VaultGovernance.Asset.Basic
import VaultGovernance.Vault.Basic

/-!
# VaultGovernance.Metrics.Event

What happened, as far as it is counted.  Events are kept even when the
operation that caused them is undone, since counters never go back.
-/

namespace VaultGovernance

/-- Something that is counted. -/
inductive Event where
  /-- An asset moved from one status to another. -/
  | assetMoved (source target : AssetStatus)
  /-- A vault entered a stage. -/
  | stageEntered (stage : VaultStage)
  /-- A vote was cast, on a proposal's own ballot or on the fixed one. -/
  | voteCast (custom : Bool)
  /-- So many claims were normalized. -/
  | claimsNormalized (count : Nat)
  /-- A refusal was answered over HTTP. -/
  | refusalAnswered (code : String)
  /-- A request was answered. -/
  | requestAnswered (method path : String) (status : Nat)
deriving DecidableEq

/-- A counter: its name, its labels in the order of their names, and what the
event adds to it. -/
structure Count where
  name : String
  labels : List (String × String)
  amount : Nat
deriving DecidableEq

/-- What an event adds to which counter. -/
def Event.count : Event → Count
  | assetMoved source target =>
    ⟨"asset_transitions_total",
      [("from_status", Choice.text source), ("to_status", Choice.text target)], 1⟩
  | stageEntered stage => ⟨"vault_stage_changes_total", [("to_stage", Choice.text stage)], 1⟩
  | voteCast custom =>
    ⟨"votes_cast_total", [("option_kind", if custom then "custom" else "fixed")], 1⟩
  | claimsNormalized count => ⟨"claims_normalized_total", [], count⟩
  | refusalAnswered code => ⟨"domain_errors_total", [("code", code)], 1⟩
  | requestAnswered method path status =>
    ⟨"http_requests_total",
      [("method", method), ("path", path), ("status", toString status)], 1⟩

/-- Adds a count to a list of counters, one for each name and labels. -/
def Count.addTo (c : Count) : List Count → List Count
  | [] => [c]
  | d :: rest =>
    if d.name = c.name ∧ d.labels = c.labels then { d with amount := d.amount + c.amount } :: rest
    else d :: c.addTo rest

/-- The counters after some events. -/
def counters (events : List Event) : List Count :=
  events.foldl (fun cs e => e.count.addTo cs) []

/-- The value of a counter after some events. -/
def counterValue (name : String) (labels : List (String × String)) (events : List Event) : Nat :=
  events.foldr (fun e total =>
    let c := e.count
    if c.name = name ∧ c.labels = labels then c.amount + total else total) 0

end VaultGovernance
