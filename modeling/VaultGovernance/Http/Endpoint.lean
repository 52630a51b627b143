import VaultGovernance.Configuration.Basic
import VaultGovernance.Http.Request

/-!
# VaultGovernance.Http.Endpoint

The endpoints and where they are found.  A path names a few endpoints, one for
each method that it answers to; most paths name at most one.
-/

namespace VaultGovernance

namespace Http

/-- What a request may ask for.  Identifiers are as they stand in the path. -/
inductive Endpoint where
  | root
  | health
  | readiness
  | metrics
  | showVault (vault : String)
  | listAssets (vault : String)
  | submitProposal (vault : String)
  | listSnapshots (vault : String)
  | showProposal (proposal : String)
  | castVote (proposal : String)
  | showTally (proposal : String)
  | showClaim (claim : String)
  | createVault
  | advanceVault (vault : String)
  | recordApplyParams (vault : String)
  | recordDispatchScript (vault : String)
  | recordAcquireResults (vault : String)
  | createAsset (vault : String)
  | createSnapshot (vault : String)
  | transitionAsset (asset : String)
  | updateAsset (asset : String)
  | payFee (proposal : String)
  | openVoting (proposal : String)
  | finalizeProposal (proposal : String)
  | executeProposal (proposal : String)
  | showSettings
  | updateSettings
  | deleteSetting (key : String)
  | normalizeClaims
deriving DecidableEq

namespace Endpoint

/-- The endpoints outside the two interfaces. -/
def general : List String → List (Method × Endpoint)
  | [""] => [(.get, root)]
  | ["health"] => [(.get, health)]
  | ["ready"] => [(.get, readiness)]
  | ["metrics"] => [(.get, metrics)]
  | _ => []

/-- The endpoints for participants. -/
def participant : List String → List (Method × Endpoint)
  | ["vaults", id] => [(.get, showVault id)]
  | ["vaults", id, "assets"] => [(.get, listAssets id)]
  | ["vaults", id, "proposals"] => [(.post, submitProposal id)]
  | ["vaults", id, "snapshots"] => [(.get, listSnapshots id)]
  | ["proposals", id] => [(.get, showProposal id)]
  | ["proposals", id, "votes"] => [(.post, castVote id)]
  | ["proposals", id, "tally"] => [(.get, showTally id)]
  | ["claims", id] => [(.get, showClaim id)]
  | _ => []

/-- The endpoints for administrators. -/
def administrator : List String → List (Method × Endpoint)
  | ["vaults"] => [(.post, createVault)]
  | ["vaults", id, "stage"] => [(.post, advanceVault id)]
  | ["vaults", id, "apply-params"] => [(.put, recordApplyParams id)]
  | ["vaults", id, "dispatch-script"] => [(.put, recordDispatchScript id)]
  | ["vaults", id, "acquire-results"] => [(.put, recordAcquireResults id)]
  | ["vaults", id, "assets"] => [(.post, createAsset id)]
  | ["vaults", id, "snapshots"] => [(.post, createSnapshot id)]
  | ["assets", id, "transition"] => [(.post, transitionAsset id)]
  | ["assets", id] => [(.patch, updateAsset id)]
  | ["proposals", id, "mark-paid"] => [(.post, payFee id)]
  | ["proposals", id, "open"] => [(.post, openVoting id)]
  | ["proposals", id, "finalize"] => [(.post, finalizeProposal id)]
  | ["proposals", id, "execute"] => [(.post, executeProposal id)]
  | ["system-settings"] => [(.get, showSettings), (.patch, updateSettings)]
  | ["system-settings", key] => [(.delete, deleteSetting key)]
  | ["claims", "normalize"] => [(.post, normalizeClaims)]
  | _ => []

/-- The segments of a path below a base; nothing when it is not below it. -/
def segmentsBelow? (base : String) (path : String) : Option (List String) :=
  let s := path.toList
  if base.toList.isPrefixOf s then
    match s.drop base.length with
    | '/' :: rest => some ((pieces '/' rest).map String.ofList)
    | _ => none
  else none

/-- The endpoints that segments name; a parameter is never empty. -/
def named (table : List String → List (Method × Endpoint)) (segments : List String) :
    List (Method × Endpoint) :=
  if segments.contains "" && segments ≠ [""] then [] else table segments

/-- The endpoints at a path. -/
def atPath (c : Configuration) (path : String) : List (Method × Endpoint) :=
  let below (base : String) (table : List String → List (Method × Endpoint)) :
      List (Method × Endpoint) :=
    (segmentsBelow? base path).elim [] (named table)
  below "" general ++ below c.apiPath participant ++ below c.adminPath administrator

/-- A path with a slash at its end, or without the ones that are there. -/
def withOtherEnding (path : String) : String :=
  let s := path.toList
  if s.getLast? = some '/' then String.ofList (s.reverse.dropWhile (· = '/')).reverse
  else path ++ "/"

/-- What a method and a path lead to. -/
inductive Route where
  | found (endpoint : Endpoint)
  | wrongMethod
  /-- The path with the other ending has endpoints. -/
  | elsewhere (path : String)
  | nowhere
deriving DecidableEq

/-- Finds the endpoint for a method and a path. -/
def route (c : Configuration) (method : Method) (path : String) : Route :=
  match atPath c path with
  | [] =>
    let other := withOtherEnding path
    if path ≠ "/" && !(atPath c other).isEmpty then .elsewhere other else .nowhere
  | endpoints =>
    match endpoints.find? fun e => e.1 = method with
    | some e => .found e.2
    | none => .wrongMethod

end Endpoint

end Http

end VaultGovernance
