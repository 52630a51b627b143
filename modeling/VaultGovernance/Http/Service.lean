import VaultGovernance.Http.Body
import VaultGovernance.Http.Endpoint
import VaultGovernance.Http.Reply
import VaultGovernance.Http.Representation
import VaultGovernance.Metrics.Exposition
import VaultGovernance.Metrics.Path

/-!
# VaultGovernance.Http.Service

Answering requests.  An endpoint first checks its whole input and answers with
every issue found; then it runs its action as one transaction; then it shows
the result.  Every answer is counted under the path as metrics name it.
-/

namespace VaultGovernance

namespace Http

open VaultGovernance.Action

variable {α ι : Type}

/-! ## Input -/

/-- The identifier in a path. -/
def pathId (parameter text : String) : Checked Uuid :=
  match Uuid.ofStrictText? text with
  | some id => .valid id
  | none => .fault [.key parameter, .key "path"] .noIdentifier (.str text)

/-- The place of the status in a query. -/
def statusPlace : Place := [.key "status", .key "query"]

/-- The status that a query selects, if it does. -/
def statusParameter (r : Request) : Checked (Option AssetStatus) :=
  match r.query.get? "status" with
  | some s => some <$> Form.checking (Form.member AssetStatus) statusPlace (.str s)
  | none => .valid none

/-- The place of the body. -/
def bodyPlace : Place := [.key "body"]

/-- The issue of a body that is not JSON. -/
def unreadableBody (position : Nat) : Issue := ⟨bodyPlace.item position, .noJson, .obj []⟩

/-- The path's part of the input together with the body's; a body that is not
JSON is the only issue then, and a body that is not read leaves no issue to show. -/
def withBody (r : Request) (path : Checked ι) (form : Form.Check (ι → α)) : Checked α :=
  match r.content with
  | .unreadable position => .invalid [unreadableBody position]
  | .overlong => .invalid []
  | .absent => (fun i (f : ι → α) => f i) <$> path <*> .fault bodyPlace .missing .null
  | .value j => (fun i (f : ι → α) => f i) <$> path <*> form bodyPlace j

/-- The body alone, where it may be left out or null. -/
def optionalBody (r : Request) (default : α) (form : Form.Check α) : Checked α :=
  match r.content with
  | .unreadable position => .invalid [unreadableBody position]
  | .overlong => .invalid []
  | .absent => .valid default
  | .value j => (·.getD default) <$> Form.orNull form bodyPlace j

/-! ## Outcomes -/

/-- Which faults are answered as the caller's, with their text. -/
abbrev Blame := Fault → Option String

/-- No fault is the caller's. -/
def noBlame : Blame := fun _ => none

/-- A value that is not acceptable is the caller's fault. -/
def badValues : Blame
  | .badValue message => some message
  | _ => none

/-- A value that is not acceptable, or a key that is missing, is the caller's
fault. -/
def badInput : Blame
  | .badValue message => some message
  | .missingKey key => some (Fault.keyText key)
  | _ => none

/-- The answer to a fault. -/
def ofFault (blame : Blame) (f : Fault) : Reply :=
  match f with
  | .refusal e => .refused e
  | f =>
    match blame f with
    | some message => .plain 400 message
    | none => .internal

/-- The answer that shows a result; numbers that JSON has no form for cannot be
shown. -/
def shownReply (status : Nat) (shown : Representation.Shown) : Reply :=
  match shown with
  | .ok body => if body.allFinite then .content status body else .internal
  | .error _ => .internal

/-- The answer to input that is refused.  It shows what was submitted with its issues, so it
fails when that cannot be sent back.  Where there are no issues the body was not read. -/
def refusedInput (issues : List Issue) : Reply :=
  if issues.isEmpty then .plain 400 "There was an error parsing the body"
  else if issues.all (·.canEcho) then .invalid issues
  else .internal

/-- Runs the action that the input asks for as a transaction, and shows its
result. -/
def perform (status : Nat) (toShown : α → Representation.Shown) (blame : Blame)
    (input : Checked (Action α)) : Action Reply :=
  match input with
  | .invalid issues => done (refusedInput issues)
  | .valid act => do
    match ← attempt (transaction act) with
    | .ok a => done (shownReply status (toShown a))
    | .error f => done (ofFault blame f)

/-- Shows a row that a path names. -/
def about (parameter text : String) (toShown : α → Representation.Shown) (act : Uuid → Action α) :
    Action Reply :=
  perform 200 toShown noBlame (act <$> pathId parameter text)

/-- Carries out the form in the body for a row that a path names. -/
def submit (status : Nat) (r : Request) (parameter text : String)
    (toShown : α → Representation.Shown) (blame : Blame) (form : Form.Check (Uuid → Action α)) :
    Action Reply :=
  perform status toShown blame (withBody r (pathId parameter text) form)

/-! ## Endpoints -/

/-- The name of the service and its version. -/
def description : Json :=
  .obj [("name", .str "VaultDAO Core API"), ("status", .str "running"), ("version", .str "0.1.0")]

/-- Whether a request may read the metrics: everyone may, or it brings the
token. -/
def maySeeMetrics (c : Configuration) (r : Request) : Bool :=
  c.metricsPublic || (c.metricsToken ≠ "" && r.header? "X-Metrics-Token" = some c.metricsToken)

/-- The metrics. -/
def metrics (r : Request) : Action Reply := do
  if maySeeMetrics (← configuration) r then
    done (.content 200 (DomainError.textList (Metrics.lines (← events).reverse)))
  else done .metricsDenied

/-- The assets of a vault, if there is the vault. -/
def assetsOf (id : Uuid) (status : Option AssetStatus) : Action (List Asset) := do
  let _ ← Vault.find id
  Asset.list id status

/-- A proposal's identifier with its tally. -/
def tallyOf (id : Uuid) : Action (Uuid × List TallyRow) := do
  return (id, ← Vote.tally id)

/-- Normalizes claims, and says whether they were only counted. -/
def normalizeClaims (limit : Option Int) (dryRun : Bool) : Action (Bool × Claim.BackfillStats) := do
  return (dryRun, ← Claim.backfill limit dryRun)

/-- Removes a setting. -/
def deleteSetting (key : String) : Action Reply := do
  match ← attempt (transaction (Settings.delete key)) with
  | .ok true => done (.content 204 .null)
  | .ok false => done (.noSetting key)
  | .error f => done (ofFault noBlame f)

/-- Carries out a request at its endpoint. -/
def handle (r : Request) : Endpoint → Action Reply
  | .root => done (.content 200 description)
  | .health => done (.content 200 (.obj [("status", .str "ok")]))
  | .readiness =>
    done (.content 200 (.obj [("status", .str "ok"), ("database", .str "connected")]))
  | .metrics => metrics r
  | .showVault id => about "vault_id" id Representation.vault Vault.find
  | .listAssets id =>
    perform 200 (Representation.list Representation.asset) noBlame
      (assetsOf <$> pathId "vault_id" id <*> statusParameter r)
  | .submitProposal id =>
    submit 201 r "vault_id" id Representation.proposal badInput Body.proposal
  | .listSnapshots id =>
    about "vault_id" id (Representation.list Representation.snapshot) Snapshot.list
  | .showProposal id => about "proposal_id" id Representation.proposal Proposal.find
  | .castVote id =>
    submit 201 r "proposal_id" id (fun v => .ok (Representation.vote v)) noBlame Body.vote
  | .showTally id =>
    about "proposal_id" id (fun t => .ok (Representation.tally t.1 t.2)) tallyOf
  | .showClaim id => about "claim_id" id Representation.claim Claim.get
  | .createVault =>
    perform 201 Representation.vault noBlame
      (withBody r (.valid ()) fun p j => (fun act _ => act) <$> Body.vault p j)
  | .advanceVault id => submit 200 r "vault_id" id Representation.vault noBlame Body.stage
  | .recordApplyParams id =>
    submit 200 r "vault_id" id Representation.vault noBlame Body.applyParams
  | .recordDispatchScript id =>
    submit 200 r "vault_id" id Representation.vault noBlame Body.dispatchScript
  | .recordAcquireResults id =>
    submit 200 r "vault_id" id Representation.vault noBlame Body.acquireResults
  | .createAsset id => submit 201 r "vault_id" id Representation.asset noBlame Body.asset
  | .createSnapshot id =>
    submit 201 r "vault_id" id Representation.snapshot badValues Body.snapshot
  | .transitionAsset id => submit 200 r "asset_id" id Representation.asset noBlame Body.transition
  | .updateAsset id =>
    submit 200 r "asset_id" id Representation.asset badValues Body.assetChange
  | .payFee id => about "proposal_id" id Representation.proposal Proposal.markFeePaid
  | .openVoting id => about "proposal_id" id Representation.proposal Proposal.openVoting
  | .finalizeProposal id => about "proposal_id" id Representation.decision Proposal.finalize
  | .executeProposal id => about "proposal_id" id Representation.proposal Proposal.execute
  | .showSettings =>
    perform 200 (fun s => .ok (Representation.settings s)) noBlame (.valid Settings.getAll)
  | .updateSettings =>
    perform 200 (fun s => .ok (Representation.settings s)) noBlame
      (withBody r (.valid ()) fun p j => (fun act _ => act) <$> Body.settings p j)
  | .deleteSetting key => deleteSetting key
  | .normalizeClaims =>
    perform 200 (fun s => .ok (Representation.backfill s.1 s.2)) noBlame
      ((fun b => normalizeClaims b.1 b.2) <$> optionalBody r (none, false) Body.backfill)

/-! ## Answers -/

/-- The code that an answer is counted under, if it is a refusal. -/
def recordRefusal : Reply → Action Unit
  | .refused e => record (.refusalAnswered e.code)
  | _ => done ()

/-- Counts an answer. -/
def recordAnswer (r : Request) (status : Nat) : Action Unit :=
  record (.requestAnswered r.method.text (normalizePath r.loggedPath) status)

/-- Answers one request that leads to an endpoint or nowhere. -/
def answer (r : Request) (reply : Action Reply) : Action Reply := do
  let reply ← reply
  recordRefusal reply
  recordAnswer r reply.status
  done reply

/-- The status of a redirection that keeps the method and the body. -/
def redirectStatus : Nat := 307

/-- Answers a request.  A path with the wrong ending is redirected, and the
client asks again at the right one. -/
def reply (r : Request) : Action Reply := do
  let c ← configuration
  match Endpoint.route c r.method r.path with
  | .found endpoint => answer r (handle r endpoint)
  | .wrongMethod => answer r (done .wrongMethod)
  | .nowhere => answer r (done .nowhere)
  | .elsewhere path =>
    recordAnswer r redirectStatus
    let again := { r with path }
    match Endpoint.route c again.method path with
    | .found endpoint => answer again (handle again endpoint)
    | .wrongMethod => answer again (done .wrongMethod)
    | _ => answer again (done .nowhere)

/-- The method that asks for an answer without its body. -/
def headMethod : Method := .other "HEAD"

/-- Answers a request under its trace, or under `fresh` when it has none. -/
def exchange (fresh : String) (r : Request) : Action Response := do
  let response := (← reply r).toResponse (r.trace?.getD fresh)
  return if r.method = headMethod then { response with body := .null } else response

end Http

end VaultGovernance
