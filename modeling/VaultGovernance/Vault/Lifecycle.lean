import VaultGovernance.Asset.Ledger

/-!
# VaultGovernance.Vault.Lifecycle

The lifecycle of vaults: creating one, moving it forward through its stages,
and recording its configuration.  Entering the locked stage locks every
pending asset; entering a final stage that returns assets releases every
locked one.
-/

namespace VaultGovernance

namespace Vault

open VaultGovernance.Action

/-- What messages call a vault. -/
def entity : String := "vault"

/-- The table of vaults. -/
def table : String := "vaults"

/-- The vault with an identifier. -/
def find (id : Uuid) : Action Vault := do
  match (← store).vault? id with
  | some v => done v
  | none => refuse (.notFound entity id.toJson)

/-- Creates a vault in the draft stage with nothing recorded. -/
def create (name : Option String) (execution participation : Option Decimal) : Action Vault := do
  let s ← store
  let executionThreshold ← ofExcept (Column.optionalNumeric Column.moneyPlaces execution)
  let participationThreshold ← ofExcept (Column.optionalNumeric Column.moneyPlaces participation)
  let name ← ofExcept (Column.required table "name" name)
  let vault : Vault := {
    id := s.nextId
    name
    stage := .draft
    acquireMultiplier := .null
    adaDistribution := .null
    applyParamsResult := .null
    dispatchScript := .null
    executionThreshold
    participationThreshold
    failureReason := none
    createdAt := ← now
    updatedAt := none }
  modify fun s => s.addVault vault
  done vault

/-- The reason a failing vault keeps: the given one unless it is empty. -/
def reasonAfter (v : Vault) (target : VaultStage) (reason : Option String) : Option String :=
  if target = .failed then
    match reason with
    | some r => if r = "" then v.failureReason else some r
    | none => v.failureReason
  else v.failureReason

/-- Moves the assets of a vault as entering a stage asks, and counts them. -/
def moveAssets (id : Uuid) (target : VaultStage) : Action Nat :=
  if target = .locked then Asset.lockPending id
  else if target.releasesAssets then Asset.releaseLocked id
  else done 0

/-- The refusal of a stage. -/
def refuseStage (v : Vault) (target : VaultStage) (reason : Option String)
    (extra : OrderedMap Json) : Action Vault :=
  refuse (.invalidTransition entity v.id.toJson (Choice.toJson v.stage) (Choice.toJson target)
    reason extra)

/-- Moves a vault to a stage that may follow its own, once what the stage needs
is recorded. -/
def advance (id : Uuid) (target : VaultStage) (reason : Option String) : Action Vault := do
  let vault ← find id
  if vault.stage.next.contains target then
    let missing := vault.missingFor target
    if missing.isEmpty then
      let advanced := {
        vault with
        stage := target
        updatedAt := some (← now)
        failureReason := vault.reasonAfter target reason }
      modify fun s => s.putVault advanced
      let _ ← moveAssets vault.id target
      record (.stageEntered target)
      done advanced
    else
      refuseStage vault target (some ("missing " ++ DomainError.commaList missing))
        [("missing_fields", DomainError.textList missing)]
  else refuseStage vault target none []

/-- Moves a vault to the failed stage. -/
def markFailed (id : Uuid) (reason : Option String) : Action Vault :=
  advance id .failed reason

/-! ## Recording configuration -/

/-- Writes configuration values of a vault. -/
def reconfigure (id : Uuid) (change : Vault → Vault) : Action Vault := do
  let vault ← find id
  let changed := { change vault with updatedAt := some (← now) }
  modify fun s => s.putVault changed
  done changed

/-- Records the applied contract parameters. -/
def recordApplyParams (id : Uuid) (result : Json) : Action Vault :=
  reconfigure id fun v =>
    { v with applyParamsResult := Column.overwriteDocument v.applyParamsResult result }

/-- Records the dispatch script. -/
def recordDispatchScript (id : Uuid) (script : Json) : Action Vault :=
  reconfigure id fun v =>
    { v with dispatchScript := Column.overwriteDocument v.dispatchScript script }

/-- Records the results of the acquire window, which are fixed once the vault
is locked. -/
def recordAcquireResults (id : Uuid) (multiplier distribution : Json) : Action Vault := do
  let vault ← find id
  if vault.stage.freezesAcquireResults then
    refuse (.immutableField entity vault.id.toJson acquireMultiplierField)
  else
    reconfigure id fun v =>
      { v with
        acquireMultiplier := Column.overwriteDocument v.acquireMultiplier multiplier
        adaDistribution := Column.overwriteDocument v.adaDistribution distribution }

end Vault

end VaultGovernance
