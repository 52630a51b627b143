import VaultGovernance.Action
import VaultGovernance.Store.Column

/-!
# VaultGovernance.Asset.Ledger

The asset ledger: recording assets, changing their free fields, and moving
them along the status table.  Every single move goes through `move`, and the
bulk moves of a vault's assets only touch assets for which the move is legal.
-/

namespace VaultGovernance

namespace Asset

open VaultGovernance.Action

/-- What messages call an asset. -/
def entity : String := "asset"

/-- The table of assets. -/
def table : String := "assets"

/-- The asset with an identifier. -/
def find (id : Uuid) : Action Asset := do
  match (← store).asset? id with
  | some a => done a
  | none => refuse (.notFound entity id.toJson)

/-- The assets of a vault by age and identifier, all of them or those of one
status. -/
def list (vaultId : Uuid) (status : Option AssetStatus) : Action (List Asset) := do
  let assets := (← store).assetsOf vaultId
  let chosen := match status with
    | some s => assets.filter fun a : Asset => a.status = s
    | none => assets
  done (chosen.mergeSort fun (a b : Asset) =>
    a.createdAt.micros < b.createdAt.micros || (a.createdAt = b.createdAt && a.id.le b.id))

/-! ## Recording -/

/-- An asset as it is submitted.  The kind and the origin are the values given;
they are read once the vault is known. -/
structure Draft where
  policyId : Option String
  assetName : Option String
  kind : Json := Choice.toJson AssetKind.nft
  quantity : Option Decimal := none
  origin : Json := .null
  addedBy : Option String := none
  metadata : Json := .null

/-- The origin a value names; null names none. -/
def readOrigin (j : Json) : Except Fault (Option AssetOrigin) :=
  if j.isNull then .ok none else (Choice.read AssetOrigin j).map some

/-- Records an asset in a vault.  It starts out pending, and its origin can
only be given here. -/
def create (vaultId : Uuid) (draft : Draft) : Action Asset := do
  let s ← store
  match s.vault? vaultId with
  | none => refuse (.notFound "vault" vaultId.toJson)
  | some vault =>
    let kind ← ofExcept (Choice.read AssetKind draft.kind)
    let origin ← ofExcept (readOrigin draft.origin)
    let quantity ← ofExcept
      (Column.numeric Column.moneyPlaces (draft.quantity.getD (Decimal.ofNat 1)))
    let policyId ← ofExcept (Column.required table "policy_id" draft.policyId)
    let assetName ← ofExcept (Column.required table "asset_id" draft.assetName)
    let quantity ← ofExcept (Column.required table "quantity" quantity)
    let asset : Asset := {
      id := s.nextId
      vaultId := vault.id
      policyId
      assetName
      kind
      quantity
      status := .pending
      origin
      lockedAt := none
      releasedAt := none
      distributedAt := none
      addedBy := draft.addedBy
      metadata := Column.document draft.metadata
      createdAt := ← now
      updatedAt := none }
    modify fun s => s.addAsset asset
    done asset

/-! ## Moving -/

/-- Moves an asset to a status that may follow its own. -/
def move (asset : Asset) (target : AssetStatus) : Action Asset := do
  if asset.status.next.contains target then
    let moved := asset.moved target (← now)
    modify fun s => s.putAsset moved
    record (.assetMoved asset.status target)
    done moved
  else
    refuse (.invalidTransition entity asset.id.toJson (Choice.toJson asset.status)
      (Choice.toJson target) none [])

/-- Moves the asset with an identifier. -/
def transition (id : Uuid) (target : AssetStatus) : Action Asset := do
  move (← find id) target

/-- Whether an asset belongs to a vault and has a status. -/
def isHeld (vaultId : Uuid) (status : AssetStatus) (a : Asset) : Bool :=
  a.vaultId = vaultId && a.status = status

theorem isHeld_iff {vaultId : Uuid} {status : AssetStatus} {a : Asset} :
    isHeld vaultId status a = true ↔ a.vaultId = vaultId ∧ a.status = status := by
  rw [isHeld, Bool.and_eq_true, decide_eq_true_iff, decide_eq_true_iff]

/-- Moves every asset of a vault that has one status to another, and counts
them. -/
def moveAll (vaultId : Uuid) (source target : AssetStatus) : Action Nat := do
  let time ← now
  let count := ((← store).assets.filter (isHeld vaultId source)).length
  modify fun s =>
    { s with assets := s.assets.map fun a =>
        if isHeld vaultId source a then a.moved target time else a }
  recordAll (List.replicate count (.assetMoved source target))
  done count

/-- Locks every pending asset of a vault. -/
def lockPending (vaultId : Uuid) : Action Nat := moveAll vaultId .pending .locked

/-- Releases every locked asset of a vault. -/
def releaseLocked (vaultId : Uuid) : Action Nat := moveAll vaultId .locked .released

/-- Pays out the listed assets, each of which must belong to the vault and be
locked. -/
def distribute (vaultId : Uuid) : List Uuid → Action (List Asset)
  | [] => done []
  | id :: rest => do
    let asset ← find id
    if asset.vaultId = vaultId then
      let moved ← move asset .distributed
      let others ← distribute vaultId rest
      done (moved :: others)
    else refuse (.notFound entity id.toJson)

/-! ## Changing fields -/

/-- The fields that are fixed here: a status changes by moving only. -/
def fixedFields : List String := ["origin_type", "status", "vault_id"]

/-- The fields that may be changed. -/
def freeFields : List String :=
  ["policy_id", "asset_id", "type", "quantity", "added_by", "metadata"]

/-- Names that say where a change goes, and so cannot also name a field. -/
def addressNames : List String := ["db", "asset_id"]

/-- The first field that may not be changed decides the fault. -/
def checkFields (id : Uuid) : List String → Except Fault Unit
  | [] => .ok ()
  | field :: rest =>
    if fixedFields.contains field then
      .error (.refusal (.immutableField entity id.toJson field))
    else if freeFields.contains field then checkFields id rest
    else .error (.badValue ("Unknown asset field: " ++ field))

/-- The value written to a field, or the one that stays. -/
def written {α : Type} (fields : OrderedMap Json) (name : String) (old : α)
    (convert : Json → Except Fault α) : Except Fault α :=
  match fields.get? name with
  | some j => convert j
  | none => .ok old

/-- The asset with new field values, as the store keeps it. -/
def withFields (a : Asset) (fields : OrderedMap Json) (time : Timestamp) : Except Fault Asset := do
  let kind ← written fields "type" a.kind (Choice.read AssetKind)
  let policyId ← written fields "policy_id" (some a.policyId) Column.textOfJson
  let assetName ← written fields "asset_id" (some a.assetName) Column.textOfJson
  let quantity ← written fields "quantity" (some a.quantity) fun j => do
    match ← Column.decimalOfJson j with
    | some d => Column.overwriteNumeric Column.moneyPlaces (some a.quantity) d
    | none => .ok none
  let addedBy ← written fields "added_by" a.addedBy Column.textOfJson
  let metadata ← written fields "metadata" a.metadata fun j =>
    .ok (Column.overwriteDocument a.metadata j)
  let policyId ← Column.required table "policy_id" policyId
  let assetName ← Column.required table "asset_id" assetName
  let quantity ← Column.required table "quantity" quantity
  return { a with kind, policyId, assetName, quantity, addedBy, metadata, updatedAt := some time }

/-- Changes free fields of an asset. -/
def update (id : Uuid) (fields : OrderedMap Json) : Action Asset := do
  if fields.keys.any addressNames.contains then fail .wrongType
  else
    let asset ← find id
    ofExcept (checkFields id fields.keys)
    let changed ← ofExcept (asset.withFields fields (← now))
    modify fun s => s.putAsset changed
    done changed

/-- An attempt to write the origin of a recorded asset, which is always
refused. -/
def writeOrigin (id : Uuid) : Action Asset := do
  let asset ← find id
  refuse (.immutableField entity asset.id.toJson "origin_type")

end Asset

end VaultGovernance
