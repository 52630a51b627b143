import VaultGovernance.Action
import VaultGovernance.Claim.Legacy
import VaultGovernance.Store.Column

/-!
# VaultGovernance.Claim.Normalization

Normalizing stored claims, one at a time when a claim is read, or all of them
in a backfill.  A backfill writes all claims at its end, so a value that fits
no column fails it as a whole, while a value that is no number only skips its
claim.  Metadata that cannot be read, or in which no key can be looked for, fail
it before it begins.
-/

namespace VaultGovernance

namespace Claim

open VaultGovernance.Action

/-- The claim with normalized amounts, as the store keeps them. -/
def withAmounts (c : Claim) (a : Amounts) (time : Timestamp) : Except Fault Claim := do
  let lovelaceAmount ← Column.optionalBigint a.lovelaceAmount
  let multiplier ←
    match c.multiplier, a.multiplier with
    | none, some m => Column.numeric Column.multiplierPlaces m
    | kept, _ => .ok kept
  return { c with
    lovelaceAmount
    multiplier
    metadata := Column.document a.metadata
    updatedAt := some time }

/-- Reads a claim from its row.  The document in it is a text, and no text with an integer of
too many digits is read. -/
def load (c : Claim) : Except Fault Unit :=
  match c.metadata.overlong? with
  | some digits => .error (.badValue (integerLimitMessage digits))
  | none => .ok ()

/-- What normalizing a claim comes to that is read from its row. -/
def conversion (c : Claim) : Except Fault (Option Amounts) := do
  c.load
  normalizeAmounts c.id.toJson c.amounts

/-- The claim with an identifier, normalized on the way. -/
def get (id : Uuid) : Action Claim := do
  match (← store).claim? id with
  | none => refuse (.notFound "claim" id.toJson)
  | some claim =>
    match ← ofExcept claim.conversion with
    | none => done claim
    | some amounts =>
      let normalized ← ofExcept (claim.withAmounts amounts (← now))
      modify fun s => s.putClaim normalized
      record (.claimsNormalized 1)
      done normalized

/-! ## Backfill -/

/-- A claim that a backfill could not convert. -/
structure BackfillError where
  claimId : Uuid
  error : DomainError
deriving DecidableEq

/-- The account of a backfill. -/
structure BackfillStats where
  normalizedCount : Nat
  skippedCount : Nat
  errors : List BackfillError
deriving DecidableEq

namespace BackfillError

/-- An error as a value. -/
def toJson (e : BackfillError) : Json :=
  .obj [("claim_id", e.claimId.toJson), ("code", .str e.error.code),
    ("error", .str e.error.message)]

end BackfillError

namespace BackfillStats

/-- An account as a value. -/
def toEntries (s : BackfillStats) : OrderedMap Json :=
  [("normalized_count", .int s.normalizedCount), ("skipped_count", .int s.skippedCount),
    ("errors", .arr (s.errors.map (·.toJson)))]

end BackfillStats

/-- Claims by age and identifier. -/
def byAge (claims : List Claim) : List Claim :=
  claims.mergeSort fun a b =>
    a.createdAt.micros < b.createdAt.micros || (a.createdAt = b.createdAt && a.id.le b.id)

/-- The front of a list up to a limit; a negative limit leaves as many out at
the end. -/
def takeLimit {α : Type} (limit : Option Int) (xs : List α) : List α :=
  match limit with
  | none => xs
  | some n => if 0 ≤ n then xs.take n.toNat else xs.take (xs.length - n.natAbs)

/-- Reads claims from their rows. -/
def loadAll : List Claim → Except Fault Unit
  | [] => .ok ()
  | c :: rest => do
    c.load
    loadAll rest

/-- The claims that carry a legacy key.  All of them are read before the first one is looked
through. -/
def candidates (claims : List Claim) : Except Fault (List Claim) := do
  loadAll claims
  if claims.all fun c => isSearchable c.metadata then return claims.filter needsNormalization
  else .error .wrongType

/-- Converts claims one by one: the converted amounts, and the claims that were
refused.  Any other fault ends the conversion. -/
def convertAll : List Claim → Except Fault (List (Claim × Amounts) × List BackfillError)
  | [] => .ok ([], [])
  | c :: rest =>
    match normalizeAmounts c.id.toJson c.amounts with
    | .ok a => do
      let (converted, errors) ← convertAll rest
      return ((c, a.getD c.amounts) :: converted, errors)
    | .error (.refusal e) => do
      let (converted, errors) ← convertAll rest
      return (converted, ⟨c.id, e⟩ :: errors)
    | .error e => .error e

/-- The rows of converted claims, as the store keeps them. -/
def convertedRows (time : Timestamp) : List (Claim × Amounts) → Except Fault (List Claim)
  | [] => .ok []
  | (c, a) :: rest => do
    let row ← c.withAmounts a time
    let rows ← convertedRows time rest
    return row :: rows

/-- Normalizes every claim that carries a legacy key, up to a limit. -/
def backfill (limit : Option Int) (dryRun : Bool) : Action BackfillStats := do
  let claims := byAge (← store).claims
  let candidates ← ofExcept (candidates claims)
  let skipped := claims.length - candidates.length
  let chosen := takeLimit limit candidates
  if dryRun then done ⟨chosen.length, skipped, []⟩
  else
    let (converted, errors) ← ofExcept (convertAll chosen)
    let rows ← ofExcept (convertedRows (← now) converted)
    modify fun s => rows.foldl Store.putClaim s
    if converted.isEmpty then done ()
    else record (.claimsNormalized converted.length)
    done ⟨converted.length, skipped, errors⟩

/-- A backfill on its own: a transaction, or only a look when nothing is to be
written. -/
def runBackfill (limit : Option Int) (dryRun : Bool) : Action BackfillStats :=
  if dryRun then rolledBack (backfill limit true) else transaction (backfill limit false)

end Claim

end VaultGovernance
