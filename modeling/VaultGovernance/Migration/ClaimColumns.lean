import VaultGovernance.Migration.Revision

/-!
# VaultGovernance.Migration.ClaimColumns

The third revision: the legacy amounts in the metadata of claims move to their
columns, by the rule that claims are normalized by.
-/

namespace VaultGovernance

namespace Migration

namespace ClaimColumns

/-- The legacy amount as a number. -/
def amount : String := "(metadata->>'adaAmount')::numeric"

/-- Moves the amount: a million or more is taken as it is, less in millionths. -/
def moveAmount : Statement := .sql [
  "UPDATE claims SET lovelace_amount = CASE WHEN", amount, ">= 1000000",
  "THEN trunc(" ++ amount ++ ")::bigint",
  "ELSE trunc(" ++ amount, "* 1000000)::bigint END",
  "WHERE metadata->>'adaAmount' IS NOT NULL AND lovelace_amount IS NULL"]

/-- Moves the multiplier. -/
def moveMultiplier : Statement := .sql [
  "UPDATE claims SET multiplier = CAST(metadata->>'multiplier' AS NUMERIC)",
  "WHERE metadata->>'multiplier' IS NOT NULL AND multiplier IS NULL"]

/-- The condition that a claim carries a legacy key. -/
def carriesLegacyKey : String := "WHERE metadata ? 'adaAmount' OR metadata ? 'multiplier'"

/-- Drops the legacy keys. -/
def dropKeys : Statement := .sql [
  "UPDATE claims SET metadata = metadata - 'adaAmount' - 'multiplier'", carriesLegacyKey]

/-- The empty object. -/
def emptyObject : String := "'\x7b\x7d'::jsonb"

/-- An object with a key for a column that is not empty. -/
def keyFor (key column : String) : String :=
  "CASE WHEN " ++ column ++ " IS NOT NULL THEN jsonb_build_object('" ++ key ++ "', " ++ column ++
    ") ELSE " ++ emptyObject ++ " END"

/-- Writes the legacy keys again. -/
def restoreKeys : Statement := .sql [
  "UPDATE claims SET metadata = COALESCE(metadata, " ++ emptyObject ++ ")",
  "||", keyFor "adaAmount" "lovelace_amount", "||", keyFor "multiplier" "multiplier",
  "WHERE lovelace_amount IS NOT NULL OR multiplier IS NOT NULL"]

/-- Empties the columns. -/
def clearColumns : Statement := .sql [
  "UPDATE claims SET lovelace_amount = NULL, multiplier = NULL", carriesLegacyKey]

/-- The revision. -/
def revision : Revision where
  id := "claims_metadata_20260203"
  title := "migrate_claims_metadata_to_columns"
  upgrade := [moveAmount, moveMultiplier, dropKeys]
  downgrade := [restoreKeys, clearColumns]

end ClaimColumns

end Migration

end VaultGovernance
