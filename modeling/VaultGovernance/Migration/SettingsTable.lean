import VaultGovernance.Json.Writer
import VaultGovernance.Migration.Revision
import VaultGovernance.Settings.Basic

/-!
# VaultGovernance.Migration.SettingsTable

The fourth revision: the table of the settings document with its one row, which
holds the default fees.  Keys that are already there stay as they are.
-/

namespace VaultGovernance

namespace Migration

namespace SettingsTable

/-- The table of the settings document. -/
def settings : Statement := .createTable "system_settings" [
    idColumn,
    createdColumn,
    updatedColumn,
    { requiredColumn "data" .jsonb with default := .expression "'\x7b\x7d'::jsonb" }]
  [.primaryKey "id"]

/-- The document with the default fees. -/
def document : String :=
  "CAST(" ++ constantText (Json.obj Settings.defaults).render ++ " AS jsonb)"

/-- Writes the row, or the keys that it lacks. -/
def seed : Statement := .sql [
  "INSERT INTO system_settings (id, data)",
  "VALUES (CAST(" ++ constantText Settings.rowId.text ++ " AS uuid),", document ++ ")",
  "ON CONFLICT (id) DO UPDATE SET data =", document, "|| system_settings.data"]

/-- The revision. -/
def revision : Revision where
  id := "system_settings_20260218"
  title := "create_system_settings"
  upgrade := [settings, indexOn "system_settings" "id", seed]
  downgrade := [.dropIndex (indexName "system_settings" "id"), .dropTable "system_settings"]

end SettingsTable

end Migration

end VaultGovernance
