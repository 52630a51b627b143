import VaultGovernance.Migration.Statement

/-!
# VaultGovernance.Migration.Revision

Revisions of the schema.  A revision knows how to come about from the one
before it and how to go back to it.
-/

namespace VaultGovernance

namespace Migration

/-- A revision of the schema. -/
structure Revision where
  id : String
  title : String
  upgrade : List Statement
  downgrade : List Statement

/-- The identifier column of a table. -/
def idColumn : Column := { name := "id", type := .uuid, required := true }

/-- The column that notes when a row was made. -/
def createdColumn : Column :=
  { name := "created_at", type := .timestamp, required := true, default := .expression "now()" }

/-- The column that notes when a row was last changed. -/
def updatedColumn : Column := { name := "updated_at", type := .timestamp }

/-- A column that may be empty. -/
def optionalColumn (name : String) (type : ColumnType) : Column := { name, type }

/-- A column that must not be empty. -/
def requiredColumn (name : String) (type : ColumnType) : Column :=
  { name, type, required := true }

/-- A column that must not be empty and has a constant default. -/
def defaultedColumn (name : String) (type : ColumnType) (text : String) : Column :=
  { name, type, required := true, default := .constant text }

/-- The name of an index on a column. -/
def indexName (table column : String) : String := "ix_" ++ table ++ "_" ++ column

/-- An index on a column. -/
def indexOn (table column : String) : Statement :=
  .createIndex (indexName table column) table [column]

end Migration

end VaultGovernance
