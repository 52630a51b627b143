import VaultGovernance.Text.Integer

/-!
# VaultGovernance.Migration.Statement

The statements that change the schema of the database, and their SQL for
PostgreSQL.  Each statement is one block of text, its parts separated by single
spaces.
-/

namespace VaultGovernance

namespace Migration

/-- The type of a column. -/
inductive ColumnType where
  | uuid
  | timestamp
  | varchar (length : Nat)
  | text
  | integer
  | bigint
  | boolean
  | jsonb
  | numeric (precision scale : Nat)
  /-- An enumeration that was created before. -/
  | enumeration (name : String)
deriving DecidableEq

/-- What a column holds when nothing is given. -/
inductive Default where
  | none
  /-- A constant, written as text. -/
  | constant (text : String)
  /-- An expression. -/
  | expression (sql : String)
deriving DecidableEq

/-- A column of a table. -/
structure Column where
  name : String
  type : ColumnType
  required : Bool := false
  default : Default := .none
deriving DecidableEq

/-- A condition on the rows of a table. -/
inductive Constraint where
  | primaryKey (column : String)
  | namedPrimaryKey (name column : String)
  /-- The column names a row of another table; `cascades` says whether the row
  goes when that one goes. -/
  | foreignKey (name column table : String) (cascades : Bool)
  | unique (name : String) (columns : List String)
deriving DecidableEq

/-- A change of the schema or of the rows. -/
inductive Statement where
  | createTable (name : String) (columns : List Column) (constraints : List Constraint)
  | dropTable (name : String)
  | createIndex (name table : String) (columns : List String)
  | dropIndex (name : String)
  | addColumn (table : String) (column : Column)
  | dropColumn (table column : String)
  | addConstraint (table : String) (constraint : Constraint)
  | dropConstraint (table name : String)
  /-- Makes a column required or optional. -/
  | require (table column : String) (required : Bool)
  /-- Creates an enumeration unless there is one of its name. -/
  | ensureEnumeration (name : String) (values : List String)
  /-- A statement that is written out. -/
  | sql (parts : List String)
deriving DecidableEq

/-! ## Parts -/

/-- Texts joined by a comma and a blank. -/
def commaJoined (texts : List String) : String := ", ".intercalate texts

/-- A text constant. -/
def constantText (s : String) : String := "'" ++ s ++ "'"

/-- The names that must be written in double quotes. -/
def reservedNames : List String := ["order"]

/-- A name. -/
def nameText (name : String) : String :=
  if reservedNames.contains name then "\"" ++ name ++ "\"" else name

/-- Names in parentheses. -/
def namesText (names : List String) : String := "(" ++ commaJoined (names.map nameText) ++ ")"

namespace ColumnType

/-- The SQL of a type. -/
def clause : ColumnType → String
  | uuid => "UUID"
  | timestamp => "TIMESTAMP WITH TIME ZONE"
  | varchar length => "VARCHAR(" ++ natText length ++ ")"
  | text => "TEXT"
  | integer => "INTEGER"
  | bigint => "BIGINT"
  | boolean => "BOOLEAN"
  | jsonb => "JSONB"
  | numeric precision scale => "NUMERIC(" ++ natText precision ++ ", " ++ natText scale ++ ")"
  | enumeration name => name

end ColumnType

/-- The SQL of a default, with a blank in front of it. -/
def Default.clause : Default → String
  | none => ""
  | constant text => " DEFAULT " ++ constantText text
  | expression sql => " DEFAULT " ++ sql

/-- The SQL of a column. -/
def Column.clause (c : Column) : String :=
  nameText c.name ++ " " ++ c.type.clause ++ c.default.clause ++
    (if c.required then " NOT NULL" else "")

/-- The SQL of a constraint. -/
def Constraint.clause : Constraint → String
  | primaryKey column => "PRIMARY KEY " ++ namesText [column]
  | namedPrimaryKey name column => "CONSTRAINT " ++ name ++ " PRIMARY KEY " ++ namesText [column]
  | foreignKey name column table cascades =>
    "CONSTRAINT " ++ name ++ " FOREIGN KEY" ++ namesText [column] ++ " REFERENCES " ++ table ++
      " " ++ namesText ["id"] ++ (if cascades then " ON DELETE CASCADE" else "")
  | unique name columns => "CONSTRAINT " ++ name ++ " UNIQUE " ++ namesText columns

/-! ## Statements -/

namespace Statement

/-- The SQL of a statement without its closing semicolon. -/
def body : Statement → String
  | createTable name columns constraints =>
    "CREATE TABLE " ++ name ++ " ( " ++
      commaJoined (columns.map (·.clause) ++ constraints.map (·.clause)) ++ " )"
  | dropTable name => "DROP TABLE " ++ name
  | createIndex name table columns =>
    "CREATE INDEX " ++ name ++ " ON " ++ table ++ " " ++ namesText columns
  | dropIndex name => "DROP INDEX " ++ name
  | addColumn table column => "ALTER TABLE " ++ table ++ " ADD COLUMN " ++ column.clause
  | dropColumn table column => "ALTER TABLE " ++ table ++ " DROP COLUMN " ++ nameText column
  | addConstraint table constraint => "ALTER TABLE " ++ table ++ " ADD " ++ constraint.clause
  | dropConstraint table name => "ALTER TABLE " ++ table ++ " DROP CONSTRAINT " ++ name
  | require table column required =>
    "ALTER TABLE " ++ table ++ " ALTER COLUMN " ++ nameText column ++
      (if required then " SET NOT NULL" else " DROP NOT NULL")
  | ensureEnumeration name values =>
    "DO $$ BEGIN IF NOT EXISTS (SELECT 1 FROM pg_type WHERE typname = " ++ constantText name ++
      ") THEN CREATE TYPE " ++ name ++ " AS ENUM (" ++ commaJoined (values.map constantText) ++
      "); END IF; END $$;"
  | sql parts => " ".intercalate parts

/-- The SQL of a statement. -/
def text (s : Statement) : String := s.body ++ ";"

end Statement

end Migration

end VaultGovernance
