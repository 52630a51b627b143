import VaultGovernance.Json.Basic

/-!
# VaultGovernance.Store.Connection

How the database is connected to, and what is learned from its refusals.
-/

namespace VaultGovernance

/-- How connections are made. -/
inductive ConnectionPlan where
  /-- One connection that everybody uses, in any thread. -/
  | shared
  /-- A pool of so many connections and so many more in need, each tested before
  it is used. -/
  | pooled (size overflow : Nat)
deriving DecidableEq

namespace ConnectionPlan

/-- The scheme of databases that live in the process. -/
def embeddedScheme : String := "sqlite"

/-- The plan for a database: an embedded one has a single connection. -/
def forUrl (url : String) : ConnectionPlan :=
  if embeddedScheme.toList.isPrefixOf url.toList then shared else pooled 5 10

/-- The options that a plan stands for. -/
def options : ConnectionPlan → OrderedMap Json
  | shared =>
    [("connect_args", .obj [("check_same_thread", .bool false)]), ("poolclass", .str "StaticPool")]
  | pooled size overflow =>
    [("pool_pre_ping", .bool true), ("pool_size", .int size), ("max_overflow", .int overflow)]

end ConnectionPlan

/-- What the database says when it refuses a row: a text, and the name of the
constraint if it tells it apart. -/
structure StoreRefusal where
  text : String
  constraintName : Option String
deriving DecidableEq

/-- The constraint that refused a row: its name, or the whole text where no name
is told. -/
def StoreRefusal.constraint (r : StoreRefusal) : String :=
  match r.constraintName with
  | some name => if name = "" then r.text else name
  | none => r.text

end VaultGovernance
