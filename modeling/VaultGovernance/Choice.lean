import VaultGovernance.Error

/-!
# VaultGovernance.Choice

Closed sets of named values, such as the stages of a vault.  Each has a name
for error messages, the list of its members and the text of each member.
-/

namespace VaultGovernance

/-- A type with finitely many members, each with a text of its own. -/
class Choice (α : Type) where
  /-- What messages call the type. -/
  name : String
  /-- The members in order. -/
  all : List α
  /-- The text of a member. -/
  text : α → String

namespace Choice

variable {α : Type} [Choice α]

/-- The member with a text. -/
def ofText? (s : String) : Option α :=
  (all : List α).find? fun a => text a = s

/-- The member with a text, if the value is a text of a member. -/
def ofJson? (j : Json) : Option α :=
  match j with
  | .str s => ofText? s
  | _ => none

/-- The message for a value that names no member. -/
def invalidMessage (α : Type) [Choice α] (j : Json) : String :=
  j.literal ++ " is not a valid " ++ name α

/-- The member a value names, or the fault of naming none. -/
def read (α : Type) [Choice α] (j : Json) : Except Fault α :=
  match ofJson? j with
  | some a => .ok a
  | none => .error (.badValue (invalidMessage α j))

/-- A member as a value. -/
def toJson (a : α) : Json := .str (text a)

end Choice

end VaultGovernance
