import VaultGovernance.Form.Checked
import VaultGovernance.Form.Scalar

/-!
# VaultGovernance.Form.Field

Checking forms.  A check looks at a value at a place; a form is checked entry
by entry in the order in which its entries are declared, and entries that are
not declared are passed over.
-/

namespace VaultGovernance

namespace Form

variable {α β : Type}

/-- A check of the value at a place. -/
abbrev Check (α : Type) := Place → Json → Checked α

/-- The check that a reader makes. -/
def checking (read : Reader α) : Check α := fun p j => Checked.ofExcept p j (read j)

/-- Null stands for nothing. -/
def orNull (check : Check α) : Check (Option α) := fun p j =>
  if j.isNull then .valid none else some <$> check p j

/-- The items of a list, checked from a position on. -/
def checkItems (check : Check α) (p : Place) : (position : Nat) → List Json → List (Checked α)
  | _, [] => []
  | i, j :: rest => check (p.item i) j :: checkItems check p (i + 1) rest

/-- A list. -/
def list (check : Check α) : Check (List α) := fun p j =>
  match j with
  | .arr items => Checked.all (checkItems check p 0 items)
  | _ => .fault p .noList j

/-- A list of any values. -/
def anyList : Check Json := fun p j =>
  match j with
  | .arr _ => .valid j
  | _ => .fault p .noList j

/-- An object whose values are all checked alike. -/
def object (check : Check α) : Check (OrderedMap α) := fun p j =>
  match j with
  | .obj entries =>
    Checked.all (entries.map fun e => (e.1, ·) <$> check (p.entry e.1) e.2)
  | _ => .fault p .noObject j

/-- An object of any values. -/
def anyObject : Check (OrderedMap Json) := object fun _ j => .valid j

/-- A value that must be present. -/
def required (name : String) (check : Check α) (p : Place) (form : OrderedMap Json) : Checked α :=
  match form.get? name with
  | some j => check (p.entry name) j
  | none => .fault (p.entry name) .missing (.obj form)

/-- A value that has a default. -/
def optional (name : String) (default : α) (check : Check α) (p : Place)
    (form : OrderedMap Json) : Checked α :=
  match form.get? name with
  | some j => check (p.entry name) j
  | none => .valid default

/-- A value that may be absent or null. -/
def maybe (name : String) (check : Check α) : Place → OrderedMap Json → Checked (Option α) :=
  optional name none (orNull check)

/-- A form: an object, checked by its entries. -/
def form (check : Place → OrderedMap Json → Checked α) : Check α := fun p j =>
  match j with
  | .obj entries => check p entries
  | _ => .fault p .noForm j

end Form

end VaultGovernance
