import VaultGovernance.Form.Issue

/-!
# VaultGovernance.Form.Checked

The outcome of checking a form: a value, or the issues that were found.  Parts
of a form are checked independently of each other, so the issues of all parts
come together in order, and the whole is a value exactly when every part is.
-/

namespace VaultGovernance

/-- A value, or what is wrong. -/
inductive Checked (α : Type) where
  | valid (a : α)
  | invalid (issues : List Issue)

namespace Checked

variable {α β : Type}

/-- Applies a checked function to a checked value; the issues of both are
kept. -/
def apply : Checked (α → β) → Checked α → Checked β
  | valid f, valid a => valid (f a)
  | valid _, invalid js => invalid js
  | invalid is, valid _ => invalid is
  | invalid is, invalid js => invalid (is ++ js)

instance : Applicative Checked where
  pure := valid
  seq f a := apply f (a ())

/-- A single issue. -/
def fault (p : Place) (f : FormFault) (input : Json) : Checked α := invalid [⟨p, f, input⟩]

/-- The outcome of checking one value at a place. -/
def ofExcept (p : Place) (input : Json) : Except FormFault α → Checked α
  | .ok a => valid a
  | .error f => fault p f input

/-- The issues that were found. -/
def issues : Checked α → List Issue
  | valid _ => []
  | invalid is => is

/-- The value, if it is one. -/
def value? : Checked α → Option α
  | valid a => some a
  | invalid _ => none

/-- The outcomes of all items, together. -/
def all : List (Checked α) → Checked (List α)
  | [] => valid []
  | c :: cs => (· :: ·) <$> c <*> all cs

/-- The first outcome if it is a value, else the second one; when neither is,
the issues of both. -/
def orElse : Checked α → Checked α → Checked α
  | valid a, _ => valid a
  | invalid _, valid a => valid a
  | invalid is, invalid js => invalid (is ++ js)

end Checked

end VaultGovernance
