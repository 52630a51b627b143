import VaultGovernance.Json.Basic
import VaultGovernance.Number.Shortest
import VaultGovernance.Text.Quoted

/-!
# VaultGovernance.Json.Literal

Values as error messages show them.  The literal form quotes texts and spells
null and the truth values `None`, `True` and `False`; the display form differs
from it only for a bare text, which stands for itself.  Neither exists for a
value with an integer that has too many digits (`canShow`), so whoever shows a
value asks for that first.
-/

namespace VaultGovernance

namespace Json

mutual
/-- The literal form of a value. -/
def literal : Json → String
  | null => "None"
  | bool b => if b then "True" else "False"
  | int n => intText n
  | float x => x.text
  | str s => quoted s
  | arr items => "[" ++ literalItems items ++ "]"
  | obj es => "\x7b" ++ literalEntries es ++ "\x7d"

/-- The literal forms of the items, separated by commas. -/
def literalItems : List Json → String
  | [] => ""
  | [x] => literal x
  | x :: y :: rest => literal x ++ ", " ++ literalItems (y :: rest)

/-- The literal forms of the entries, separated by commas. -/
def literalEntries : List (String × Json) → String
  | [] => ""
  | [(k, x)] => quoted k ++ ": " ++ literal x
  | (k, x) :: y :: rest => quoted k ++ ": " ++ literal x ++ ", " ++ literalEntries (y :: rest)
end

mutual
/-- The count of digits of the first integer in a value that has too many. -/
def overlong? : Json → Option Nat
  | int n => excessDigits? n
  | arr items => overlongItems? items
  | obj es => overlongEntries? es
  | _ => none

/-- The count of digits of the first integer in a list that has too many. -/
def overlongItems? : List Json → Option Nat
  | [] => none
  | x :: xs => (overlong? x).or (overlongItems? xs)

/-- The count of digits of the first integer in an entry list that has too many. -/
def overlongEntries? : List (String × Json) → Option Nat
  | [] => none
  | (_, x) :: xs => (overlong? x).or (overlongEntries? xs)
end

/-- Whether a value can be shown, or written as a text at all: no integer in it has too many
digits. -/
def canShow (j : Json) : Bool := (overlong? j).isNone

/-- The display form of a value: a text stands for itself. -/
def display : Json → String
  | str s => s
  | j => j.literal

end Json

end VaultGovernance
