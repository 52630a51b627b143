import VaultGovernance.Json.Basic
import VaultGovernance.Number.DecimalText

/-!
# VaultGovernance.Http.Detail

Details of validation errors before they are sent.  They may hold values that
JSON has no form for; those are sent as their texts.
-/

namespace VaultGovernance

/-- A kind of values. -/
inductive ValueKind where
  | text
  | integer
  | decimal
deriving DecidableEq

/-- The text that shows a kind of values. -/
def ValueKind.shown : ValueKind → String
  | text => "<class 'str'>"
  | integer => "<class 'int'>"
  | decimal => "<class 'decimal.Decimal'>"

/-- A detail. -/
inductive Detail where
  /-- A bare value that JSON has a form for. -/
  | plain (j : Json)
  | decimal (d : Decimal)
  /-- An error, by what it says. -/
  | error (message : String)
  | kind (k : ValueKind)
  | items (ds : List Detail)
  | entries (es : List (String × Detail))

namespace Detail

mutual
/-- A detail as a value. -/
def toJson : Detail → Json
  | plain j => j
  | decimal d => .str d.scientificText
  | error message => .str message
  | kind k => .str k.shown
  | items ds => .arr (itemsToJson ds)
  | entries es => .obj (entriesToJson es)

/-- Details in order as values. -/
def itemsToJson : List Detail → List Json
  | [] => []
  | d :: ds => toJson d :: itemsToJson ds

/-- Details under keys as values. -/
def entriesToJson : List (String × Detail) → List (String × Json)
  | [] => []
  | (k, d) :: es => (k, toJson d) :: entriesToJson es
end

end Detail

end VaultGovernance
