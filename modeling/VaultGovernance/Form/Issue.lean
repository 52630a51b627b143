import VaultGovernance.Json.Basic

/-!
# VaultGovernance.Form.Issue

What can be wrong with submitted values, and where.  A check of a form answers
with every issue it finds; each has a place, the way from the outermost value
to the offending one.
-/

namespace VaultGovernance

/-- One step on the way to a value. -/
inductive PlaceStep where
  | key (name : String)
  | index (i : Nat)
deriving DecidableEq

namespace PlaceStep

/-- A step as a value. -/
def toJson : PlaceStep → Json
  | key name => .str name
  | index i => .int i

end PlaceStep

/-- The way to a value, the last step first. -/
abbrev Place := List PlaceStep

namespace Place

/-- The place of an entry of an object. -/
def entry (p : Place) (name : String) : Place := .key name :: p

/-- The place of an item of a list. -/
def item (p : Place) (i : Nat) : Place := .index i :: p

/-- A place as a value, the first step first. -/
def toJson (p : Place) : Json := .arr (p.reverse.map (·.toJson))

end Place

/-- What is wrong with a submitted value. -/
inductive FormFault where
  | missing
  | noText
  | textTooShort
  | textTooLong
  /-- The value is no member of a closed set. -/
  | noMember
  | noIdentifier
  | noList
  | noObject
  /-- The value of a whole form is not an object. -/
  | noForm
  /-- A container has too few elements. -/
  | tooFew
  | noDecimal
  | unreadableDecimal
  | notFinite
  | notGreater
  | below
  | above
  | noInteger
  | unreadableInteger
  /-- An integer has too many digits. -/
  | integerTooLong
  /-- A number with a fraction stands for an integer. -/
  | fractional
  | noTruth
  | unreadableTruth
  | noNumber
  | unreadableNumber
  | noDate
  | unreadableDate
  | dateOutOfRange
  /-- The text of a form is not JSON. -/
  | noJson
deriving DecidableEq

namespace FormFault

/-- The stable name of a fault. -/
def code : FormFault → String
  | missing => "missing"
  | noText => "string_type"
  | textTooShort => "string_too_short"
  | textTooLong => "string_too_long"
  | noMember => "enum"
  | noIdentifier => "uuid_parsing"
  | noList => "list_type"
  | noObject => "dict_type"
  | noForm => "model_attributes_type"
  | tooFew => "too_short"
  | noDecimal => "decimal_type"
  | unreadableDecimal => "decimal_parsing"
  | notFinite => "finite_number"
  | notGreater => "greater_than"
  | below => "greater_than_equal"
  | above => "less_than_equal"
  | noInteger => "int_type"
  | unreadableInteger => "int_parsing"
  | integerTooLong => "int_parsing_size"
  | fractional => "int_from_float"
  | noTruth => "bool_type"
  | unreadableTruth => "bool_parsing"
  | noNumber => "float_type"
  | unreadableNumber => "float_parsing"
  | noDate => "datetime_type"
  | unreadableDate => "datetime_from_date_parsing"
  | dateOutOfRange => "datetime_parsing"
  | noJson => "json_invalid"

end FormFault

/-- A fault at a place. -/
structure Issue where
  place : Place
  fault : FormFault
  /-- What was submitted at the place; of a missing value, what it is missing
  from. -/
  input : Json
deriving DecidableEq

namespace Issue

/-- Whether what was submitted can be sent back: JSON has no form for numbers
that are not finite. -/
def canEcho (i : Issue) : Bool := i.input.allFinite

/-- An issue as a value. -/
def toJson (i : Issue) : Json :=
  .obj [("loc", i.place.toJson), ("type", .str i.fault.code)]

end Issue

end VaultGovernance
