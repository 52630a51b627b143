import VaultGovernance.Error

/-!
# VaultGovernance.Json.Coerce

Using values of any kind where a number, a truth value or a sequence is wanted.
-/

namespace VaultGovernance

/-! ## Integers from values -/

/-- The message for a text that is no integer; long texts are cut. -/
def integerMessage (s : String) : String :=
  "invalid literal for int() with base 10: " ++ String.ofList ((Quoted.encode s.toList).take 200)

/-- The message for a text with too many digits. -/
def integerLimitMessage (digits : Nat) : String :=
  "Exceeds the limit (" ++ natText integerDigitLimit ++
    " digits) for integer string conversion: value has " ++ natText digits ++
    " digits; use sys.set_int_max_str_digits() to increase the limit"

/-- The message for an integer with too many digits that is to be a text. -/
def integerTextMessage : String :=
  "Exceeds the limit (" ++ natText integerDigitLimit ++
    " digits) for integer string conversion; use sys.set_int_max_str_digits() to increase the limit"

/-- The integer a text denotes, or the fault of reading it. -/
def integerOfText (s : String) : Except Fault Int :=
  match readInteger s with
  | .ok n => .ok n
  | .error .malformed => .error (.badValue (integerMessage s))
  | .error (.tooLong digits) => .error (.badValue (integerLimitMessage digits))

/-- The integer a value denotes: numbers are cut toward zero, truth values
count as 0 and 1, texts are read. -/
def Json.toInteger : Json → Except Fault Int
  | .int n => .ok n
  | .bool b => .ok (Json.truthInt b)
  | .str s => integerOfText s
  | .float x =>
    match x with
    | .nan => .error (.badValue "cannot convert float NaN to integer")
    | .infinite _ => .error .outOfRange
    | x =>
      match x.truncate? with
      | some n => .ok n
      | none => .error .outOfRange
  | _ => .error .wrongType

/-! ## Truth and elements -/

/-- Whether a value counts as true: null, false, zero and everything empty do
not. -/
def Json.isTruthy : Json → Bool
  | .null => false
  | .bool b => b
  | .int n => n ≠ 0
  | .float x => x ≠ .finite false 0 && x ≠ .finite true 0
  | .str s => s ≠ ""
  | .arr items => !items.isEmpty
  | .obj es => !es.isEmpty

/-- The elements of a value that is gone through one by one: the items of a
list, the characters of a text, the keys of an object. -/
def Json.elements : Json → Except Fault (List Json)
  | .arr items => .ok items
  | .str s => .ok (s.toList.map fun c => .str (String.singleton c))
  | .obj es => .ok (es.map fun e => .str e.1)
  | _ => .error .wrongType

end VaultGovernance
