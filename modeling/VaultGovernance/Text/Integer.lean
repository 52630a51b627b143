import VaultGovernance.Text.Blank
import VaultGovernance.Text.Digit

/-!
# VaultGovernance.Text.Integer

Whole numbers as text.  The reader is liberal: blanks around the number, a
sign, digits of any script and single underscores between digits are accepted.
The writer gives the canonical form, and reading it back is the identity up to
the digit limit (`readInteger`).
-/

namespace VaultGovernance

/-- The most digits an integer may have to be read from a text, or to be written as one. -/
def integerDigitLimit : Nat := 4300

/-- Why a text is not read as an integer. -/
inductive IntegerError where
  /-- The text does not have the form of an integer. -/
  | malformed
  /-- The text has the form of an integer, with more digits than are read. -/
  | tooLong (digits : Nat)
deriving DecidableEq

/-- Digits with single underscores between them, as their values; nothing when
some other character stands among them, or an underscore stands alone. -/
def digitGroups? : List Char → Option (List Nat)
  | [] => none
  | [c] => (digitValue? c).map ([·])
  | c :: '_' :: rest => do return (← digitValue? c) :: (← digitGroups? rest)
  | c :: rest => do return (← digitValue? c) :: (← digitGroups? rest)

/-- A sign in front of a number: whether it is negative, and what follows. -/
def splitSign : List Char → Bool × List Char
  | '-' :: rest => (true, rest)
  | '+' :: rest => (false, rest)
  | s => (false, s)

/-- The integer with a sign and an absolute value. -/
def signedInt (negative : Bool) (n : Nat) : Int :=
  if negative then -(n : Int) else n

/-- The integer a text denotes. -/
def readInteger (s : String) : Except IntegerError Int :=
  let (negative, body) := splitSign (trimBoth isIntegerBlank s.toList)
  match digitGroups? body with
  | none => .error .malformed
  | some ds =>
    if ds.length ≤ integerDigitLimit then .ok (signedInt negative (ofDigits ds))
    else .error (.tooLong ds.length)

/-- The decimal digits of a natural number, most significant first. -/
def natText (n : Nat) : String :=
  String.ofList (Nat.toDigits 10 n)

/-- The count of digits of an integer that has more of them than are read or written. -/
def excessDigits? (n : Int) : Option Nat :=
  let digits := (Nat.toDigits 10 n.natAbs).length
  if digits ≤ integerDigitLimit then none else some digits

/-- The canonical text of an integer. -/
def intText (n : Int) : String :=
  if n < 0 then "-" ++ natText n.natAbs else natText n.natAbs

end VaultGovernance
