import VaultGovernance.Number.Decimal
import VaultGovernance.Text.Blank
import VaultGovernance.Text.Digit

/-!
# VaultGovernance.Number.DecimalText

Decimal numbers as text.  There are two written forms: the plain one without
an exponent, and the scientific one, which takes an exponent when there are
zeros to add on the right or more than five on the left of the digits.  The
reader accepts blanks around the number, underscores anywhere, digits of any
script, and the names of the infinities and of the values that are no numbers.
-/

namespace VaultGovernance

namespace Decimal

/-- The largest exponent of a first digit that a text may give. -/
def maxTextExponent : Int := 999999999999999999

/-- The smallest exponent of a last digit that a text may give. -/
def minTextExponent : Int := -1999999999999999997

/-- The sign as it is written. -/
def signText (negative : Bool) : List Char := if negative then ['-'] else []

/-- Digits with the decimal point `point` places after the first digit's
start; a point at or before the start is led by a zero. -/
def pointDigits (ds : List Char) (point : Int) : List Char :=
  if point ≤ 0 then '0' :: '.' :: (List.replicate (-point).toNat '0' ++ ds)
  else if point.toNat < ds.length then ds.take point.toNat ++ '.' :: ds.drop point.toNat
  else ds ++ List.replicate (point.toNat - ds.length) '0'

/-- The text of a value that is not a finite number. -/
def specialText : Decimal → List Char
  | infinite negative => signText negative ++ "Infinity".toList
  | nan negative signalling payload =>
    signText negative ++ (if signalling then ['s'] else []) ++ "NaN".toList ++
      (if payload = 0 then [] else Nat.toDigits 10 payload)
  | finite .. => []

/-- The text without an exponent, all digits kept. -/
def plainText : Decimal → String
  | finite negative coefficient exponent =>
    let ds := Nat.toDigits 10 coefficient
    let body :=
      if 0 ≤ exponent ∧ coefficient = 0 then ['0']
      else pointDigits ds (exponent + ds.length)
    String.ofList (signText negative ++ body)
  | x => String.ofList x.specialText

/-- The text that takes an exponent where the plain one would have to add
zeros on the right, or more than five of them on the left. -/
def scientificText : Decimal → String
  | finite negative coefficient exponent =>
    let ds := Nat.toDigits 10 coefficient
    let point := exponent + ds.length
    let body :=
      if exponent ≤ 0 ∧ -6 < point then pointDigits ds point
      else
        let e := point - 1
        pointDigits ds 1 ++ 'E' :: (if e < 0 then '-' else '+') :: Nat.toDigits 10 e.natAbs
    String.ofList (signText negative ++ body)
  | x => String.ofList x.specialText

/-- Splits a list into its leading digits, as values, and the rest. -/
def spanDigits (s : List Char) : List Nat × List Char :=
  (s.takeWhile isDigit |>.filterMap digitValue?, s.dropWhile isDigit)

/-- The lower-case form of an ASCII text. -/
def lowerAscii (s : List Char) : List Char := s.map Char.toLower

/-- The exponent part of a number: nothing is exponent zero. -/
def readExponent? : List Char → Option Int
  | [] => some 0
  | c :: rest =>
    if c = 'e' ∨ c = 'E' then
      let (negative, body) := splitSign rest
      let (ds, tail) := spanDigits body
      if ds = [] ∨ tail ≠ [] then none else some (signedInt negative (ofDigits ds))
    else none

/-- Digits with an optional point and exponent. -/
def readNumber? (negative : Bool) (s : List Char) : Option Decimal := do
  let (whole, rest) := spanDigits s
  let (fraction, rest) := match rest with
    | '.' :: rest => spanDigits rest
    | rest => ([], rest)
  if whole = [] ∧ fraction = [] then none
  else
    let exponent := (← readExponent? rest) - fraction.length
    let coefficient := ofDigits (whole ++ fraction)
    if leadingExponent coefficient exponent ≤ maxTextExponent ∧ minTextExponent ≤ exponent then
      some (finite negative coefficient exponent)
    else none

/-- The payload after the name of a value that is no number. -/
def readPayload? (negative signalling : Bool) (s : List Char) : Option Decimal :=
  let (ds, tail) := spanDigits s
  if tail = [] then some (nan negative signalling (ofDigits ds)) else none

/-- A number without blanks and underscores. -/
def readSigned? (s : List Char) : Option Decimal :=
  let (negative, body) := splitSign s
  match lowerAscii body with
  | ['i', 'n', 'f'] => some (infinite negative)
  | ['i', 'n', 'f', 'i', 'n', 'i', 't', 'y'] => some (infinite negative)
  | 'n' :: 'a' :: 'n' :: payload => readPayload? negative false payload
  | 's' :: 'n' :: 'a' :: 'n' :: payload => readPayload? negative true payload
  | _ => readNumber? negative body

/-- The decimal a text denotes. -/
def ofText? (s : String) : Option Decimal :=
  readSigned? ((trimBoth isBlank s.toList).filter (· ≠ '_'))

end Decimal

/-- The double a decimal text denotes, rounded once. -/
def Binary64.ofDecimalText? (s : String) : Option Binary64 :=
  (Decimal.ofText? s).map Decimal.toBinary64

end VaultGovernance
