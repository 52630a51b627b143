import VaultGovernance.Number.Decimal

/-!
# VaultGovernance.Number.FixedText

Doubles with a chosen number of digits: behind the point, in scientific form,
or in the shorter of the two.  The digits are those of the exact value, a half
going to the even neighbour.
-/

namespace VaultGovernance

namespace Binary64

/-- The decimal places that bring every positive double to one or more. -/
def tinyPlaces : Nat := 400

/-- The exponent of the first decimal digit of a positive count of quanta. -/
def decimalExponent (quanta : Nat) : Int :=
  (Decimal.digitCount (quanta * tenTo tinyPlaces / one) : Int) - 1 - tinyPlaces

/-- The first `digits` decimal digits of a count of quanta as one number, and
the exponent of the first of them. -/
def significant (digits quanta : Nat) : Nat × Int :=
  if quanta = 0 then (0, 0)
  else
    let e := decimalExponent quanta
    let shift : Int := digits - 1 - e
    let n := roundHalfEven (quanta * tenTo shift.toNat) (one * tenTo (-shift).toNat)
    if n = tenTo digits then (n / 10, e + 1) else (n, e)

/-- Digits padded with zeros on the left. -/
def paddedDigits (width n : Nat) : List Char :=
  let ds := Nat.toDigits 10 n
  List.replicate (width - ds.length) '0' ++ ds

/-- A number in units of `10 ^ -places`, with its point; `keepPoint` keeps a
point that nothing follows. -/
def pointedText (places : Nat) (keepPoint : Bool) (n : Nat) : List Char :=
  let ds := paddedDigits (places + 1) n
  let whole := ds.take (ds.length - places)
  let fraction := ds.drop (ds.length - places)
  if fraction = [] then whole ++ (if keepPoint then ['.'] else []) else whole ++ '.' :: fraction

/-- The magnitude with so many digits behind the point. -/
def fixedText (places : Nat) (keepPoint : Bool) (quanta : Nat) : List Char :=
  pointedText places keepPoint (fixedUnits places quanta)

/-- A decimal exponent with its sign and at least two digits. -/
def exponentText (e : Int) : List Char :=
  'e' :: (if e < 0 then '-' else '+') :: paddedDigits 2 e.natAbs

/-- The magnitude in scientific form with so many digits behind the point. -/
def scientificText (places : Nat) (keepPoint : Bool) (quanta : Nat) : List Char :=
  let (n, e) := significant (places + 1) quanta
  pointedText places keepPoint n ++ exponentText e

/-- A text with a point, without the zeros at its end and a point before
them. -/
def withoutZeros (s : List Char) : List Char :=
  if s.contains '.' then
    let kept := s.reverse.dropWhile (· = '0')
    (if kept.head? = some '.' then kept.drop 1 else kept).reverse
  else s

/-- The magnitude with so many significant digits, in scientific form when its
exponent is below -4 or not below the number of digits.  Zeros at the end are
left out unless they are to be kept. -/
def generalText (digits : Nat) (keepZeros : Bool) (quanta : Nat) : List Char :=
  let digits := max digits 1
  let (n, e) := significant digits quanta
  let trim (s : List Char) : List Char := if keepZeros then s else withoutZeros s
  if -4 ≤ e ∧ e < digits then
    trim (pointedText (digits - 1 - e).toNat keepZeros n)
  else trim (pointedText (digits - 1) keepZeros n) ++ exponentText e

end Binary64

end VaultGovernance
