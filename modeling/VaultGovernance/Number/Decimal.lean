import VaultGovernance.Number.Binary64
import VaultGovernance.Text.Integer

/-!
# VaultGovernance.Number.Decimal

Decimal numbers with their digits kept: `1.50` and `1.5` are equal as numbers
and differ as texts.  Arithmetic works on 28 significant digits, a half going
to the even neighbour, and refuses results beyond the largest exponent.
-/

namespace VaultGovernance

/-- A decimal number. -/
inductive Decimal where
  /-- The number `± coefficient * 10 ^ exponent`. -/
  | finite (negative : Bool) (coefficient : Nat) (exponent : Int)
  /-- An infinity. -/
  | infinite (negative : Bool)
  /-- A value that is not a number, with its diagnostic payload. -/
  | nan (negative signalling : Bool) (payload : Nat)
deriving DecidableEq, Inhabited

namespace Decimal

/-- The significant digits that arithmetic keeps. -/
def precision : Nat := 28

/-- The largest exponent of a first digit that arithmetic produces. -/
def maxExponent : Int := 999999

/-- A whole number. -/
def ofNat (n : Nat) : Decimal := finite false n 0

/-- The count of decimal digits of a coefficient; zero has one. -/
def digitCount (n : Nat) : Nat := (Nat.toDigits 10 n).length

/-- Whether the number is neither infinite nor `nan`. -/
def isFinite : Decimal → Bool
  | finite .. => true
  | _ => false

/-- The exponent of the first digit. -/
def leadingExponent (coefficient : Nat) (exponent : Int) : Int :=
  exponent + digitCount coefficient - 1

/-- Whether a number is at least `10 ^ k`: it is positive, and its first digit
stands at `10 ^ k` or above. -/
def isAtLeastPowerOfTen (k : Int) : Decimal → Bool
  | finite negative coefficient exponent =>
    !negative && coefficient ≠ 0 && k ≤ leadingExponent coefficient exponent
  | infinite negative => !negative
  | nan .. => false

/-- A coefficient cut to the working precision, with the places that were
rounded away. -/
def roundCoefficient (coefficient : Nat) : Nat × Nat :=
  let excess := digitCount coefficient - precision
  let rounded := roundHalfEven coefficient (tenTo excess)
  if rounded = tenTo precision then (rounded / 10, excess + 1) else (rounded, excess)

/-- The integer part, toward zero, of `± coefficient * 10 ^ exponent`. -/
def truncateParts (negative : Bool) (coefficient : Nat) (exponent : Int) : Int :=
  let magnitude :=
    if 0 ≤ exponent then coefficient * tenTo exponent.toNat
    else if (-exponent).toNat < digitCount coefficient then coefficient / tenTo (-exponent).toNat
    else 0
  signedInt negative magnitude

/-- The integer part, toward zero, of a finite number. -/
def truncate? : Decimal → Option Int
  | finite negative coefficient exponent => some (truncateParts negative coefficient exponent)
  | _ => none

/-- The product with `10 ^ k` at the working precision; nothing when the
result lies beyond the largest exponent. -/
def scaleByPowerOfTen? (k : Int) : Decimal → Option Decimal
  | finite negative coefficient exponent =>
    let (rounded, places) := roundCoefficient coefficient
    let e := exponent + k + places
    if rounded ≠ 0 ∧ maxExponent < leadingExponent rounded e then none
    else some (finite negative rounded e)
  | x => some x

/-- The double nearest to the number. -/
def toBinary64 : Decimal → Binary64
  | finite negative coefficient exponent =>
    let first := leadingExponent coefficient exponent
    if coefficient = 0 then .finite negative 0
    else if 400 < first then .infinite negative
    else if first < -400 then .finite negative 0
    else .ofQuotient negative (coefficient * tenTo exponent.toNat) (tenTo (-exponent).toNat)
  | infinite negative => .infinite negative
  | nan .. => .nan

/-- Whether two numbers are equal as numbers, whatever their digits. -/
def numEq : Decimal → Decimal → Bool
  | finite s a e, finite t b f =>
    (a = 0 && b = 0) ||
      (s = t && a ≠ 0 && b ≠ 0 && leadingExponent a e = leadingExponent b f &&
        a * tenTo (e - f).toNat = b * tenTo (f - e).toNat)
  | infinite s, infinite t => s = t
  | _, _ => false

/-- The decimal with `places` digits after the point nearest to a double. -/
def ofBinary64 (places : Nat) : Binary64 → Decimal
  | .finite negative quanta =>
    finite negative (Binary64.fixedUnits places quanta) (-(places : Int))
  | .infinite negative => infinite negative
  | .nan => nan false false 0

end Decimal

end VaultGovernance
