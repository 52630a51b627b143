/-!
# VaultGovernance.Number.Binary64

Double-precision numbers, exactly.  A finite one is a whole number of quanta,
one quantum being `2 ^ -1074`, the smallest positive double.  Every operation
computes the exact rational result and rounds it once, to the nearest
representable number with ties to even, so all of it is arithmetic on natural
numbers.
-/

namespace VaultGovernance

/-- Two to a power. -/
abbrev twoTo (n : Nat) : Nat := Nat.pow 2 n

/-- Ten to a power. -/
abbrev tenTo (n : Nat) : Nat := Nat.pow 10 n

/-- The quotient `num / den` rounded to the nearest natural number, a half
going to the even neighbour. -/
def roundHalfEven (num den : Nat) : Nat :=
  let q := num / den
  let r := num % den
  if 2 * r < den then q
  else if den < 2 * r then q + 1
  else q + q % 2

/-- A double-precision number. -/
inductive Binary64 where
  /-- A finite number, as its sign and its count of quanta `2 ^ -1074`. -/
  | finite (negative : Bool) (quanta : Nat)
  /-- An infinity. -/
  | infinite (negative : Bool)
  /-- The value that is not a number. -/
  | nan
deriving DecidableEq, Inhabited

namespace Binary64

/-- The binary digits of a quantum's place: a double is a multiple of
`2 ^ -1074`. -/
def quantumPlace : Nat := 1074

/-- The quanta of the number one. -/
def one : Nat := twoTo quantumPlace

/-- The count of quanta from which on a magnitude is infinite. -/
def limit : Nat := twoTo 2098

/-- The spacing of the representable numbers around a count of quanta: as much
as leaves 53 significant binary digits, and at least one quantum. -/
def spacing (quanta : Nat) : Nat := twoTo (quanta.log2 - 52)

/-- The representable count of quanta nearest to the quotient `num / den`. -/
def roundQuanta (num den : Nat) : Nat :=
  let unit := spacing (num / den)
  roundHalfEven num (den * unit) * unit

/-- The double nearest to `± num / den`, infinite beyond the largest one. -/
def ofQuotient (negative : Bool) (num den : Nat) : Binary64 :=
  let quanta := roundQuanta (num * one) den
  if quanta < limit then finite negative quanta else infinite negative

/-- The double nearest to an integer. -/
def ofInt (n : Int) : Binary64 :=
  ofQuotient (n < 0) n.natAbs 1

/-- Zero. -/
def zero : Binary64 := finite false 0

/-- The number one hundred. -/
def hundred : Binary64 := finite false (100 * one)

/-- Whether the number is neither infinite nor `nan`. -/
def isFinite : Binary64 → Bool
  | finite .. => true
  | _ => false

/-- The quotient of two integers, rounded once; nothing when it is too large
for a finite double.  The divisor is not zero. -/
def divInt? (a b : Int) : Option Binary64 :=
  let r := ofQuotient (a < 0 && !(b < 0) || !(a < 0) && b < 0) a.natAbs b.natAbs
  if r.isFinite then some r else none

/-- The product, rounded once. -/
def mul : Binary64 → Binary64 → Binary64
  | finite s a, finite t b => ofQuotient (s != t) (a * b) (one * one)
  | finite s a, infinite t => if a = 0 then nan else infinite (s != t)
  | infinite s, finite t b => if b = 0 then nan else infinite (s != t)
  | infinite s, infinite t => infinite (s != t)
  | _, _ => nan

/-- A key that orders the doubles as numbers; `nan` has none. -/
def rank? : Binary64 → Option Int
  | finite negative quanta => some (if negative then -(quanta : Int) else quanta)
  | infinite negative => some (if negative then -(limit : Int) else limit)
  | nan => none

/-- Whether the first number is at most the second; never so for `nan`. -/
def le (x y : Binary64) : Bool :=
  match x.rank?, y.rank? with
  | some a, some b => a ≤ b
  | _, _ => false

/-- Whether two doubles are equal as numbers: the two zeros are, `nan` is not
equal to itself. -/
def eq (x y : Binary64) : Bool :=
  x.le y && y.le x

/-- The integer part, toward zero, of a finite number. -/
def truncate? : Binary64 → Option Int
  | finite negative quanta =>
    some (if negative then -((quanta / one : Nat) : Int) else (quanta / one : Nat))
  | _ => none

/-- The integer a finite number equals, if it equals one. -/
def toInt? (x : Binary64) : Option Int :=
  match x with
  | finite _ quanta => if quanta % one = 0 then x.truncate? else none
  | _ => none

/-- The magnitude in units of `10 ^ -places`, rounded half to even. -/
def fixedUnits (places quanta : Nat) : Nat :=
  roundHalfEven (quanta * tenTo places) one

/-- The bits of the interchange format. -/
def toBits : Binary64 → Nat
  | finite negative quanta =>
    let e := quanta.log2 - 52
    (if negative then twoTo 63 else 0) + e * twoTo 52 + quanta / twoTo e
  | infinite negative => (if negative then twoTo 63 else 0) + 2047 * twoTo 52
  | nan => 2047 * twoTo 52 + twoTo 51

end Binary64

end VaultGovernance
