import VaultGovernance.Number.Binary64
import VaultGovernance.Text.Integer

/-!
# VaultGovernance.Number.Shortest

The shortest decimal text of a double: the fewest significant digits that read
back as the same double, and of those the nearest to it.  For one digit, then
two, and so on, the two neighbours of the value on that decimal grid are
tested against the interval of reals that round to the double; seventeen
digits always suffice.
-/

namespace VaultGovernance

/-- The least `k` with `num < den * 10 ^ k`, for a positive quotient. -/
def decimalPoint (num den : Nat) : Int :=
  if den ≤ num then (Nat.toDigits 10 (num / den)).length
  else 1 - ((Nat.toDigits 10 ((den - 1) / num)).length : Int)

/-- A decimal grid seen from a value: the value is `num / den` steps of the
grid, and the reals that round to the double lie between `low / den` and
`high / den` steps, the ends included when `closed`. -/
structure GridView where
  num : Nat
  low : Nat
  high : Nat
  den : Nat
  closed : Bool

/-- Whether a grid point reads back as the double. -/
def GridView.readsBack (g : GridView) (steps : Nat) : Bool :=
  let p := steps * g.den
  if g.closed then g.low ≤ p && p ≤ g.high else g.low < p && p < g.high

/-- The nearest grid point that reads back as the double; of two equally near
the even one. -/
def GridView.nearest? (g : GridView) : Option Nat :=
  let below := g.num / g.den
  match g.readsBack below, g.readsBack (below + 1) with
  | true, false => some below
  | false, true => some (below + 1)
  | true, true => some (roundHalfEven g.num g.den)
  | false, false => none

/-- The view of a positive count of quanta on the grid of step `10 ^ place`.
Everything is scaled by four, so that the ends of the interval are whole. -/
def gridView (quanta : Nat) (place : Int) : GridView :=
  let unit := Binary64.spacing quanta
  let lowGap := if quanta = twoTo quanta.log2 ∧ 1 < unit then unit else 2 * unit
  let up := tenTo (-place).toNat
  { num := 4 * quanta * up
    low := (4 * quanta - lowGap) * up
    high := (4 * quanta + 2 * unit) * up
    den := 4 * Binary64.one * tenTo place.toNat
    closed := quanta / unit % 2 = 0 }

/-- The shortest digits, tried from `count` digits on: the digits as a number
and the place of the last one. -/
def shortestFrom (quanta : Nat) (point : Int) : (fuel count : Nat) → Nat × Int
  | 0, count => (quanta * tenTo (count - point).toNat / Binary64.one, point - count)
  | fuel + 1, count =>
    match (gridView quanta (point - count)).nearest? with
    | some digits => (digits, point - count)
    | none => shortestFrom quanta point fuel (count + 1)

/-- Drops the zeros at the end of a digit list. -/
def dropTrailingZeros (ds : List Char) : List Char :=
  (ds.reverse.dropWhile (· = '0')).reverse

/-- The shortest digits of a positive count of quanta, and the position of the
decimal point counted from the first digit. -/
def shortestDigits (quanta : Nat) : List Char × Int :=
  let point := decimalPoint quanta Binary64.one
  let (digits, place) := shortestFrom quanta point 17 1
  let ds := Nat.toDigits 10 digits
  (dropTrailingZeros ds, place + ds.length)

/-- The text of digits with the decimal point at `point`: positional for
points from -3 to 16, with at least one digit on each side, and with an
exponent of at least two digits otherwise. -/
def placeDigits (ds : List Char) (point : Int) : List Char :=
  if -4 < point ∧ point ≤ 16 then
    if point ≤ 0 then '0' :: '.' :: (List.replicate (-point).toNat '0' ++ ds)
    else
      let n := point.toNat
      let whole := ds.take n ++ List.replicate (n - ds.length) '0'
      let fraction := ds.drop n
      whole ++ '.' :: (if fraction = [] then ['0'] else fraction)
  else
    let e := point - 1
    let digits := Nat.toDigits 10 e.natAbs
    let exponent := if digits.length < 2 then '0' :: digits else digits
    let fraction := ds.drop 1
    ds.take 1 ++ (if fraction = [] then [] else '.' :: fraction) ++
      'e' :: (if e < 0 then '-' else '+') :: exponent

/-- The text of a double. -/
def Binary64.text : Binary64 → String
  | finite negative quanta =>
    let body :=
      if quanta = 0 then ['0', '.', '0']
      else
        let (ds, point) := shortestDigits quanta
        placeDigits ds point
    String.ofList (if negative then '-' :: body else body)
  | infinite negative => if negative then "-inf" else "inf"
  | nan => "nan"

end VaultGovernance
