import VaultGovernance.Error
import VaultGovernance.Number.DecimalText

/-!
# VaultGovernance.Store.Column

What a column keeps of a value.  Rows of the store hold their columns as they
are read back, so each rule here takes a value on its way in and answers with
what will be read later, or refuses it.

* An integer column holds 64 bits with sign.
* A numeric column keeps the double nearest to a decimal and shows it with a
  fixed number of digits; what is not a number is kept as nothing.
* A document column keeps a JSON value; a bare number in it is kept as an
  integer when it is one that fits 64 bits, and as a double otherwise.
-/

namespace VaultGovernance

namespace Column

/-- The bound of 64-bit integers with sign. -/
def bigintBound : Int := (twoTo 63 : Nat)

/-- Whether an integer fits 64 bits with sign. -/
def fitsBigint (n : Int) : Bool := -bigintBound ≤ n && n < bigintBound

/-- An integer column. -/
def bigint (n : Int) : Except Fault Int :=
  if fitsBigint n then .ok n else .error .outOfRange

/-- An integer column that may be empty. -/
def optionalBigint : Option Int → Except Fault (Option Int)
  | none => .ok none
  | some n => (bigint n).map some

/-- A column that must not be empty. -/
def required {α : Type} (table column : String) : Option α → Except Fault α
  | some a => .ok a
  | none => .error (.integrity ("NOT NULL constraint failed: " ++ table ++ "." ++ column))

theorem required_eq_ok {α : Type} {table column : String} {x : Option α} {a : α} :
    required table column x = .ok a ↔ x = some a := by
  cases x <;> simp [required]

/-- What a numeric column with `places` digits shows of a double. -/
def shownDouble (places : Nat) : Binary64 → Option Decimal
  | .nan => none
  | .finite _ 0 => some (.ofBinary64 places .zero)
  | x => some (.ofBinary64 places x)

/-- A numeric column with `places` digits after the point. -/
def numeric (places : Nat) : Decimal → Except Fault (Option Decimal)
  | .nan _ true _ => .error .unstorable
  | d => .ok (shownDouble places d.toBinary64)

/-- A numeric column that may be empty. -/
def optionalNumeric (places : Nat) : Option Decimal → Except Fault (Option Decimal)
  | none => .ok none
  | some d => numeric places d

/-- The digits after the point of quantities and thresholds. -/
def moneyPlaces : Nat := 2

/-- The digits after the point of multipliers. -/
def multiplierPlaces : Nat := 10

/-- A document column. -/
def document : Json → Json
  | .int n => if fitsBigint n then .int n else .float (.ofInt n)
  | .float x =>
    match x.toInt? with
    | some n => if fitsBigint n then .int n else .float x
    | none => .float x
  | j => j

/-- A write to a document column: a value equal to the kept one is not
written. -/
def overwriteDocument (old new : Json) : Json :=
  if Json.same old new then old else document new

/-- A write to a numeric column: a number equal to the kept one is not
written. -/
def overwriteNumeric (places : Nat) (old : Option Decimal) (new : Decimal) :
    Except Fault (Option Decimal) :=
  match old with
  | some d => if d.numEq new then .ok old else numeric places new
  | none => numeric places new

/-- A text column given a value of any kind. -/
def textOfJson : Json → Except Fault (Option String)
  | .null => .ok none
  | .str s => .ok (some s)
  | .int n => (bigint n).map fun n => some (intText n)
  | .bool b => .ok (some (if b then "1" else "0"))
  | .float x => .ok (some x.text)
  | _ => .error .unstorable

/-- An integer column given a value of any kind.  A number with a fraction and a text are refused
here, since a row has an integer in such a column.  The store itself is not as strict: it keeps
a fraction as it is, and a text as the number that it spells or else as the text. -/
def integerOfJson : Json → Except Fault (Option Int)
  | .null => .ok none
  | .int n => (bigint n).map some
  | .bool b => .ok (some (Json.truthInt b))
  | .float x =>
    match x.toInt? with
    | some n => (bigint n).map some
    | none => .error .unstorable
  | _ => .error .unstorable

/-- A numeric column given a value of any kind. -/
def decimalOfJson : Json → Except Fault (Option Decimal)
  | .null => .ok none
  | .int n => .ok (some (.finite (n < 0) n.natAbs 0))
  | .bool b => .ok (some (.ofNat (if b then 1 else 0)))
  | .float x => .ok (Decimal.ofText? x.text)
  | .str s =>
    match Decimal.ofText? s with
    | some d => .ok (some d)
    | none => .error .unstorable
  | _ => .error .unstorable

/-- An identifier column given a value of any kind. -/
def uuidOfJson : Json → Except Fault (Option Uuid)
  | .null => .ok none
  | .str s =>
    match Uuid.read s with
    | .ok u => .ok (some u)
    | .error _ => .error .unstorable
  | _ => .error .unstorable

/-- A truth column given a value of any kind. -/
def truthOfJson : Json → Except Fault (Option Bool)
  | .null => .ok none
  | .bool b => .ok (some b)
  | .int 0 => .ok (some false)
  | .int 1 => .ok (some true)
  | _ => .error .unstorable

/-- A date column given a value of any kind: a text gives an ISO 8601 date,
kept as its clock shows it. -/
def dateOfJson : Json → Except Fault (Option Timestamp)
  | .null => .ok none
  | .str s =>
    match Moment.ofIso? s with
    | some m => .ok (some m.clock)
    | none => .error .unstorable
  | _ => .error .unstorable

/-- The integers that fit lie between the bounds. -/
theorem fitsBigint_iff {n : Int} : fitsBigint n = true ↔ -bigintBound ≤ n ∧ n < bigintBound := by
  rw [fitsBigint, Bool.and_eq_true, decide_eq_true_iff, decide_eq_true_iff]

/-- An integer column accepts exactly the integers that fit. -/
theorem bigint_eq_ok_iff {n m : Int} : bigint n = .ok m ↔ fitsBigint n = true ∧ n = m := by
  rw [bigint]
  cases fitsBigint n <;> simp

end Column

end VaultGovernance
