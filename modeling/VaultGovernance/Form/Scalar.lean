import VaultGovernance.Choice
import VaultGovernance.Form.Issue
import VaultGovernance.Json.Coerce
import VaultGovernance.Number.DecimalText
import VaultGovernance.Timestamp

/-!
# VaultGovernance.Form.Scalar

Reading single submitted values.  The readers are lenient about how a value is
spelled: a number may come as text, a truth value as `yes` or `1`, a date as a
count of seconds.  Only texts must be texts.
-/

namespace VaultGovernance

namespace Form

/-- A reader of one value. -/
abbrev Reader (α : Type) := Json → Except FormFault α

variable {α : Type}

/-- Adds a condition on the value that is read. -/
def ensuring (read : Reader α) (ok : α → Bool) (fault : FormFault) : Reader α := fun j =>
  match read j with
  | .ok a => if ok a then .ok a else .error fault
  | .error f => .error f

/-- Any value. -/
def anything : Reader Json := fun j => .ok j

/-! ## Texts and members -/

/-- A text. -/
def text : Reader String
  | .str s => .ok s
  | _ => .error .noText

/-- A text with at least so many characters. -/
def textFrom (least : Nat) : Reader String :=
  ensuring text (fun s => least ≤ s.length) .textTooShort

/-- A text with at most so many characters. -/
def textUpTo (most : Nat) : Reader String :=
  ensuring text (fun s => s.length ≤ most) .textTooLong

/-- A text with at least one and at most so many characters. -/
def name (most : Nat) : Reader String :=
  ensuring (textFrom 1) (fun s => s.length ≤ most) .textTooLong

/-- A member of a closed set. -/
def member (α : Type) [Choice α] : Reader α := fun j =>
  match (Choice.ofJson? j : Option α) with
  | some a => .ok a
  | none => .error .noMember

/-! ## Numbers -/

/-- A text without single underscores between other characters; nothing when
underscores stand at an end or side by side, or when there are none. -/
def withoutUnderscores? (s : List Char) : Option (List Char) :=
  let doubled := (s.zip (s.drop 1)).contains ('_', '_')
  if s.contains '_' && s.head? ≠ some '_' && s.getLast? ≠ some '_' && !doubled then
    some (s.filter (· ≠ '_'))
  else none

/-- Whether every character is ASCII. -/
def isAscii (s : List Char) : Bool := s.all fun c => c.toNat < 128

/-- The double that ASCII characters spell. -/
def spelledNumber? (s : List Char) : Option Binary64 :=
  let (negative, body) := splitSign s
  match Decimal.lowerAscii body with
  | ['i', 'n', 'f'] => some (.infinite negative)
  | ['i', 'n', 'f', 'i', 'n', 'i', 't', 'y'] => some (.infinite negative)
  | ['n', 'a', 'n'] => some .nan
  | _ => if isAscii body then (Decimal.readNumber? negative body).map (·.toBinary64) else none

/-- The double a text spells, blanks around it allowed. -/
def numberOfText? (s : String) : Option Binary64 :=
  let body := trimBoth isIntegerBlank s.toList
  (spelledNumber? body).or ((withoutUnderscores? body).bind spelledNumber?)

/-- A double. -/
def number : Reader Binary64
  | .float x => .ok x
  | .bool b => .ok (.ofInt (Json.truthInt b))
  | .int n =>
    let x := Binary64.ofInt n
    if x.isFinite then .ok x else .error .noNumber
  | .str s =>
    match numberOfText? s with
    | some x => .ok x
    | none => .error .unreadableNumber
  | _ => .error .noNumber

/-- The digits of a whole number: a fraction may follow the point only if it is
zero. -/
def wholeDigits? (s : List Char) : Option (List Char) :=
  let whole := s.takeWhile (· ≠ '.')
  if (s.drop (whole.length + 1)).all (· = '0') then some whole else none

/-- The integer that ASCII digits spell. -/
def spelledInteger? (s : List Char) : Option (List Nat) :=
  if isAscii s then digitGroups? s else none

/-- An integer as text, blanks around it and single underscores between its
digits allowed. -/
def integerOfText (s : String) : Except FormFault Int :=
  let (negative, body) := splitSign (trimBoth isIntegerBlank s.toList)
  match (wholeDigits? body).bind spelledInteger? with
  | none => .error .unreadableInteger
  | some ds =>
    if ds.length ≤ integerDigitLimit then .ok (signedInt negative (ofDigits ds))
    else .error .integerTooLong

/-- An integer as a double; it has no fraction. -/
def integerOfNumber (x : Binary64) : Except FormFault Int :=
  match x.truncate? with
  | none => .error .notFinite
  | some n =>
    if x.toInt? ≠ some n then .error .fractional
    else if n.natAbs < twoTo 63 then .ok n
    else .error .integerTooLong

/-- An integer. -/
def integer : Reader Int
  | .int n => .ok n
  | .bool b => .ok (Json.truthInt b)
  | .float x => integerOfNumber x
  | .str s => integerOfText s
  | _ => .error .noInteger

/-- A decimal.  A double stands for the decimal that its shortest text
denotes. -/
def decimal : Reader Decimal
  | .int n => .ok (.finite (n < 0) n.natAbs 0)
  | .float x => ofText x.text
  | .str s => ofText s
  | _ => .error .noDecimal
where
  /-- The finite decimal a text denotes. -/
  ofText (s : String) : Except FormFault Decimal :=
    match Decimal.ofText? s with
    | some d => if d.isFinite then .ok d else .error .notFinite
    | none => .error .unreadableDecimal

/-- A decimal from zero to one hundred. -/
def percentage : Reader Decimal :=
  ensuring (ensuring decimal isAtMostHundred .above) isAtLeastZero .below
where
  /-- Whether a decimal is at most one hundred: it stays below one hundred, or
  it is one hundred, a power of ten. -/
  isAtMostHundred : Decimal → Bool
    | .finite negative c e =>
      negative || c = 0 || Decimal.leadingExponent c e < 2 ||
        (Decimal.leadingExponent c e = 2 && c = tenTo (Decimal.digitCount c - 1))
    | _ => false
  /-- Whether a decimal is at least zero. -/
  isAtLeastZero : Decimal → Bool
    | .finite negative c _ => !negative || c = 0
    | _ => false

/-- A decimal above zero. -/
def amount : Reader Decimal :=
  ensuring decimal isPositive .notGreater
where
  /-- Whether a decimal is above zero. -/
  isPositive : Decimal → Bool
    | .finite negative c _ => !negative && c ≠ 0
    | _ => false

/-! ## Truth values -/

/-- The texts for true. -/
def yesTexts : List String := ["1", "t", "y", "on", "yes", "true"]

/-- The texts for false. -/
def noTexts : List String := ["0", "f", "n", "no", "off", "false"]

/-- A truth value as text, in any letter case. -/
def truthOfText (s : String) : Except FormFault Bool :=
  let s := String.ofList (Decimal.lowerAscii s.toList)
  if yesTexts.contains s then .ok true
  else if noTexts.contains s then .ok false
  else .error .unreadableTruth

/-- A truth value as an integer. -/
def truthOfInteger (n : Int) : Except FormFault Bool :=
  if n = 0 then .ok false else if n = 1 then .ok true else .error .unreadableTruth

/-- A truth value. -/
def truth : Reader Bool
  | .bool b => .ok b
  | .str s => truthOfText s
  | .int n => truthOfInteger n
  | .float x =>
    match integerOfNumber x with
    | .ok n => truthOfInteger n
    | .error _ => .error .noTruth
  | _ => .error .noTruth

/-! ## Dates -/

/-- The largest count that is taken as seconds; beyond it counts are in
milliseconds. -/
def secondsLimit : Int := 20000000000

/-- The first second a count may denote: the start of 1600. -/
def firstSecond : Int := -11676096000

/-- The last second a count may denote: the end of 9999. -/
def lastSecond : Int := 253402300799

/-- The clock's reading so many seconds, or milliseconds, after the start of
1970, and further microseconds. -/
def dateOfCount (count : Int) (micros : Nat) : Except FormFault Timestamp :=
  let total := (if count.natAbs ≤ secondsLimit.natAbs then count * Timestamp.second
    else count * 1000) + micros
  let seconds := total.fdiv Timestamp.second
  if firstSecond ≤ seconds ∧ seconds ≤ lastSecond then .ok ⟨total⟩ else .error .dateOutOfRange

/-- The largest integer that is at most the number. -/
def floorOf (negative : Bool) (quanta : Nat) : Int :=
  (signedInt negative quanta).fdiv Binary64.one

/-- A date as a double: its whole seconds, and its fraction in microseconds,
read without sign. -/
def dateOfNumber : Binary64 → Except FormFault Timestamp
  | .finite negative quanta =>
    let fraction := quanta % Binary64.one
    dateOfCount (floorOf negative quanta) (roundHalfEven (fraction * 1000000) Binary64.one)
  | .infinite _ => .error .dateOutOfRange
  | .nan => .error .dateOutOfRange

/-- Whether a character may separate a date from a time of day. -/
def separatesTime (c : Char) : Bool := c = 'T' || c = 't' || c = ' ' || c = '_'

/-- A date as the text of a count: a sign, digits, and digits behind a
point. -/
def dateOfCountText? (s : List Char) : Option Timestamp := do
  let (negative, body) := splitSign s
  let whole := body.takeWhile Char.isDigit
  let rest := body.drop whole.length
  let fraction := rest.drop 1
  let value (ds : List Char) : Nat := ofDigits (ds.map fun c => c.toNat - 48)
  if whole = [] then none
  else if rest = [] then (dateOfCount (signedInt negative (value whole)) 0).toOption
  else if rest.head? = some '.' ∧ fraction.all Char.isDigit then
    let x := Binary64.ofQuotient negative (value (whole ++ fraction)) (tenTo fraction.length)
    match x with
    | .finite false _ => (dateOfNumber x).toOption
    | .finite true quanta => (dateOfCount (floorOf true quanta) 0).toOption
    | _ => none
  else none

/-- A date as text: in ISO 8601, or as a count. -/
def dateOfText (s : String) : Except FormFault Timestamp :=
  match (Timestamp.readMoment? separatesTime s).map (·.clock) |>.or (dateOfCountText? s.toList) with
  | some t => .ok t
  | none => .error .unreadableDate

/-- A date; an offset is read and not kept. -/
def date : Reader Timestamp
  | .str s => dateOfText s
  | .int n => dateOfCount n 0
  | .float x => dateOfNumber x
  | _ => .error .noDate

end Form

end VaultGovernance
