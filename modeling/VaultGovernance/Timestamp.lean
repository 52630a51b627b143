import VaultGovernance.Text.Integer

/-!
# VaultGovernance.Timestamp

Points in time.  A timestamp counts microseconds from the start of 1970 on a
calendar clock without offset; the store keeps no offset, and everything it
holds is taken as UTC.  A `Moment` is a timestamp as it was given, with the
offset of its clock if one was named.
-/

namespace VaultGovernance

/-- A point in time, in microseconds from 1970-01-01T00:00:00. -/
structure Timestamp where
  micros : Int
deriving DecidableEq, Inhabited

namespace Timestamp

/-- Microseconds in a second. -/
def second : Int := 1000000

/-- Microseconds in a day. -/
def day : Int := 86400 * second

/-- Whether the first point is not after the second. -/
def le (a b : Timestamp) : Bool := a.micros ≤ b.micros

/-- The point so many seconds later. -/
def addSeconds (t : Timestamp) (n : Int) : Timestamp := ⟨t.micros + n * second⟩

/-! ## The calendar -/

/-- Whether a year has 366 days. -/
def isLeapYear (y : Nat) : Bool :=
  y % 4 = 0 && (y % 100 ≠ 0 || y % 400 = 0)

/-- The days of a month. -/
def daysInMonth (y m : Nat) : Nat :=
  match m with
  | 2 => if isLeapYear y then 29 else 28
  | 4 | 6 | 9 | 11 => 30
  | _ => 31

/-- The days from 1970-01-01 to a date.  The year is taken to start in March,
so that the leap day is its last. -/
def daysFromCivil (y m d : Int) : Int :=
  let y' := if m ≤ 2 then y - 1 else y
  let era := y'.fdiv 400
  let yearOfEra := y' - era * 400
  let monthOfYear := (m + 9).emod 12
  let dayOfYear := (153 * monthOfYear + 2) / 5 + d - 1
  let dayOfEra := yearOfEra * 365 + yearOfEra / 4 - yearOfEra / 100 + dayOfYear
  era * 146097 + dayOfEra - 719468

/-- The date so many days after 1970-01-01. -/
def civilFromDays (days : Int) : Int × Int × Int :=
  let z := days + 719468
  let era := z.fdiv 146097
  let dayOfEra := z - era * 146097
  let yearOfEra :=
    (dayOfEra - dayOfEra / 1460 + dayOfEra / 36524 - dayOfEra / 146096) / 365
  let dayOfYear := dayOfEra - (365 * yearOfEra + yearOfEra / 4 - yearOfEra / 100)
  let mp := (5 * dayOfYear + 2) / 153
  let d := dayOfYear - (153 * mp + 2) / 5 + 1
  let m := if mp < 10 then mp + 3 else mp - 9
  let y := yearOfEra + era * 400
  (if m ≤ 2 then y + 1 else y, m, d)

/-- The point at a date and a time of day. -/
def ofCivil (y m d h mi s us : Nat) : Timestamp :=
  ⟨daysFromCivil y m d * day + ((h * 60 + mi) * 60 + s : Nat) * second + us⟩

/-- Decimal digits padded with zeros on the left. -/
def padded (width : Nat) (n : Nat) : String :=
  let ds := Nat.toDigits 10 n
  String.ofList (List.replicate (width - ds.length) '0' ++ ds)

/-- The text without an offset; the fraction has six digits and is left out
when it is zero. -/
def text (t : Timestamp) : String :=
  let days := t.micros.fdiv day
  let rest := (t.micros - days * day).toNat
  let (y, m, d) := civilFromDays days
  let seconds := rest / 1000000
  let us := rest % 1000000
  let fraction := if us = 0 then "" else "." ++ padded 6 us
  padded 4 y.toNat ++ "-" ++ padded 2 m.toNat ++ "-" ++ padded 2 d.toNat ++ "T" ++
    padded 2 (seconds / 3600) ++ ":" ++ padded 2 (seconds / 60 % 60) ++ ":" ++
    padded 2 (seconds % 60) ++ fraction

/-- The text with the UTC offset. -/
def utcText (t : Timestamp) : String := t.text ++ "+00:00"

end Timestamp

/-- A point in time as it was given: the clock's reading, and how many
microseconds that clock is ahead of UTC if it said so. -/
structure Moment where
  clock : Timestamp
  offset : Option Int
deriving DecidableEq, Inhabited

namespace Moment

/-- The point in UTC; a clock without offset shows UTC. -/
def utc (m : Moment) : Timestamp := ⟨m.clock.micros - m.offset.getD 0⟩

end Moment

/-! ## Reading -/

namespace Timestamp

/-- A number of exactly `width` ASCII digits, and what follows. -/
def takeNumber? (width : Nat) (s : List Char) : Option (Nat × List Char) :=
  let ds := s.take width
  if ds.length = width ∧ ds.all Char.isDigit then
    some (ofDigits (ds.map fun c => c.toNat - 48), s.drop width)
  else none

/-- What follows an expected character. -/
def expect? (c : Char) : List Char → Option (List Char)
  | [] => none
  | d :: rest => if c = d then some rest else none

/-- A date `YYYY-MM-DD`, and what follows. -/
def takeDate? (s : List Char) : Option ((Nat × Nat × Nat) × List Char) := do
  let (y, s) ← takeNumber? 4 s
  let s ← expect? '-' s
  let (m, s) ← takeNumber? 2 s
  let s ← expect? '-' s
  let (d, s) ← takeNumber? 2 s
  if 1 ≤ y ∧ 1 ≤ m ∧ m ≤ 12 ∧ 1 ≤ d ∧ d ≤ daysInMonth y m then some ((y, m, d), s) else none

/-- A fraction of a second in microseconds; further digits are cut off. -/
def takeFraction? (s : List Char) : Option (Nat × List Char) :=
  let ds := s.takeWhile Char.isDigit
  if ds = [] then none
  else
    let six := (ds ++ List.replicate 6 '0').take 6
    some (ofDigits (six.map fun c => c.toNat - 48), s.drop ds.length)

/-- A time of day `HH:MM[:SS[.fraction]]` as seconds and microseconds, and what
follows. -/
def takeTime? (s : List Char) : Option ((Nat × Nat × Nat × Nat) × List Char) := do
  let (h, s) ← takeNumber? 2 s
  let s ← expect? ':' s
  let (mi, s) ← takeNumber? 2 s
  let (sec, us, s) ←
    match s with
    | ':' :: rest => do
      let (sec, rest) ← takeNumber? 2 rest
      match rest with
      | c :: rest' =>
        if c = '.' ∨ c = ',' then
          let (us, rest') ← takeFraction? rest'
          some (sec, us, rest')
        else some (sec, 0, rest)
      | [] => some (sec, 0, rest)
    | s => some (0, 0, s)
  if h < 24 ∧ mi < 60 ∧ sec < 60 then some ((h, mi, sec, us), s) else none

/-- The offset of a clock from UTC in microseconds: the letter for zero, or a
sign with hours and minutes, a colon between them or not.  No offset is given
by no text. -/
def readOffset? (s : List Char) : Option (Option Int) :=
  match s with
  | [] => some none
  | c :: rest =>
    if c = 'Z' ∨ c = 'z' then if rest = [] then some (some 0) else none
    else if c = '+' ∨ c = '-' then do
      let (h, rest) ← takeNumber? 2 rest
      let rest := match rest with
        | ':' :: rest => rest
        | rest => rest
      let (mi, rest) ← takeNumber? 2 rest
      if rest = [] ∧ h < 24 ∧ mi < 60 then
        let micros : Int := ((h * 60 + mi : Nat) : Int) * 60 * second
        some (some (if c = '-' then -micros else micros))
      else none
    else none

/-- The moment a text gives: a date, and behind one separating character a time
of day with an optional offset.  `separator` says which characters separate. -/
def readMoment? (separator : Char → Bool) (s : String) : Option Moment := do
  let ((y, m, d), rest) ← takeDate? s.toList
  match rest with
  | [] => some ⟨ofCivil y m d 0 0 0 0, none⟩
  | c :: rest =>
    if separator c then
      let ((h, mi, sec, us), rest) ← takeTime? rest
      let offset ← readOffset? rest
      some ⟨ofCivil y m d h mi sec us, offset⟩
    else none

end Timestamp

/-- The moment an ISO 8601 text gives; any character may separate date and
time. -/
def Moment.ofIso? (s : String) : Option Moment :=
  Timestamp.readMoment? (fun _ => true) s

end VaultGovernance
