import VaultGovernance.Json.Basic
import VaultGovernance.Number.Decimal
import VaultGovernance.Text.Digit

/-!
# VaultGovernance.Json.Reader

Reading JSON text.  A reading step takes the characters that are left and
answers with a value and what follows it, or with the characters at which it
gave up, so a failure has a position.  Beyond the standard the literals `NaN`,
`Infinity` and `-Infinity` are accepted, and of two equal keys the later one
counts.  An integer with too many digits is not read, which is a failure of its
own kind.
-/

namespace VaultGovernance

namespace Json

/-- Why a reading step failed. -/
inductive Failure where
  /-- There is no JSON at the front of these characters. -/
  | malformed (rest : List Char)
  /-- An integer has more digits than are read. -/
  | tooLong (digits : Nat)

/-- The outcome of a reading step on the characters that are left: a value with
the rest, or a failure. -/
abbrev Step (α : Type) := Except Failure (α × List Char)

/-- Drops white space between tokens. -/
def skipSpace (s : List Char) : List Char :=
  s.dropWhile fun c => c = ' ' || c = '\t' || c = '\n' || c = '\r'

/-! ## Texts -/

/-- The value of four hexadecimal digits. -/
def hexUnit? : List Char → Option (Nat × List Char)
  | a :: b :: c :: d :: rest => do
    let a ← hexValue? a
    let b ← hexValue? b
    let c ← hexValue? c
    let d ← hexValue? d
    return (((a * 16 + b) * 16 + c) * 16 + d, rest)
  | _ => none

/-- The character of a one-letter escape. -/
def simpleEscape? (c : Char) : Option Char :=
  if c = '"' ∨ c = '\\' ∨ c = '/' then some c
  else if c = 'b' then some (Char.ofNat 8)
  else if c = 'f' then some (Char.ofNat 12)
  else if c = 'n' then some '\n'
  else if c = 'r' then some '\r'
  else if c = 't' then some '\t'
  else none

/-- The character a UTF-16 unit stands for; a unit of a broken pair stands for
the replacement character. -/
def unitChar (n : Nat) : Char :=
  if 0xd800 ≤ n ∧ n < 0xe000 then Char.ofNat 0xfffd else Char.ofNat n

/-- The rest of a text after its opening quote, where `opening` are the
characters from that quote on; the characters read so far come reversed. -/
def readChars (opening : List Char) : (fuel : Nat) → (acc s : List Char) → Step String
  | 0, _, _ => .error (.malformed opening)
  | fuel + 1, acc, s =>
    match s with
    | [] => .error (.malformed opening)
    | '"' :: rest => .ok (String.ofList acc.reverse, rest)
    | '\\' :: 'u' :: rest =>
      match hexUnit? rest with
      | none => .error (.malformed ('u' :: rest))
      | some (unit, rest') =>
        if rest' = [] then .error (.malformed ('u' :: rest))
        else if 0xd800 ≤ unit ∧ unit < 0xdc00 then
          match rest' with
          | '\\' :: 'u' :: low =>
            if low.length ≤ 4 then readChars opening fuel (unitChar unit :: acc) rest'
            else
              match hexUnit? low with
              | none => .error (.malformed ('u' :: low))
              | some (unit', rest'') =>
                if 0xdc00 ≤ unit' ∧ unit' < 0xe000 then
                  let c := Char.ofNat (0x10000 + (unit - 0xd800) * 0x400 + (unit' - 0xdc00))
                  readChars opening fuel (c :: acc) rest''
                else readChars opening fuel (unitChar unit :: acc) rest'
          | _ => readChars opening fuel (unitChar unit :: acc) rest'
        else readChars opening fuel (unitChar unit :: acc) rest'
    | '\\' :: c :: rest =>
      match simpleEscape? c with
      | some d => readChars opening fuel (d :: acc) rest
      | none => .error (.malformed s)
    | ['\\'] => .error (.malformed opening)
    | c :: rest =>
        if c.toNat < 32 then .error (.malformed s) else readChars opening fuel (c :: acc) rest

/-- A text after its opening quote; `s` starts behind the quote. -/
def readText (s : List Char) : Step String :=
  readChars ('"' :: s) (s.length + 1) [] s

/-! ## Numbers -/

/-- The ASCII digits in front, as values, and what follows. -/
def spanAsciiDigits (s : List Char) : List Nat × List Char :=
  ((s.takeWhile Char.isDigit).map fun c => c.toNat - 48, s.dropWhile Char.isDigit)

/-- The fraction of a number: a point with digits behind it. -/
def readFraction : List Char → Option (List Nat) × List Char
  | '.' :: rest =>
    match spanAsciiDigits rest with
    | ([], _) => (none, '.' :: rest)
    | (ds, rest') => (some ds, rest')
  | s => (none, s)

/-- The exponent of a number: the letter, a sign if any, and digits. -/
def readExponent (s : List Char) : Option Int × List Char :=
  match s with
  | c :: rest =>
    if c = 'e' ∨ c = 'E' then
      let (negative, body) := match rest with
        | '-' :: body => (true, body)
        | '+' :: body => (false, body)
        | body => (false, body)
      match spanAsciiDigits body with
      | ([], _) => (none, s)
      | (ds, rest') => (some (if negative then -(ofDigits ds : Int) else ofDigits ds), rest')
    else (none, s)
  | [] => (none, s)

/-- The digits before the point: a lone zero, or digits that start with another
one. -/
def readWhole? : List Char → Option (List Nat × List Char)
  | '0' :: rest => some ([0], rest)
  | s =>
    match spanAsciiDigits s with
    | ([], _) => none
    | r => some r

/-- The integer of a sign and digits, unless there are too many of them. -/
def integerOfDigits (negative : Bool) (digits : List Nat) : Except Failure Json :=
  if digits.length ≤ integerDigitLimit then .ok (int (signedInt negative (ofDigits digits)))
  else .error (.tooLong digits.length)

/-- A number: an integer without fraction and exponent, a double otherwise. -/
def readNumber (s : List Char) : Step Json :=
  let (negative, body) := match s with
    | '-' :: body => (true, body)
    | body => (false, body)
  match readWhole? body with
  | none => .error (.malformed s)
  | some (whole, rest) =>
    let (fraction, rest) := readFraction rest
    let (exponent, rest) := readExponent rest
    match fraction, exponent with
    | none, none => (integerOfDigits negative whole).map fun j => (j, rest)
    | _, _ =>
      let digits := fraction.getD []
      let decimal := Decimal.finite negative (ofDigits (whole ++ digits))
        (exponent.getD 0 - digits.length)
      .ok (float decimal.toBinary64, rest)

/-! ## Values -/

/-- Whether `s` starts with `word`, and what follows. -/
def afterWord? (word : String) (s : List Char) : Option (List Char) :=
  if word.toList.isPrefixOf s then some (s.drop word.length) else none

/-- A literal word or a number. -/
def readScalar (s : List Char) : Step Json :=
  let words : List (String × Json) :=
    [("null", null), ("true", bool true), ("false", bool false), ("NaN", float .nan),
     ("Infinity", float (.infinite false)), ("-Infinity", float (.infinite true))]
  match words.findSome? fun w => (afterWord? w.1 s).map fun rest => (w.2, rest) with
  | some r => .ok r
  | none => readNumber s

mutual
/-- A value at the front of the characters. -/
def readValue : (fuel : Nat) → List Char → Step Json
  | 0, s => .error (.malformed s)
  | fuel + 1, s =>
    match s with
    | '"' :: rest => (readText rest).map fun r => (str r.1, r.2)
    | '[' :: rest =>
      match skipSpace rest with
      | ']' :: rest' => .ok (arr [], rest')
      | rest' => (readItems fuel rest').map fun r => (arr r.1, r.2)
    | '{' :: rest =>
      match skipSpace rest with
      | '}' :: rest' => .ok (obj [], rest')
      | rest' => (readEntries fuel rest').map fun r => (obj (OrderedMap.ofEntries r.1), r.2)
    | s => readScalar s

/-- The items of an array from the next one to the closing bracket. -/
def readItems : (fuel : Nat) → List Char → Step (List Json)
  | 0, s => .error (.malformed s)
  | fuel + 1, s =>
    match readValue fuel s with
    | .error e => .error e
    | .ok (x, rest) =>
      match skipSpace rest with
      | ']' :: rest' => .ok ([x], rest')
      | ',' :: rest' => (readItems fuel (skipSpace rest')).map fun r => (x :: r.1, r.2)
      | rest' => .error (.malformed rest')

/-- The entries of an object from the next one to the closing brace. -/
def readEntries : (fuel : Nat) → List Char → Step (List (String × Json))
  | 0, s => .error (.malformed s)
  | fuel + 1, s =>
    match s with
    | '"' :: rest =>
      match readText rest with
      | .error e => .error e
      | .ok (key, rest) =>
        match skipSpace rest with
        | ':' :: rest =>
          match readValue fuel (skipSpace rest) with
          | .error e => .error e
          | .ok (x, rest) =>
            match skipSpace rest with
            | '}' :: rest' => .ok ([(key, x)], rest')
            | ',' :: rest' =>
              (readEntries fuel (skipSpace rest')).map fun r => ((key, x) :: r.1, r.2)
            | rest' => .error (.malformed rest')
        | rest => .error (.malformed rest)
    | s => .error (.malformed s)
end

/-- Why a text is not read as a value. -/
inductive ReadError where
  /-- The text is not JSON from a position on. -/
  | malformed (position : Nat)
  /-- An integer in the text has more digits than are read. -/
  | tooLong (digits : Nat)
deriving DecidableEq

/-- The value a text denotes, or the number of characters before the point at
which reading gave up. -/
def read (text : String) : Except ReadError Json :=
  let s := text.toList
  let malformed (rest : List Char) : ReadError := .malformed (s.length - rest.length)
  match readValue (2 * s.length + 2) (skipSpace s) with
  | .error (.malformed rest) => .error (malformed rest)
  | .error (.tooLong digits) => .error (.tooLong digits)
  | .ok (x, rest) =>
    match skipSpace rest with
    | [] => .ok x
    | rest => .error (malformed rest)

end Json

end VaultGovernance
