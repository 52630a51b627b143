import VaultGovernance.Json.Coerce
import VaultGovernance.Number.FixedText

/-!
# VaultGovernance.Log.Template

Message templates.  A percent sign starts a placeholder: the key of a named
argument in parentheses, flags, a width, a precision and a letter that says how
the argument is written.  A doubled percent sign stands for itself.
-/

namespace VaultGovernance

namespace Template

/-- What a template is filled with. -/
inductive Arguments where
  /-- Arguments in order. -/
  | several (args : List Json)
  /-- One argument; an object can also be asked for its entries. -/
  | one (arg : Json)

/-- What is left of the arguments. -/
structure Supply where
  /-- The arguments that come next. -/
  pending : List Json
  /-- The entries that can be asked for. -/
  named : Option (OrderedMap Json)
  /-- Whether arguments may be left over. -/
  lenient : Bool

namespace Supply

/-- The supply of some arguments. -/
def of : Arguments → Supply
  | .several args => ⟨args, none, false⟩
  | .one (.obj entries) => ⟨[.obj entries], some entries, true⟩
  | .one (.arr items) => ⟨[.arr items], none, true⟩
  | .one arg => ⟨[arg], none, false⟩

/-- The next argument. -/
def next (s : Supply) : Except Fault (Json × Supply) :=
  match s.pending with
  | [] => .error .wrongType
  | a :: rest => .ok (a, { s with pending := rest })

/-- Makes the value of a key the next argument. -/
def select (s : Supply) (key : String) : Except Fault Supply :=
  match s.named with
  | none => .error .wrongType
  | some entries =>
    match entries.get? key with
    | some a => .ok { s with pending := [a] }
    | none => .error (.missingKey key)

/-- The next argument as a size below a limit. -/
def nextSize (s : Supply) (limit : Nat) : Except Fault (Int × Supply) := do
  let (a, s) ← s.next
  match a with
  | .int n => if n.natAbs < limit then return (n, s) else .error .outOfRange
  | .bool b => return (Json.truthInt b, s)
  | _ => .error .wrongType

end Supply

/-! ## Placeholders -/

/-- The flags of a placeholder. -/
structure Flags where
  left : Bool := false
  sign : Bool := false
  blank : Bool := false
  alternate : Bool := false
  zero : Bool := false

/-- A placeholder without its key. -/
structure Placeholder where
  flags : Flags
  width : Nat
  precision : Option Nat
  letter : Char

/-- The fault of a template that ends inside a placeholder. -/
def incomplete : Fault := .badValue "incomplete format"

/-- The key up to its closing parenthesis, parentheses inside it in pairs, and
what follows it. -/
def takeKey : (depth : Nat) → (acc : List Char) → List Char → Except Fault (String × List Char)
  | _, _, [] => .error (.badValue "incomplete format key")
  | depth, acc, c :: rest =>
    if c = ')' then
      if depth = 0 then .ok (String.ofList acc.reverse, rest)
      else takeKey (depth - 1) (c :: acc) rest
    else takeKey (if c = '(' then depth + 1 else depth) (c :: acc) rest

/-- The flags at the front, and what follows them. -/
def takeFlags (f : Flags) : List Char → Flags × List Char
  | '-' :: rest => takeFlags { f with left := true } rest
  | '+' :: rest => takeFlags { f with sign := true } rest
  | ' ' :: rest => takeFlags { f with blank := true } rest
  | '#' :: rest => takeFlags { f with alternate := true } rest
  | '0' :: rest => takeFlags { f with zero := true } rest
  | s => (f, s)

/-- What widths stay below. -/
def widthLimit : Nat := twoTo 63

/-- What precisions stay below. -/
def precisionLimit : Nat := twoTo 31

/-- The number below a limit that ASCII digits at the front denote, and what
follows them. -/
def takeSize (limit : Nat) (tooBig : String) (s : List Char) : Except Fault (Nat × List Char) :=
  let ds := s.takeWhile Char.isDigit
  let n := ofDigits (ds.map fun c => c.toNat - 48)
  if n < limit then .ok (n, s.drop ds.length) else .error (.badValue tooBig)

/-- The width at the front; an asterisk takes it from the arguments, and a
negative one sets the left flag. -/
def takeWidth (f : Flags) (supply : Supply) (s : List Char) :
    Except Fault (Flags × Nat × Supply × List Char) :=
  match s with
  | '*' :: rest => do
    let (n, supply) ← supply.nextSize widthLimit
    return ({ f with left := f.left || n < 0 }, n.natAbs, supply, rest)
  | s => do
    let (n, rest) ← takeSize widthLimit "width too big" s
    return (f, n, supply, rest)

/-- The precision at the front, behind its point; an asterisk takes it from the
arguments, and a negative one is zero. -/
def takePrecision (supply : Supply) (s : List Char) :
    Except Fault (Option Nat × Supply × List Char) :=
  match s with
  | '.' :: '*' :: rest => do
    let (n, supply) ← supply.nextSize precisionLimit
    return (some n.toNat, supply, rest)
  | '.' :: rest => do
    let (n, rest) ← takeSize precisionLimit "precision too big" rest
    return (some n, supply, rest)
  | s => .ok (none, supply, s)

/-- Drops a letter for the size of an argument, which has no meaning. -/
def dropSizeLetter : List Char → List Char
  | c :: rest => if c = 'h' ∨ c = 'l' ∨ c = 'L' then rest else c :: rest
  | [] => []

/-- Selects the argument that a key at the front names, if there is one. -/
def takeSelection (supply : Supply) (s : List Char) : Except Fault (Supply × List Char) :=
  match s with
  | '(' :: rest =>
    if supply.named.isNone then .error .wrongType
    else do
      let (key, rest) ← takeKey 0 [] rest
      return (← supply.select key, rest)
  | s => .ok (supply, s)

/-- The placeholder behind a percent sign, and what follows it. -/
def takePlaceholder (supply : Supply) (s : List Char) :
    Except Fault (Placeholder × Supply × List Char) := do
  let (supply, s) ← takeSelection supply s
  let (flags, s) := takeFlags {} s
  let (flags, width, supply, s) ← takeWidth flags supply s
  let (precision, supply, s) ← takePrecision supply s
  match dropSizeLetter s with
  | letter :: rest => return (⟨flags, width, precision, letter⟩, supply, rest)
  | [] => .error incomplete

/-! ## Writing arguments -/

/-- A number ready for alignment: its sign, its base marker and its digits. -/
structure Parts where
  negative : Bool
  marker : List Char
  digits : List Char

/-- The sign that is written. -/
def signOf (f : Flags) (negative : Bool) : List Char :=
  if negative then ['-'] else if f.sign then ['+'] else if f.blank then [' '] else []

/-- A text at its width. -/
def align (p : Placeholder) (s : List Char) : List Char :=
  let fill := List.replicate (p.width - s.length) ' '
  if p.flags.left then s ++ fill else fill ++ s

/-- A number at its width; zeros go between the sign and the digits. -/
def alignNumber (p : Placeholder) (n : Parts) : List Char :=
  let lead := signOf p.flags n.negative ++ n.marker
  if p.flags.zero && !p.flags.left then
    lead ++ List.replicate (p.width - lead.length - n.digits.length) '0' ++ n.digits
  else align p (lead ++ n.digits)

/-- A text, cut to its precision. -/
def cut (p : Placeholder) (s : String) : List Char :=
  match p.precision with
  | some n => s.toList.take n
  | none => s.toList

/-- The text with characters beyond ASCII escaped. -/
def asciiOnly (s : String) : String :=
  String.ofList (s.toList.flatMap fun c =>
    if c.toNat < 128 then [c]
    else if c.toNat < 0x100 then '\\' :: 'x' :: hexDigits 2 c.toNat
    else if c.toNat < 0x10000 then '\\' :: 'u' :: hexDigits 4 c.toNat
    else '\\' :: 'U' :: hexDigits 8 c.toNat)

/-- An integer in a base; the precision is the least number of digits. -/
def integerParts (p : Placeholder) (base : Nat) (marker : List Char) (n : Int) : Parts :=
  let ds := Nat.toDigits base n.natAbs
  let ds := List.replicate (p.precision.getD 0 - ds.length) '0' ++ ds
  ⟨n < 0, if p.flags.alternate then marker else [], ds⟩

/-- Letters in upper case. -/
def upperLetters (s : List Char) : List Char := s.map Char.toUpper

/-- A number in upper case. -/
def Parts.upper (n : Parts) : Parts := ⟨n.negative, upperLetters n.marker, upperLetters n.digits⟩

/-- The integer of an argument for a decimal placeholder: numbers are cut toward
zero. -/
def decimalArgument : Json → Except Fault Int
  | .int n => .ok n
  | .bool b => .ok (Json.truthInt b)
  | .float x => (Json.float x).toInteger
  | _ => .error .wrongType

/-- The integer of an argument for a placeholder in another base. -/
def wholeArgument : Json → Except Fault Int
  | .int n => .ok n
  | .bool b => .ok (Json.truthInt b)
  | _ => .error .wrongType

/-- The double of an argument. -/
def doubleArgument : Json → Except Fault Binary64
  | .float x => .ok x
  | .bool b => .ok (.ofInt (Json.truthInt b))
  | .int n =>
    let x := Binary64.ofInt n
    if x.isFinite then .ok x else .error .outOfRange
  | _ => .error .wrongType

/-- The default precision of doubles. -/
def defaultPrecision : Nat := 6

/-- A double with the digits that `digits` gives of its magnitude. -/
def doubleParts (digits : Nat → List Char) : Binary64 → Parts
  | .finite negative quanta => ⟨negative, [], digits quanta⟩
  | .infinite negative => ⟨negative, [], "inf".toList⟩
  | .nan => ⟨false, [], "nan".toList⟩

/-- The character of an argument. -/
def characterArgument : Json → Except Fault Char
  | .str s =>
    match s.toList with
    | [c] => .ok c
    | _ => .error .wrongType
  | .int n => ofCode n
  | .bool b => ofCode (Json.truthInt b)
  | _ => .error .wrongType
where
  /-- The character with a code point. -/
  ofCode (n : Int) : Except Fault Char :=
    if 0 ≤ n ∧ n < 0x110000 then .ok (Char.ofNat n.toNat) else .error .outOfRange

/-- The message for a letter without meaning, at a position. -/
def unsupported (letter : Char) (index : Nat) : Fault :=
  let shown := if 31 ≤ letter.toNat ∧ letter.toNat < 126 then letter else '?'
  let code := String.ofList (Nat.toDigits 16 letter.toNat)
  .badValue ("unsupported format character '" ++ String.singleton shown ++ "' (0x" ++ code ++
    ") at index " ++ natText index)

/-- An argument at a placeholder. -/
def write (p : Placeholder) (index : Nat) (a : Json) : Except Fault (List Char) :=
  let precision := p.precision.getD defaultPrecision
  let fixed := Binary64.fixedText precision p.flags.alternate
  let scientific := Binary64.scientificText precision p.flags.alternate
  let general := Binary64.generalText precision p.flags.alternate
  match p.letter with
  | 's' => .ok (align p (cut p a.display))
  | 'r' => .ok (align p (cut p a.literal))
  | 'a' => .ok (align p (cut p (asciiOnly a.literal)))
  | 'd' | 'i' | 'u' => do return alignNumber p (integerParts p 10 [] (← decimalArgument a))
  | 'o' => do return alignNumber p (integerParts p 8 ['0', 'o'] (← wholeArgument a))
  | 'x' => do return alignNumber p (integerParts p 16 ['0', 'x'] (← wholeArgument a))
  | 'X' => do return alignNumber p (integerParts p 16 ['0', 'x'] (← wholeArgument a)).upper
  | 'f' => do return alignNumber p (doubleParts fixed (← doubleArgument a))
  | 'F' => do return alignNumber p (doubleParts fixed (← doubleArgument a)).upper
  | 'e' => do return alignNumber p (doubleParts scientific (← doubleArgument a))
  | 'E' => do return alignNumber p (doubleParts scientific (← doubleArgument a)).upper
  | 'g' => do return alignNumber p (doubleParts general (← doubleArgument a))
  | 'G' => do return alignNumber p (doubleParts general (← doubleArgument a)).upper
  | 'c' => do return align p [← characterArgument a]
  | letter => .error (unsupported letter index)

/-! ## Filling -/

/-- The rest of a template filled with the rest of the arguments; `length` is
the length of the whole template. -/
def fillFrom (length : Nat) : (fuel : Nat) → Supply → List Char → Except Fault (List Char)
  | 0, _, _ => .error incomplete
  | _, supply, [] => if supply.pending.isEmpty || supply.lenient then .ok [] else .error .wrongType
  | fuel + 1, supply, '%' :: '%' :: rest => do
    return '%' :: (← fillFrom length fuel supply rest)
  | fuel + 1, supply, '%' :: rest => do
    let (p, supply, rest) ← takePlaceholder supply rest
    let (a, supply) ← supply.next
    let written ← write p (length - rest.length - 1) a
    return written ++ (← fillFrom length fuel supply rest)
  | fuel + 1, supply, c :: rest => do
    return c :: (← fillFrom length fuel supply rest)

/-- A template filled with arguments. -/
def fill (template : String) (args : Arguments) : Except Fault String := do
  let s := template.toList
  return String.ofList (← fillFrom s.length (s.length + 1) (.of args) s)

end Template

end VaultGovernance
