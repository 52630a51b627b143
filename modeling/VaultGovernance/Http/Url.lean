import VaultGovernance.OrderedMap
import VaultGovernance.Text.Digit
import VaultGovernance.Text.Pieces

/-!
# VaultGovernance.Http.Url

Paths and queries as they are sent.  A percent sign with two hexadecimal digits
stands for a byte, and the bytes are read as UTF-8; bytes that are not become
the replacement character.
-/

namespace VaultGovernance

namespace Url

/-! ## UTF-8 -/

/-- The character for bytes that are not UTF-8. -/
def replacement : Char := Char.ofNat 0xfffd

/-- The ranges of the bytes that may follow a first byte, or nothing when it
cannot be one. -/
def followers? (b : Nat) : Option (List (Nat × Nat)) :=
  let any : Nat × Nat := (0x80, 0xbf)
  if b < 0x80 then some []
  else if 0xc2 ≤ b ∧ b ≤ 0xdf then some [any]
  else if b = 0xe0 then some [(0xa0, 0xbf), any]
  else if b = 0xed then some [(0x80, 0x9f), any]
  else if 0xe1 ≤ b ∧ b ≤ 0xef then some [any, any]
  else if b = 0xf0 then some [(0x90, 0xbf), any, any]
  else if 0xf1 ≤ b ∧ b ≤ 0xf3 then some [any, any, any]
  else if b = 0xf4 then some [(0x80, 0x8f), any, any]
  else none

/-- The bits of a code point that its first byte holds. -/
def leadBits (b : Nat) : Nat :=
  if b < 0x80 then b else if b < 0xe0 then b - 0xc0 else if b < 0xf0 then b - 0xe0 else b - 0xf0

/-- Takes the bytes that lie in the ranges, as far as they do: the code point so
far, whether all ranges were met, and the other bytes. -/
def takeFollowers : (code : Nat) → List (Nat × Nat) → List Nat → Nat × Bool × List Nat
  | code, [], bytes => (code, true, bytes)
  | code, _ :: _, [] => (code, false, [])
  | code, (least, most) :: ranges, b :: bytes =>
    if least ≤ b ∧ b ≤ most then takeFollowers (64 * code + (b - 0x80)) ranges bytes
    else (code, false, b :: bytes)

/-- The characters of some bytes. -/
def decodeBytes : (fuel : Nat) → List Nat → List Char
  | 0, _ => []
  | _, [] => []
  | fuel + 1, b :: bytes =>
    match followers? b with
    | none => replacement :: decodeBytes fuel bytes
    | some ranges =>
      let (code, complete, rest) := takeFollowers (leadBits b) ranges bytes
      (if complete then Char.ofNat code else replacement) :: decodeBytes fuel rest

/-- The bytes of a text. -/
def bytesOf (s : String) : List Nat := s.toUTF8.data.toList.map (·.toNat)

/-! ## Percent signs -/

/-- The value of a byte as a hexadecimal digit. -/
def hexByte? (b : Nat) : Option Nat := hexValue? (Char.ofNat b)

/-- Bytes with the percent signs resolved; one without two digits stands for
itself. -/
def resolve : List Nat → List Nat
  | 37 :: a :: b :: rest =>
    match hexByte? a, hexByte? b with
    | some m, some n => (16 * m + n) :: resolve rest
    | _, _ => 37 :: resolve (a :: b :: rest)
  | b :: rest => b :: resolve rest
  | [] => []

/-- A text with the percent signs resolved. -/
def decode (s : String) : String :=
  let bytes := resolve (bytesOf s)
  String.ofList (decodeBytes bytes.length bytes)

/-! ## Queries -/

/-- A name or a value of a query: a plus sign stands for a blank. -/
def decodeParameter (s : List Char) : String :=
  decode (String.ofList (s.map fun c => if c = '+' then ' ' else c))

/-- The parameters of a query; of equal names the last one counts. -/
def parameters (query : String) : OrderedMap String :=
  let entries := ((pieces '&' query.toList).filter (· ≠ [])).map fun piece =>
    let (name, value) := splitAtChar '=' piece
    (decodeParameter name, decodeParameter (value.getD []))
  OrderedMap.ofEntries entries

end Url

end VaultGovernance
