import VaultGovernance.Json.Basic
import VaultGovernance.Number.Shortest
import VaultGovernance.Text.Digit

/-!
# VaultGovernance.Json.Writer

JSON text of a value, on one line: a blank follows each comma and colon, and
characters outside ASCII are escaped as UTF-16 units.
-/

namespace VaultGovernance

namespace Json

/-- The escape of one UTF-16 unit. -/
def unitEscape (n : Nat) : List Char :=
  '\\' :: 'u' :: hexDigits 4 n

/-- One character inside a JSON text. -/
def escapeChar (c : Char) : List Char :=
  if c = '"' then ['\\', '"']
  else if c = '\\' then ['\\', '\\']
  else if c = '\n' then ['\\', 'n']
  else if c = '\r' then ['\\', 'r']
  else if c = '\t' then ['\\', 't']
  else if c.toNat = 8 then ['\\', 'b']
  else if c.toNat = 12 then ['\\', 'f']
  else if 32 ≤ c.toNat ∧ c.toNat < 127 then [c]
  else if c.toNat < 0x10000 then unitEscape c.toNat
  else
    let n := c.toNat - 0x10000
    unitEscape (0xd800 + n / 0x400) ++ unitEscape (0xdc00 + n % 0x400)

/-- A quoted JSON text. -/
def renderText (s : String) : String :=
  String.ofList ('"' :: (s.toList.flatMap escapeChar ++ ['"']))

/-- The text of a double; the special ones are named. -/
def renderFloat : Binary64 → String
  | .infinite negative => if negative then "-Infinity" else "Infinity"
  | .nan => "NaN"
  | x => x.text

mutual
/-- The JSON text of a value. -/
def render : Json → String
  | null => "null"
  | bool b => if b then "true" else "false"
  | int n => intText n
  | float x => renderFloat x
  | str s => renderText s
  | arr items => "[" ++ renderItems items ++ "]"
  | obj es => "\x7b" ++ renderEntries es ++ "\x7d"

/-- The JSON texts of the items, separated by commas. -/
def renderItems : List Json → String
  | [] => ""
  | [x] => render x
  | x :: y :: rest => render x ++ ", " ++ renderItems (y :: rest)

/-- The JSON texts of the entries, separated by commas. -/
def renderEntries : List (String × Json) → String
  | [] => ""
  | [(k, x)] => renderText k ++ ": " ++ render x
  | (k, x) :: y :: rest => renderText k ++ ": " ++ render x ++ ", " ++ renderEntries (y :: rest)
end

end Json

end VaultGovernance
