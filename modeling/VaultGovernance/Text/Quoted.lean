import VaultGovernance.Text.Digit
import VaultGovernance.Text.Printable

/-!
# VaultGovernance.Text.Quoted

Quoted texts, as error messages show them.  Single quotes are preferred;
double quotes are taken for a text that holds a single quote and no double
one.  The backslash, the chosen quote and the unprintable characters are
escaped.
-/

namespace VaultGovernance

namespace Quoted

/-- The quote that surrounds a text. -/
def quoteFor (s : List Char) : Char :=
  if s.contains '\'' && !s.contains '"' then '"' else '\''

/-- One character inside a text quoted with `q`. -/
def escape (q c : Char) : List Char :=
  if c = '\\' then ['\\', '\\']
  else if c = q then ['\\', q]
  else if c = '\n' then ['\\', 'n']
  else if c = '\t' then ['\\', 't']
  else if c = '\r' then ['\\', 'r']
  else if isPrintable c then [c]
  else if c.toNat < 0x100 then '\\' :: 'x' :: hexDigits 2 c.toNat
  else if c.toNat < 0x10000 then '\\' :: 'u' :: hexDigits 4 c.toNat
  else '\\' :: 'U' :: hexDigits 8 c.toNat

/-- The characters of the quoted text. -/
def encode (s : List Char) : List Char :=
  let q := quoteFor s
  q :: (s.flatMap (escape q) ++ [q])

end Quoted

/-- A text in quotes. -/
def quoted (s : String) : String :=
  String.ofList (Quoted.encode s.toList)

end VaultGovernance
