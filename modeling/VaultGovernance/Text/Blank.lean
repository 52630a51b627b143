/-!
# VaultGovernance.Text.Blank

Blank characters and trimming.  Two sets are in use: the wide one of the
Unicode property (every separator and the four information separators), and
the narrower one that number readers skip around an integer, which leaves the
information separators out.
-/

namespace VaultGovernance

/-- The blank characters of Unicode text: separators of every kind, the
control characters that move the cursor, and the information separators. -/
def isBlank (c : Char) : Bool :=
  let n := c.toNat
  (9 ≤ n && n ≤ 13) || (28 ≤ n && n ≤ 32) || n == 133 || n == 160 || n == 5760 ||
    (8192 ≤ n && n ≤ 8202) || n == 8232 || n == 8233 || n == 8239 || n == 8287 || n == 12288

/-- The blank characters an integer may be surrounded by: the information
separators do not count. -/
def isIntegerBlank (c : Char) : Bool :=
  isBlank c && !(28 ≤ c.toNat && c.toNat ≤ 31)

/-- Drops what satisfies `p` at both ends. -/
def trimBoth (p : Char → Bool) (s : List Char) : List Char :=
  ((s.dropWhile p).reverse.dropWhile p).reverse

/-- A text without the blank characters at its ends. -/
def stripBlanks (s : String) : String :=
  String.ofList (trimBoth isBlank s.toList)

/-- Trimming nothing off an empty text. -/
@[simp] theorem trimBoth_nil (p : Char → Bool) : trimBoth p [] = [] := rfl

end VaultGovernance
