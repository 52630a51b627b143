import VaultGovernance.Text.Digit

/-!
# VaultGovernance.Metrics.Path

Paths as metrics name them: identifiers and numbers give way to a placeholder,
so that one counter serves all rows.  First every identifier is replaced, from
the left and without overlap; then every run of digits behind a slash, digits
of any script included.
-/

namespace VaultGovernance

namespace MetricsPath

/-- What stands in place of an identifier. -/
def placeholder : List Char := ['\x7b', 'i', 'd', '\x7d']

/-- The shape of an identifier: a hyphen or a hexadecimal digit at each of its
places. -/
def uuidShape : List Bool :=
  let group (n : Nat) : List Bool := List.replicate n true
  group 8 ++ false :: group 4 ++ false :: group 4 ++ false :: group 4 ++ false :: group 12

/-- Whether the characters start with a shape. -/
def matchesShape : (shape : List Bool) → List Char → Bool
  | [], _ => true
  | _ :: _, [] => false
  | digit :: shape, c :: rest =>
    (if digit then isHexDigit c else c = '-') && matchesShape shape rest

/-- Whether the characters start with an identifier. -/
def startsWithUuid (s : List Char) : Bool := matchesShape uuidShape s

/-- Replaces identifiers.  The number says how many characters of the last
identifier are still to be passed over. -/
def replaceUuids : (skip : Nat) → List Char → List Char
  | _, [] => []
  | skip + 1, _ :: rest => replaceUuids skip rest
  | 0, c :: rest =>
    if startsWithUuid (c :: rest) then placeholder ++ replaceUuids 35 rest
    else c :: replaceUuids 0 rest

/-- Whether the characters start with a decimal digit. -/
def startsWithDigit : List Char → Bool
  | [] => false
  | c :: _ => isDigit c

/-- Replaces runs of digits behind a slash.  The flag says whether the
characters continue a run. -/
def replaceNumbers : (inRun : Bool) → List Char → List Char
  | _, [] => []
  | true, c :: rest =>
    if isDigit c then replaceNumbers true rest
    else if c = '/' ∧ startsWithDigit rest then '/' :: placeholder ++ replaceNumbers true rest
    else c :: replaceNumbers false rest
  | false, c :: rest =>
    if c = '/' ∧ startsWithDigit rest then '/' :: placeholder ++ replaceNumbers true rest
    else c :: replaceNumbers false rest

/-- The characters of a path as metrics name it. -/
def normalizeChars (s : List Char) : List Char :=
  replaceNumbers false (replaceUuids 0 s)

end MetricsPath

/-- A path as metrics name it. -/
def normalizePath (path : String) : String :=
  String.ofList (MetricsPath.normalizeChars path.toList)

end VaultGovernance
