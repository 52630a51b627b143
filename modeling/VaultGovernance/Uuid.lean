import VaultGovernance.Number.Binary64
import VaultGovernance.Text.Blank
import VaultGovernance.Text.Digit

/-!
# VaultGovernance.Uuid

Identifiers of rows.  An identifier is written as five groups of hexadecimal
digits.  Rows take theirs from a running number: the first group scatters the
number over 32 bits, so identifiers do not grow with it, and the last group
holds the number itself, so no two numbers share an identifier.

Two readers exist.  `ofText?` is the liberal one for references inside free
documents; `ofStrictText?` is for identifiers in paths.
-/

namespace VaultGovernance

/-- An identifier, as the number its digits denote. -/
structure Uuid where
  value : Nat
deriving DecidableEq, Inhabited

namespace Uuid

/-- The first group of the identifier of the `n`-th row. -/
def scatter (n : Nat) : Nat := n * 2654435761 % twoTo 32

/-- The identifier of the `n`-th row. -/
def ofSerial (n : Nat) : Uuid :=
  ⟨scatter n * twoTo 96 + 0x4000 * twoTo 64 + 0x8000 * twoTo 48 + n⟩

/-- The first group depends on the number modulo `twoTo 32` only. -/
theorem scatter_eq_of_mod {m n : Nat} (h : m % twoTo 32 = n % twoTo 32) :
    scatter m = scatter n := by
  rw [scatter, scatter, Nat.mul_mod m, h, ← Nat.mul_mod]

/-- Rows with different numbers have different identifiers. -/
theorem ofSerial_inj {m n : Nat} (h : ofSerial m = ofSerial n) : m = n := by
  have cancel (a b c d : Nat) (e : a + c + d + m = b + c + d + n) : a + m = b + n := by omega
  have hv : scatter m * twoTo 96 + m = scatter n * twoTo 96 + n :=
    cancel _ _ _ _ (congrArg value h)
  have hmod : m % twoTo 32 = n % twoTo 32 := by
    have split (k j : Nat) : (k * twoTo 96 + j) % twoTo 32 = j % twoTo 32 := by
      have h96 : k * twoTo 96 = k * twoTo 64 * twoTo 32 :=
        (Nat.mul_assoc k (twoTo 64) (twoTo 32)).symm
      rw [h96]
      rw [Nat.add_comm, Nat.add_mul_mod_self_right]
    rw [← split (scatter m) m, hv, split]
  rw [scatter_eq_of_mod hmod] at hv
  exact Nat.add_left_cancel hv

/-- The count of hexadecimal digits of a number; zero has one. -/
def hexWidth (n : Nat) : Nat := n.log2 / 4 + 1

/-- The characters of an identifier: groups of 8, 4, 4, 4 and 12 digits. -/
def chars (u : Uuid) : List Char :=
  let first := u.value / twoTo 96
  hexDigits (max 8 (hexWidth first)) first ++
    '-' :: hexDigits 4 (u.value / twoTo 80) ++ '-' :: hexDigits 4 (u.value / twoTo 64) ++
    '-' :: hexDigits 4 (u.value / twoTo 48) ++ '-' :: hexDigits 12 u.value

/-- The text of an identifier. -/
def text (u : Uuid) : String := String.ofList u.chars

/-- Whether the first identifier comes before the second, or is it. -/
def le (a b : Uuid) : Bool := a.value ≤ b.value

/-! ## Reading references -/

/-- Why a text is not read as an identifier. -/
inductive ReadError where
  /-- The text does not have 32 digits. -/
  | badForm
  /-- The 32 characters do not denote a number in base sixteen. -/
  | badDigits (body : String)
  /-- The number is negative. -/
  | outOfRange
deriving DecidableEq

/-- What the reader says about a text it refuses. -/
def ReadError.ofBody (body : List Char) : ReadError := .badDigits (String.ofList body)

/-- Drops every occurrence of `word` from the front to the back. -/
def dropWord (word : List Char) : (fuel : Nat) → List Char → List Char
  | 0, s => s
  | _, [] => []
  | fuel + 1, c :: rest =>
    if word.isPrefixOf (c :: rest) then dropWord word fuel ((c :: rest).drop word.length)
    else c :: dropWord word fuel rest

/-- The text without every occurrence of `word`. -/
def withoutWord (word : String) (s : List Char) : List Char :=
  dropWord word.toList (s.length + 1) s

/-- The value of a digit in base sixteen; decimal digits of any script count. -/
def baseSixteenValue? (c : Char) : Option Nat :=
  (hexValue? c).or (digitValue? c)

/-- The number a list of base-sixteen digits denotes, single underscores
between them allowed. -/
def baseSixteen? : (acc : Nat) → List Char → Option Nat
  | _, [] => none
  | acc, [c] => (baseSixteenValue? c).map (16 * acc + ·)
  | acc, c :: '_' :: rest => do baseSixteen? (16 * acc + (← baseSixteenValue? c)) rest
  | acc, c :: rest => do baseSixteen? (16 * acc + (← baseSixteenValue? c)) rest

/-- The digits of a number in base sixteen, after its marker if it has one. -/
def afterMarker : List Char → List Char
  | '0' :: c :: rest =>
    if c = 'x' ∨ c = 'X' then
      match rest with
      | '_' :: rest' => rest'
      | _ => rest
    else '0' :: c :: rest
  | s => s

/-- The identifier that 32 characters denote as a number in base sixteen. -/
def ofBody (body : List Char) : Except ReadError Uuid :=
  let trimmed := trimBoth isIntegerBlank body
  let (negative, digits) := match trimmed with
    | '-' :: rest => (true, rest)
    | '+' :: rest => (false, rest)
    | rest => (false, rest)
  match baseSixteen? 0 (afterMarker digits) with
  | none => .error (.ofBody body)
  | some n => if negative ∧ n ≠ 0 then .error .outOfRange else .ok ⟨n⟩

/-- The characters a reference is read from: its scheme, its braces and its
hyphens are dropped. -/
def bodyOf (s : List Char) : List Char :=
  let bare := withoutWord "uuid:" (withoutWord "urn:" s)
  (trimBoth (fun c => c = '\x7b' || c = '\x7d') bare).filter (· ≠ '-')

/-- The identifier a reference denotes. -/
def read (s : String) : Except ReadError Uuid :=
  let body := bodyOf s.toList
  if body.length = 32 then ofBody body else .error .badForm

/-- The identifier a reference denotes, if any. -/
def ofText? (s : String) : Option Uuid := (read s).toOption

/-! ## Reading path segments -/

/-- The number a list of hexadecimal digits denotes. -/
def ofHex? (s : List Char) : Option Nat :=
  s.foldlM (fun n c => (hexValue? c).map (16 * n + ·)) 0

/-- The digits of five hyphenated groups. -/
def unhyphenate? (s : List Char) : Option (List Char) :=
  let hyphens := [8, 13, 18, 23]
  if s.length = 36 ∧ hyphens.all (fun i => s[i]? = some '-') then
    some (s.take 8 ++ (s.drop 9).take 4 ++ (s.drop 14).take 4 ++ (s.drop 19).take 4 ++ s.drop 24)
  else none

/-- The identifier of a text in one of the standard forms: 32 digits, hyphenated
groups, groups in braces, or groups behind the scheme. -/
def ofStrictText? (s : String) : Option Uuid := do
  let s := s.toList
  let digits ←
    if s.length = 32 then some s
    else if s.length = 36 then unhyphenate? s
    else if s.length = 38 ∧ s.head? = some '\x7b' ∧ s.getLast? = some '\x7d' then
      unhyphenate? ((s.drop 1).take 36)
    else if "urn:uuid:".toList.isPrefixOf s then unhyphenate? (s.drop 9)
    else none
  return ⟨← ofHex? digits⟩

end Uuid

end VaultGovernance
