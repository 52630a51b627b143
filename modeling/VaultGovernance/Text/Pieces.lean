/-!
# VaultGovernance.Text.Pieces

Cutting texts at a separator.
-/

namespace VaultGovernance

/-- The pieces of a text between a separator; there is always one piece. -/
def pieces (c : Char) : List Char → List (List Char)
  | [] => [[]]
  | d :: rest =>
    if d = c then [] :: pieces c rest
    else
      match pieces c rest with
      | piece :: others => (d :: piece) :: others
      | [] => [[d]]

/-- What precedes the first occurrence of a character, and what follows it. -/
def splitAtChar (c : Char) (s : List Char) : List Char × Option (List Char) :=
  match s.dropWhile (· ≠ c) with
  | [] => (s, none)
  | _ :: rest => (s.takeWhile (· ≠ c), some rest)

end VaultGovernance
