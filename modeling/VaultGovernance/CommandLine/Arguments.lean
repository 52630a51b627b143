import VaultGovernance.Text.Integer
import VaultGovernance.Text.Pieces
import VaultGovernance.Text.Digit

/-!
# VaultGovernance.CommandLine.Arguments

The arguments of the command that normalizes claims.  An option may be
shortened as long as it stays clear which one is meant, its value may follow an
equals sign, and of options given twice the later one counts.
-/

namespace VaultGovernance

namespace CommandLine

/-- The options of the command. -/
inductive Flag where
  | help
  | dryRun
  | limit
deriving DecidableEq

namespace Flag

/-- The spellings of the options. -/
def spellings : List (String × Flag) :=
  [("-h", help), ("--help", help), ("--dry-run", dryRun), ("--limit", limit)]

/-- The option that a word means: one of the spellings, or the beginning of a
long one. -/
def ofWord? (word : List Char) : Option Flag :=
  match spellings.find? fun s => s.1.toList = word with
  | some s => some s.2
  | none =>
    if "--".toList.isPrefixOf word then
      match spellings.filter fun s => word.isPrefixOf s.1.toList with
      | [s] => some s.2
      | _ => none
    else none

end Flag

/-- What the command is to do. -/
structure Arguments where
  dryRun : Bool := false
  limit : Option Int := none
deriving DecidableEq

/-- What the arguments of the command come to. -/
inductive Parsed where
  | run (args : Arguments)
  | help
  | misused
deriving DecidableEq

/-- Whether a word is a negative number rather than an option. -/
def isNegativeNumber (word : List Char) : Bool :=
  match word with
  | '-' :: rest =>
    let (whole, fraction) := splitAtChar '.' rest
    match fraction with
    | none => !whole.isEmpty && whole.all isDigit
    | some ds => whole.all isDigit && !ds.isEmpty && ds.all isDigit
  | _ => false

/-- Whether a word can be the value of an option. -/
def isValue (word : List Char) : Bool :=
  match word with
  | '-' :: _ :: _ =>
    (Flag.ofWord? (splitAtChar '=' word).1).isNone && word ≠ ['-', '-'] &&
      (isNegativeNumber word || word.contains ' ')
  | _ => true

/-- Reads a limit. -/
def readLimit (args : Arguments) (word : String) : Option Arguments :=
  match readInteger word with
  | .ok n => some { args with limit := some n }
  | .error _ => none

/-- Reads words one after the other.  A word that is no option is a misuse, which
counts once all words were read. -/
def parseFrom (args : Arguments) (misused : Bool) : List String → Parsed
  | [] => if misused then .misused else .run args
  | word :: rest =>
    if word = "--" then .misused
    else
      let (name, given) := splitAtChar '=' word.toList
      match Flag.ofWord? name, given with
      | some .help, none => .help
      | some .dryRun, none => parseFrom { args with dryRun := true } misused rest
      | some .limit, some text =>
        match readLimit args (String.ofList text) with
        | some args => parseFrom args misused rest
        | none => .misused
      | some .limit, none =>
        match rest with
        | value :: rest =>
          if isValue value.toList then
            match readLimit args value with
            | some args => parseFrom args misused rest
            | none => .misused
          else .misused
        | [] => .misused
      | some _, some _ => .misused
      | none, _ => parseFrom args true rest

/-- Reads the arguments of the command. -/
def parse (words : List String) : Parsed := parseFrom {} false words

end CommandLine

end VaultGovernance
