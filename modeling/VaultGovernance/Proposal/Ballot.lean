import VaultGovernance.Json.Coerce
import VaultGovernance.Proposal.Basic
import VaultGovernance.Store.Column

/-!
# VaultGovernance.Proposal.Ballot

Making a ballot of one's own.  An option is given as a label, or as an object
with a label and an order; without an order its position counts.
-/

namespace VaultGovernance

namespace Ballot

/-- An option as it is submitted. -/
structure OptionDraft where
  label : Json
  order : Json
deriving DecidableEq

/-- The option a value at a position gives. -/
def readOption (position : Nat) : Json → Except Fault OptionDraft
  | .str label => .ok ⟨.str label, .int position⟩
  | .obj es =>
    match OrderedMap.get? es "label" with
    | none => .error (.missingKey "label")
    | some label =>
      let order := (OrderedMap.get? es "order").getD .null
      .ok ⟨label, if order.isNull then .int position else order⟩
  | _ => .error .wrongType

/-- The options that values give, from a position on. -/
def readOptions : (position : Nat) → List Json → Except Fault (List OptionDraft)
  | _, [] => .ok []
  | position, j :: rest => do
    let option ← readOption position j
    let options ← readOptions (position + 1) rest
    return option :: options

/-- The options a value gives; one that counts as false gives none. -/
def read (options : Json) : Except Fault (List OptionDraft) := do
  if options.isTruthy then readOptions 0 (← options.elements) else .ok []

/-- The orders of the options, as their column keeps them. -/
def orders : List OptionDraft → Except Fault (List Int)
  | [] => .ok []
  | d :: rest => do
    match ← Column.integerOfJson d.order with
    | some n => return n :: (← orders rest)
    | none => return 0 :: (← orders rest)

/-- The labels of the options, as their column keeps them. -/
def labels : List OptionDraft → Except Fault (List (Option String))
  | [] => .ok []
  | d :: rest => do return (← Column.textOfJson d.label) :: (← labels rest)

/-- Refuses an option without a label. -/
def requireLabels : List (Option String) → Except Fault (List String)
  | [] => .ok []
  | l :: rest => do
    return (← Column.required "vote_options" "label" l) :: (← requireLabels rest)

/-- The rows of the options, numbered from `serial` on. -/
def rows : (serial : Nat) → List String → List Int → List VoteOption
  | serial, label :: labels, order :: orders =>
    ⟨Uuid.ofSerial serial, label, order⟩ :: rows (serial + 1) labels orders
  | _, _, _ => []

/-- The rows the store keeps of submitted options.  Values that fit no column
are found before missing labels. -/
def store (serial : Nat) (drafts : List OptionDraft) : Except Fault (List VoteOption) := do
  let orders ← orders drafts
  let labels ← labels drafts
  return rows serial (← requireLabels labels) orders

end Ballot

end VaultGovernance
