import VaultGovernance.Claim.Basic
import VaultGovernance.Json.Coerce
import VaultGovernance.Number.DecimalText

/-!
# VaultGovernance.Claim.Legacy

Legacy amounts.  Older claims kept an amount of the native asset and a
multiplier in their metadata; both move into columns of their own.  A small
amount is in whole units and is scaled, a large one is in the smallest unit
already.  Both values are converted before anything is written.

Metadata are an object as a rule, but may be any value.  The two keys are looked
for in lists and texts as well, and a list or a text in which one of them is
found cannot be copied as an object (`makeObject`).
-/

namespace VaultGovernance

namespace Claim

/-- The metadata key of the legacy amount. -/
def adaAmountKey : String := "adaAmount"

/-- The metadata key of the legacy multiplier. -/
def multiplierKey : String := "multiplier"

/-- The number a legacy value denotes: the display form is read as a decimal;
truth values and numbers that are not finite do not count, and neither does a
value without a display form. -/
def legacyNumber? : Json → Option Decimal
  | .bool _ => none
  | j =>
    if j.canShow then
      match Decimal.ofText? (stripBlanks j.display) with
      | some d => if d.isFinite then some d else none
      | none => none
    else none

/-- The places between the native unit and its smallest part, and the first
digit from which on an amount counts as given in the smallest part. -/
def lovelacePlaces : Int := 6

/-- A legacy number in the smallest unit, cut toward zero. -/
def lovelaceOfNumber (d : Decimal) : Except Fault Int :=
  if d.isAtLeastPowerOfTen lovelacePlaces then .ok (d.truncate?.getD 0)
  else
    match d.scaleByPowerOfTen? lovelacePlaces with
    | some scaled => .ok (scaled.truncate?.getD 0)
    | none => .error .decimalOverflow

/-- The refusal of a legacy value that is no number.  Its message shows the claim and the
value, so it cannot be made where one of them cannot be shown. -/
def invalidAmount (claimId : Json) (key : String) (value : Json) : Fault :=
  if claimId.canShow && value.canShow then .refusal (.invalidClaimAmount claimId key value)
  else .badValue integerTextMessage

/-- A legacy amount in the smallest unit. -/
def lovelaceOfLegacy (claimId value : Json) : Except Fault Int :=
  match legacyNumber? value with
  | some d => lovelaceOfNumber d
  | none => .error (invalidAmount claimId adaAmountKey value)

/-- A legacy multiplier. -/
def multiplierOfLegacy (claimId value : Json) : Except Fault Decimal :=
  match legacyNumber? value with
  | some d => .ok d
  | none => .error (invalidAmount claimId multiplierKey value)

/-- The values of a claim that normalization reads and writes. -/
structure Amounts where
  lovelaceAmount : Option Int
  multiplier : Option Decimal
  metadata : Json
deriving DecidableEq

/-! ## Finding the keys -/

/-- Whether a text occurs in another one. -/
def occurs (part : List Char) : List Char → Bool
  | [] => part.isEmpty
  | c :: rest => part.isPrefixOf (c :: rest) || occurs part rest

/-- Whether a key is found in metadata: among the keys of an object, among the items of a list
or within a text. -/
def holdsKey (key : String) : Json → Bool
  | .obj entries => OrderedMap.has entries key
  | .arr items => items.contains (.str key)
  | .str s => occurs key.toList s.toList
  | _ => false

/-- Whether metadata carry a legacy key. -/
def carriesLegacy (metadata : Json) : Bool :=
  holdsKey adaAmountKey metadata || holdsKey multiplierKey metadata

/-- Whether keys can be looked for in metadata: in an object, a list and a text, and wherever
metadata count as nothing. -/
def isSearchable : Json → Bool
  | .obj _ | .arr _ | .str _ => true
  | j => !j.isTruthy

/-- Whether metadata carry a legacy key, or the fault of looking for it. -/
def findLegacy (metadata : Json) : Except Fault Bool :=
  if isSearchable metadata then .ok (carriesLegacy metadata) else .error .wrongType

/-! ## Copying metadata -/

/-- The message for an item that is to be an entry and does not have two parts. -/
def entryMessage (position parts : Nat) : String :=
  "dictionary update sequence element #" ++ natText position ++ " has length " ++ natText parts ++
    "; 2 is required"

/-- Makes an entry of an item: it has two parts, and the first one is no container. -/
def makeEntry (position : Nat) (item : Json) : Except Fault Unit := do
  match ← item.elements with
  | [.arr _, _] | [.obj _, _] => .error .wrongType
  | [_, _] => .ok ()
  | parts => .error (.badValue (entryMessage position parts.length))

/-- Makes entries of items; the first one that makes none decides the fault. -/
def makeEntries : (position : Nat) → List Json → Except Fault Unit
  | _, [] => .ok ()
  | position, item :: rest => do
    makeEntry position item
    makeEntries (position + 1) rest

/-- Makes an object of metadata, unless they are one. -/
def makeObject : Json → Except Fault Unit
  | .obj _ => .ok ()
  | j => do makeEntries 0 (← j.elements)

/-! ## Moving the values -/

/-- Metadata without the legacy keys. -/
def withoutLegacy (metadata : Json) : Json :=
  .obj ((metadata.entries.remove adaAmountKey).remove multiplierKey)

/-- A column that takes a legacy value only while it is empty and the value is
not null. -/
def fillColumn {α : Type} (column : Option α) (legacy : Json) (convert : Json → Except Fault α) :
    Except Fault (Option α) :=
  match column with
  | some a => .ok (some a)
  | none => if legacy.isNull then .ok none else (convert legacy).map some

/-- The amounts with the legacy values moved into their columns; nothing when
there is no legacy key. -/
def normalizeAmounts (claimId : Json) (a : Amounts) : Except Fault (Option Amounts) := do
  if ← findLegacy a.metadata then
    makeObject a.metadata
    let lovelace ←
      fillColumn a.lovelaceAmount (a.metadata.field adaAmountKey) (lovelaceOfLegacy claimId)
    let multiplier ←
      fillColumn a.multiplier (a.metadata.field multiplierKey) (multiplierOfLegacy claimId)
    return some ⟨lovelace, multiplier, withoutLegacy a.metadata⟩
  else return none

/-- A computation on the amounts of a claim in memory.  Where it fails, what it wrote
stays. -/
abbrev Edit := ExceptT Fault (StateM Amounts)

/-- Moves the legacy values into their columns where they stand, one write after the
other, and answers whether there were any. -/
def normalizeInPlace (claimId : Json) : Edit Bool := do
  let before ← get
  if ← MonadExcept.ofExcept (findLegacy before.metadata) then
    MonadExcept.ofExcept (makeObject before.metadata)
    let lovelace ← MonadExcept.ofExcept <|
      fillColumn before.lovelaceAmount (before.metadata.field adaAmountKey)
        (lovelaceOfLegacy claimId)
    let multiplier ← MonadExcept.ofExcept <|
      fillColumn before.multiplier (before.metadata.field multiplierKey)
        (multiplierOfLegacy claimId)
    modify fun a => { a with lovelaceAmount := lovelace }
    modify fun a => { a with multiplier := multiplier }
    modify fun a => { a with metadata := withoutLegacy before.metadata }
    return true
  else
    return false

/-- The amounts of a claim. -/
def amounts (c : Claim) : Amounts := ⟨c.lovelaceAmount, c.multiplier, c.metadata⟩

/-- Whether a claim still carries a legacy key. -/
def needsNormalization (c : Claim) : Bool := carriesLegacy c.metadata

end Claim

end VaultGovernance
