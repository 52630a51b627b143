import VaultGovernance.Json.Coerce
import VaultGovernance.Store.Basic

/-!
# VaultGovernance.Proposal.Distribution

The list of assets that a distribution pays out.  An entry is an object with an
identifier, or the identifier itself.  When the proposal is made every entry
must name, once, a locked asset of the vault; when it is executed the same
reader gives the identifiers in order.
-/

namespace VaultGovernance

namespace Distribution

/-- What an entry refers to: the identifier in an object, or the value
itself. -/
def reference : Json → Json
  | .obj es => (Json.obj es).field "id"
  | j => j

/-- The message for a reference that is no identifier. -/
def referenceMessage : Uuid.ReadError → String
  | .badForm => "badly formed hexadecimal UUID string"
  | .badDigits body =>
    "invalid literal for int() with base 16: " ++
      String.ofList ((Quoted.encode body.toList).take 200)
  | .outOfRange => "int is out of range (need a 128-bit value)"

/-- The identifier an entry gives, or the fault of reading it. -/
def readEntry (entry : Json) : Except Fault Uuid :=
  match Uuid.read (reference entry).display with
  | .ok id => .ok id
  | .error e => .error (.badValue (referenceMessage e))

/-- An entry that is refused, and why. -/
structure BadEntry where
  entry : Json
  reason : String
deriving DecidableEq

namespace BadEntry

/-- A bad entry as a value. -/
def toJson (b : BadEntry) : Json := .obj [("entry", b.entry), ("reason", .str b.reason)]

end BadEntry

/-- Reads the entries from the first to the last: those without a usable
reference of their own, and the others with their identifiers.  `seen` are the
identifiers of earlier entries. -/
def resolve : (seen : List Uuid) → List Json → List BadEntry × List (Json × Uuid)
  | _, [] => ([], [])
  | seen, entry :: rest =>
    if (reference entry).isNull then
      let (bad, good) := resolve seen rest
      (⟨entry, "missing asset id"⟩ :: bad, good)
    else
      match Uuid.ofText? (reference entry).display with
      | none =>
        let (bad, good) := resolve seen rest
        (⟨entry, "malformed asset id"⟩ :: bad, good)
      | some id =>
        if seen.contains id then
          let (bad, good) := resolve seen rest
          (⟨entry, "duplicate asset id"⟩ :: bad, good)
        else
          let (bad, good) := resolve (id :: seen) rest
          (bad, (entry, id) :: good)

/-- Whether an identifier names a locked asset of a vault. -/
def isLocked (s : Store) (vaultId id : Uuid) : Bool :=
  match s.asset? id with
  | some a => a.vaultId = vaultId && a.status = .locked
  | none => false

/-- The entries that are refused: first those without a reference of their own,
then those that name no locked asset of the vault. -/
def badEntries (s : Store) (vaultId : Uuid) (entries : List Json) : List BadEntry :=
  let (bad, good) := resolve [] entries
  bad ++ (good.filter fun e => !isLocked s vaultId e.2).map fun e =>
    ⟨e.1, "not a locked asset of this vault"⟩

/-- The field that lists the assets. -/
def field : String := "distribution_assets"

/-- Refuses a list with bad entries. -/
def check (s : Store) (vaultId : Uuid) (assets : Json) : Except Fault Unit := do
  let bad := badEntries s vaultId (← assets.elements)
  if bad.isEmpty then .ok ()
  else
    .error (.refusal (.invalidPayload (Choice.toJson ProposalType.distribution) [] []
      [(field, .arr (bad.map (·.toJson)))]))

/-- The identifiers that a list gives, in order; a value that counts as false
gives none. -/
def identifiers (assets : Json) : Except Fault (List Uuid) := do
  if assets.isTruthy then (← assets.elements).mapM readEntry else .ok []

end Distribution

end VaultGovernance
