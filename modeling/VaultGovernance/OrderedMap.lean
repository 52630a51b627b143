/-!
# VaultGovernance.OrderedMap

Maps that remember the order in which their keys came.  Writing to a key that
is present replaces its value and keeps its place; a new key goes to the end.
-/

namespace VaultGovernance

/-- A map as its entries in order.  The operations keep the keys distinct. -/
abbrev OrderedMap (α : Type) := List (String × α)

namespace OrderedMap

variable {α : Type}

/-- The value at a key. -/
def get? : OrderedMap α → String → Option α
  | [], _ => none
  | (k, v) :: rest, key => if k = key then some v else get? rest key

/-- Whether a key is present. -/
def has (m : OrderedMap α) (key : String) : Bool :=
  (m.get? key).isSome

/-- The keys in order. -/
def keys (m : OrderedMap α) : List String :=
  m.map (·.1)

/-- Writes a value at a key. -/
def put : OrderedMap α → String → α → OrderedMap α
  | [], key, value => [(key, value)]
  | (k, v) :: rest, key, value =>
    if k = key then (k, value) :: rest else (k, v) :: put rest key value

/-- Writes every entry of the second map into the first. -/
def merge (m updates : OrderedMap α) : OrderedMap α :=
  updates.foldl (fun m e => m.put e.1 e.2) m

/-- A map without a key. -/
def remove (m : OrderedMap α) (key : String) : OrderedMap α :=
  m.filter fun e => e.1 ≠ key

/-- The map that entries denote when later ones replace earlier ones. -/
def ofEntries (entries : List (String × α)) : OrderedMap α :=
  merge [] entries

@[simp] theorem get?_nil (key : String) : get? ([] : OrderedMap α) key = none := rfl

/-- A write is read back at its key and leaves the others alone. -/
theorem get?_put (m : OrderedMap α) (key other : String) (value : α) :
    (m.put key value).get? other = if key = other then some value else m.get? other := by
  induction m with
  | nil => rfl
  | cons e rest ih =>
    obtain ⟨k, v⟩ := e
    by_cases hk : k = key
    · subst hk
      by_cases ho : k = other <;> simp [put, get?, ho]
    · by_cases ho : k = other
      · subst ho
        simp [put, get?, hk, Ne.symm hk]
      · simp [put, get?, hk, ho, ih]

/-- A removed key is gone and the others stay. -/
theorem get?_remove (m : OrderedMap α) (key other : String) :
    (m.remove key).get? other = if key = other then none else m.get? other := by
  induction m with
  | nil => simp [remove]
  | cons e rest ih =>
    obtain ⟨k, v⟩ := e
    simp only [remove] at ih
    by_cases hk : k = key
    · subst hk
      by_cases ho : k = other
      · subst ho; simpa [remove, get?] using ih
      · simpa [remove, get?, ho] using ih
    · by_cases ho : k = other
      · subst ho
        simp [remove, get?, hk, Ne.symm hk]
      · simpa [remove, get?, hk, ho] using ih

end OrderedMap

end VaultGovernance
