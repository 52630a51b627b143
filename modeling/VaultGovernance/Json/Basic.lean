import VaultGovernance.Number.Binary64
import VaultGovernance.OrderedMap

/-!
# VaultGovernance.Json.Basic

JSON values.  Integers and doubles are kept apart, since `1` and `1.0` are
written differently, and objects keep the order of their keys.  Two notions of
equality matter: `ident`, equality as data, and `same`, equality as values, for
which `1`, `1.0` and `true` are alike and the order of keys is irrelevant.
-/

namespace VaultGovernance

/-- A JSON value. -/
inductive Json where
  | null
  | bool (b : Bool)
  | int (n : Int)
  | float (x : Binary64)
  | str (s : String)
  | arr (items : List Json)
  | obj (entries : List (String × Json))
deriving Inhabited

namespace Json

/-- Whether the value is null. -/
def isNull : Json → Bool
  | null => true
  | _ => false

theorem isNull_iff {j : Json} : j.isNull = true ↔ j = null := by
  cases j <;> simp [isNull]

/-- Null for nothing. -/
def ofOption {α : Type} (f : α → Json) : Option α → Json
  | none => null
  | some a => f a

/-- The entries of an object; any other value has none. -/
def entries : Json → OrderedMap Json
  | obj es => es
  | _ => []

/-- The value at a key of an object; null when there is none. -/
def field (j : Json) (key : String) : Json :=
  (j.entries.get? key).getD null

/-- Whether an object has a key. -/
def hasField (j : Json) (key : String) : Bool :=
  j.entries.has key

/-- Whether a value counts as present: null, the empty texts and the empty
containers do not. -/
def isPopulated : Json → Bool
  | null => false
  | str s => s ≠ ""
  | arr items => !items.isEmpty
  | obj es => !es.isEmpty
  | _ => true

/-! ## Equality as data -/

mutual
/-- Whether two values are the same data. -/
def ident : Json → Json → Bool
  | null, null => true
  | bool a, bool b => a == b
  | int a, int b => a == b
  | float a, float b => a == b
  | str a, str b => a == b
  | arr xs, arr ys => identItems xs ys
  | obj xs, obj ys => identEntries xs ys
  | _, _ => false

/-- Whether two lists hold the same data. -/
def identItems : List Json → List Json → Bool
  | [], [] => true
  | x :: xs, y :: ys => ident x y && identItems xs ys
  | _, _ => false

/-- Whether two entry lists hold the same data in the same order. -/
def identEntries : List (String × Json) → List (String × Json) → Bool
  | [], [] => true
  | (k, x) :: xs, (l, y) :: ys => k == l && ident x y && identEntries xs ys
  | _, _ => false
end

mutual
/-- Values that compare as the same data are equal. -/
theorem eq_of_ident : (x y : Json) → ident x y = true → x = y
  | .null, y, h => by cases y <;> simp_all [ident]
  | .bool _, y, h => by cases y <;> simp_all [ident]
  | .int _, y, h => by cases y <;> simp_all [ident]
  | .float _, y, h => by cases y <;> simp_all [ident]
  | .str _, y, h => by cases y <;> simp_all [ident]
  | .arr xs, y, h => by
      cases y <;> simp only [ident, Bool.false_eq_true] at h
      rw [eq_of_identItems xs _ h]
  | .obj xs, y, h => by
      cases y <;> simp only [ident, Bool.false_eq_true] at h
      rw [eq_of_identEntries xs _ h]

/-- Lists that compare as the same data are equal. -/
theorem eq_of_identItems : (xs ys : List Json) → identItems xs ys = true → xs = ys
  | [], ys, h => by cases ys <;> simp_all [identItems]
  | x :: xs, ys, h => by
      cases ys with
      | nil => simp [identItems] at h
      | cons y ys =>
        simp only [identItems, Bool.and_eq_true] at h
        rw [eq_of_ident x y h.1, eq_of_identItems xs ys h.2]

/-- Entry lists that compare as the same data are equal. -/
theorem eq_of_identEntries : (xs ys : List (String × Json)) → identEntries xs ys = true → xs = ys
  | [], ys, h => by cases ys <;> simp_all [identEntries]
  | (k, x) :: xs, ys, h => by
      cases ys with
      | nil => simp [identEntries] at h
      | cons y ys =>
        obtain ⟨l, y⟩ := y
        simp only [identEntries, Bool.and_eq_true, beq_iff_eq] at h
        rw [h.1.1, eq_of_ident x y h.1.2, eq_of_identEntries xs ys h.2]
end

mutual
/-- A value is the same data as itself. -/
theorem ident_self : (x : Json) → ident x x = true
  | .null | .bool _ | .int _ | .float _ | .str _ => by simp [ident]
  | .arr xs => by rw [ident]; exact identItems_self xs
  | .obj xs => by rw [ident]; exact identEntries_self xs

/-- A list holds the same data as itself. -/
theorem identItems_self : (xs : List Json) → identItems xs xs = true
  | [] => rfl
  | x :: xs => by simp [identItems, ident_self x, identItems_self xs]

/-- An entry list holds the same data as itself. -/
theorem identEntries_self : (xs : List (String × Json)) → identEntries xs xs = true
  | [] => rfl
  | (k, x) :: xs => by simp [identEntries, ident_self x, identEntries_self xs]
end

/-- Comparing as data decides equality. -/
theorem ident_iff {x y : Json} : ident x y = true ↔ x = y :=
  ⟨eq_of_ident x y, fun h => h ▸ ident_self x⟩

instance : DecidableEq Json := fun x y =>
  decidable_of_iff (ident x y = true) ident_iff

/-! ## Finite numbers -/

mutual
/-- Whether every number in a value is finite. -/
def allFinite : Json → Bool
  | float x => x.isFinite
  | arr items => itemsFinite items
  | obj es => entriesFinite es
  | _ => true

/-- Whether every number in a list is finite. -/
def itemsFinite : List Json → Bool
  | [] => true
  | x :: xs => allFinite x && itemsFinite xs

/-- Whether every number in an entry list is finite. -/
def entriesFinite : List (String × Json) → Bool
  | [] => true
  | (_, x) :: xs => allFinite x && entriesFinite xs
end

/-! ## Equality as values -/

/-- The integer that a truth value counts as. -/
def truthInt (b : Bool) : Int := if b then 1 else 0

/-- Whether two values are equal numbers; truth values count as 0 and 1. -/
def sameNumber : Json → Json → Bool
  | bool a, y => sameInt (truthInt a) y
  | int a, y => sameInt a y
  | float a, bool b => a.toInt? = some (truthInt b)
  | float a, int b => a.toInt? = some b
  | float a, float b => a.eq b
  | _, _ => false
where
  /-- Whether a value is the number `a`. -/
  sameInt (a : Int) : Json → Bool
    | bool b => a = truthInt b
    | int b => a = b
    | float b => b.toInt? = some a
    | _ => false

/-- Whether both values are the double that is no number.  It does not equal itself, but there
is only one of it among the values that JSON text is read as, and containers take what is one
and the same for equal. -/
def bothNan : Json → Json → Bool
  | float .nan, float .nan => true
  | _, _ => false

mutual
/-- Whether two values are equal as values. -/
def same : Json → Json → Bool
  | null, null => true
  | str a, str b => a == b
  | arr xs, arr ys => sameItems xs ys
  | obj xs, obj ys => xs.length == ys.length && sameEntries xs ys
  | bool a, y => sameNumber (bool a) y
  | int a, y => sameNumber (int a) y
  | float a, y => sameNumber (float a) y
  | _, _ => false

/-- Whether two lists are equal as values. -/
def sameItems : List Json → List Json → Bool
  | [], [] => true
  | x :: xs, y :: ys => (bothNan x y || same x y) && sameItems xs ys
  | _, _ => false

/-- Whether every entry is found, equal as a value, in a map. -/
def sameEntries : List (String × Json) → List (String × Json) → Bool
  | [], _ => true
  | (k, x) :: xs, ys =>
    (match OrderedMap.get? ys k with
      | some y => bothNan x y || same x y
      | none => false) && sameEntries xs ys
end

/-- Whether two values are equal inside a container. -/
def sameInside (x y : Json) : Bool := bothNan x y || same x y

end Json

end VaultGovernance
