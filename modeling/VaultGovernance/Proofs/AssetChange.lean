import VaultGovernance.Proofs.Answers
import VaultGovernance.Proofs.Representable

/-!
# VaultGovernance.Proofs.AssetChange

Changing the free fields of an asset.  A change goes from the body through a form, which
keeps the entries that were given, to the fields that are written; each field is then what
was given for it, or what it was (`Asset.Changed`), and nothing else in the store changes.
One name is taken: the field that holds the asset's name has the name that also says which
asset is changed, so no change can name it (`Asset.Blocked`).
-/

namespace VaultGovernance

open VaultGovernance.Action

/-! ## Fields that are given -/

/-- What a change means for a field: it has a value that is meant by the entry with its name,
or is as it was where there is no such entry. -/
def Given {β : Type} (entries : OrderedMap Json) (name : String) (means : Json → β → Prop)
    (old new : β) : Prop :=
  match entries.get? name with
  | some j => means j new
  | none => new = old

namespace OrderedMap

variable {α : Type}

/-- At most one entry. -/
theorem get?_toList_map (entry name : String) (v : Option α) :
    get? (v.toList.map fun a => (entry, a)) name = if entry = name then v else none := by
  cases v with
  | none => exact (ite_self none).symm
  | some a => rfl

end OrderedMap

namespace Body

open Form Checked

variable {p : Place} {entries : OrderedMap Json}

/-- An entry that is not null passes a check, or is left out. -/
inductive Passes {α : Type} (check : Check α) (toJson : α → Json) (p : Place) :
    Option Json → Option Json → Prop
  | absent : Passes check toJson p none none
  | given {j : Json} {a : α} (h : check p j = .valid a) :
      Passes check toJson p (some j) (some (toJson a))

theorem Passes.isSome_eq {α : Type} {check : Check α} {toJson : α → Json}
    {given written : Option Json}
    (h : Passes check toJson p given written) : written.isSome = given.isSome := by
  cases h <;> rfl

/-- An entry of a change that is not null is written as it passed its check. -/
theorem passes_of_changed {α : Type} {entry : String} {check : Check α} {toJson : α → Json}
    {written : List (String × Json)} (h : changed entry check toJson p entries = .valid written)
    (hgiven : entries.get? entry ≠ some .null) :
    ∃ v : Option Json, written = v.toList.map (fun j => (entry, j)) ∧
      Passes check toJson (p.entry entry) (entries.get? entry) v := by
  rcases changed_valid h with ⟨hnone, rfl⟩ | ⟨j, value, hj, hvalue, rfl⟩
  · rw [hnone]
    exact ⟨none, rfl, .absent⟩
  · have hnull : ¬ j.isNull = true := by
      rw [Json.isNull_iff]
      rintro rfl
      exact hgiven hj
    rw [orNull, if_neg hnull] at hvalue
    obtain ⟨a, ha, rfl⟩ := map_eq_valid.1 hvalue
    rw [hj]
    exact ⟨some (toJson a), rfl, .given ha⟩

/-- The fields that a change of free fields writes: each entry of the body as it passed. -/
structure Writes (p : Place) (entries fields : OrderedMap Json) : Prop where
  free : ∀ key ∈ fields.keys, key ∈ Asset.freeFields
  addressed : fields.has "asset_id" = entries.has "asset_id"
  policyId : Passes (checking (name 64)) .str (p.entry "policy_id") (entries.get? "policy_id")
    (fields.get? "policy_id")
  kind : Passes (checking (member AssetKind)) Choice.toJson (p.entry "type")
    (entries.get? "type") (fields.get? "type")
  quantity : Passes (checking amount) (fun d => .str d.scientificText) (p.entry "quantity")
    (entries.get? "quantity") (fields.get? "quantity")
  addedBy : Passes (checking (textUpTo 255)) .str (p.entry "added_by") (entries.get? "added_by")
    (fields.get? "added_by")
  metadata : Passes anyObject .obj (p.entry "metadata") (entries.get? "metadata")
    (fields.get? "metadata")

/-- A body that only names free fields, and gives a value for each, writes what passed. -/
theorem writes_of_assetChange {f : Uuid → Action Asset}
    (h : assetChange p (.obj entries) = .valid f)
    (hfree : ∀ key ∈ entries.keys, key ∈ Asset.freeFields)
    (hgiven : ∀ key, entries.get? key ≠ some .null) :
    ∃ fields, (f = fun id => Asset.update id fields) ∧ Writes p entries fields := by
  simp only [assetChange, form_eq_valid, seq_eq_valid, map_eq_valid] at h
  obtain ⟨_, ⟨⟩, _, metadata, ⟨_, addedBy, ⟨_, quantity, ⟨_, kind, ⟨_, assetName,
    ⟨policyId, hpolicyId, rfl⟩, hassetName, rfl⟩, hkind, rfl⟩, hquantity, rfl⟩, haddedBy, rfl⟩,
    hmetadata, rfl⟩ := h
  have hundeclared : (entries.filter fun e => !checkedEntries.contains e.1) = [] := by
    rw [List.filter_eq_nil_iff]
    intro e he
    have hmem : e.1 ∈ checkedEntries := hfree e.1 (List.mem_map_of_mem he)
    simpa using hmem
  obtain ⟨v₁, rfl, h₁⟩ := passes_of_changed hpolicyId (hgiven _)
  obtain ⟨v₂, rfl, h₂⟩ := passes_of_changed hassetName (hgiven _)
  obtain ⟨v₃, rfl, h₃⟩ := passes_of_changed hkind (hgiven _)
  obtain ⟨v₄, rfl, h₄⟩ := passes_of_changed hquantity (hgiven _)
  obtain ⟨v₅, rfl, h₅⟩ := passes_of_changed haddedBy (hgiven _)
  obtain ⟨v₆, rfl, h₆⟩ := passes_of_changed hmetadata (hgiven _)
  refine ⟨_, rfl, ?_⟩
  rw [hundeclared, List.append_nil]
  refine ⟨fun key hkey => ?_, ?_, ?_, ?_, ?_, ?_, ?_⟩
  · by_contra hfixed
    simp only [Asset.freeFields, List.mem_cons, List.not_mem_nil, or_false, not_or] at hfixed
    refine OrderedMap.get?_eq_none.1 ?_ hkey
    simp [OrderedMap.get?_append, OrderedMap.get?_toList_map, Ne.symm hfixed.1,
      Ne.symm hfixed.2.1, Ne.symm hfixed.2.2.1, Ne.symm hfixed.2.2.2.1,
      Ne.symm hfixed.2.2.2.2.1, Ne.symm hfixed.2.2.2.2.2]
  · rw [OrderedMap.has, OrderedMap.has, ← h₂.isSome_eq]
    simp [OrderedMap.get?_append, OrderedMap.get?_toList_map]
  · simpa [OrderedMap.get?_append, OrderedMap.get?_toList_map] using h₁
  · simpa [OrderedMap.get?_append, OrderedMap.get?_toList_map] using h₃
  · simpa [OrderedMap.get?_append, OrderedMap.get?_toList_map] using h₄
  · simpa [OrderedMap.get?_append, OrderedMap.get?_toList_map] using h₅
  · simpa [OrderedMap.get?_append, OrderedMap.get?_toList_map] using h₆

end Body

/-! ## What passes the checks -/

/-- The member with a text is given by that text. -/
theorem Choice.eq_toJson {α : Type} [Choice α] {j : Json} {a : α} (h : Choice.ofJson? j = some a) :
    j = Choice.toJson a := by
  cases j with
  | str s =>
      have hfound : (Choice.all : List α).find? (fun a => Choice.text a = s) = some a := h
      have htext : Choice.text a = s := by simpa using List.find?_some hfound
      rw [Choice.toJson, htext]
  | _ => cases h

theorem Choice.read_of_ofJson? {α : Type} [Choice α] {j : Json} {a : α}
    (h : Choice.ofJson? j = some a) : Choice.read α j = .ok a := by
  rw [Choice.read, h]

namespace Form

variable {α : Type} {j : Json} {p : Place}

theorem read_of_ensuring {read : Reader α} {ok : α → Bool} {fault : FormFault} {a : α}
    (h : ensuring read ok fault j = .ok a) : read j = .ok a := by
  rw [ensuring] at h
  cases hread : read j with
  | error f => simp [hread] at h
  | ok b =>
      simp only [hread] at h
      split at h
      · exact h
      · cases h

theorem eq_of_text {s : String} (h : text j = .ok s) : j = .str s := by
  cases j <;> cases h
  rfl

theorem eq_of_name {most : Nat} {s : String} (h : name most j = .ok s) : j = .str s :=
  eq_of_text (read_of_ensuring (read_of_ensuring h))

theorem eq_of_textUpTo {most : Nat} {s : String} (h : textUpTo most j = .ok s) : j = .str s :=
  eq_of_text (read_of_ensuring h)

theorem eq_of_member [Choice α] {a : α} (h : member α j = .ok a) : Choice.ofJson? j = some a := by
  rw [member] at h
  cases hmember : (Choice.ofJson? j : Option α) with
  | none => simp [hmember] at h
  | some b =>
      simp only [hmember] at h
      rw [Except.ok.inj h]

theorem eq_of_anyObject {entries : OrderedMap Json} (h : anyObject p j = .valid entries) :
    j = .obj entries := by
  cases j with
  | obj given =>
      rw [anyObject_obj] at h
      cases h
      rfl
  | _ => cases h

end Form

namespace Decimal

/-- A number that is read has exponents that a text may give. -/
theorem withinText?_of_readNumber? {negative : Bool} {s : List Char} {d : Decimal}
    (h : readNumber? negative s = some d) :
    ∃ c x, d = finite negative c x ∧ withinText? negative c x = some d := by
  have hparts : ∀ (whole fraction : List Nat) (rest : List Char),
      (if whole = [] ∧ fraction = [] then none
        else (readExponent? rest).bind fun e =>
          withinText? negative (ofDigits (whole ++ fraction)) (e - fraction.length)) = some d →
      ∃ c x, d = finite negative c x ∧ withinText? negative c x = some d := by
    intro whole fraction rest h
    split at h
    · cases h
    · obtain ⟨e, -, hwithin⟩ := Option.bind_eq_some_iff.1 h
      have hd := hwithin
      rw [withinText?] at hd
      split at hd
      · cases hd
        exact ⟨_, _, rfl, hwithin⟩
      · cases hd
  unfold readNumber? at h
  dsimp only at h
  split at h
  · exact hparts _ _ _ h
  · exact hparts _ _ _ h

/-- A finite number that is read is written with a text that is read as it. -/
theorem ofText?_of_ofText? {s : String} {d : Decimal} (h : ofText? s = some d)
    (hfinite : d.isFinite = true) : ofText? d.scientificText = some d := by
  have hread : ∃ negative body, readNumber? negative body = some d := by
    rw [ofText?] at h
    unfold readSigned? at h
    dsimp only at h
    split at h
    · cases h; cases hfinite
    · cases h; cases hfinite
    · unfold readPayload? at h
      dsimp only at h
      split at h <;> cases h
      cases hfinite
    · unfold readPayload? at h
      dsimp only at h
      split at h <;> cases h
      cases hfinite
    · exact ⟨_, _, h⟩
  obtain ⟨negative, body, hbody⟩ := hread
  obtain ⟨c, x, rfl, hwithin⟩ := withinText?_of_readNumber? hbody
  rw [ofText?_scientificText, hwithin]

/-- The digits of an integer that is too long for its text to be read as a decimal. -/
def tooManyDigits : Nat := 10 ^ 18

theorem withinText?_integer (negative : Bool) (n : Nat) :
    withinText? negative n 0 =
      if tooManyDigits < digitCount n then none else some (finite negative n 0) := by
  have hmin : minTextExponent ≤ 0 := by decide
  have hmax : leadingExponent n 0 ≤ maxTextExponent ↔ ¬ tooManyDigits < digitCount n := by
    rw [leadingExponent, maxTextExponent, tooManyDigits]
    omega
  rw [withinText?]
  by_cases hlong : tooManyDigits < digitCount n
  · rw [if_neg (fun h => hmax.1 h.1 hlong), if_pos hlong]
  · rw [if_pos ⟨hmax.2 hlong, hmin⟩, if_neg hlong]

end Decimal

namespace Form

variable {j : Json} {d : Decimal}

/-- A form gives an integer for a quantity whose text is not read as a decimal. -/
def Overlong (j : Json) : Prop :=
  ∃ n, j = .int n ∧ Decimal.tooManyDigits < Decimal.digitCount n.natAbs

/-- The text in which a change passes a quantity on is read as that quantity, unless it is
the text of an overlong integer. -/
theorem decimalOfJson_of_amount (h : amount j = .ok d) :
    Overlong j ∧ Column.decimalOfJson (.str d.scientificText) = .error .unstorable ∨
      ¬ Overlong j ∧ Column.decimalOfJson (.str d.scientificText) = .ok (some d) := by
  have hread : decimal j = .ok d := read_of_ensuring h
  have htext : ∀ s, decimal.ofText s = .ok d → Decimal.ofText? d.scientificText = some d := by
    intro s hs
    rw [decimal.ofText] at hs
    split at hs
    · next d' hd' =>
      split at hs
      · next hfinite =>
        cases hs
        exact Decimal.ofText?_of_ofText? hd' hfinite
      · cases hs
    · cases hs
  cases j with
  | int n =>
      obtain rfl := Except.ok.inj hread
      rw [Column.decimalOfJson, Decimal.ofText?_scientificText, Decimal.withinText?_integer]
      by_cases hlong : Decimal.tooManyDigits < Decimal.digitCount n.natAbs
      · rw [if_pos hlong]
        exact .inl ⟨⟨n, rfl, hlong⟩, rfl⟩
      · rw [if_neg hlong]
        refine .inr ⟨?_, rfl⟩
        rintro ⟨m, hm, hlong'⟩
        cases hm
        exact hlong hlong'
  | float x =>
      refine .inr ⟨?_, ?_⟩
      · rintro ⟨m, hm, -⟩
        cases hm
      · rw [Column.decimalOfJson, htext _ hread]
  | str s =>
      refine .inr ⟨?_, ?_⟩
      · rintro ⟨m, hm, -⟩
        cases hm
      · rw [Column.decimalOfJson, htext _ hread]
  | _ => cases hread

end Form

/-! ## Fields that are written -/

/-- A field is written with what its entry means, or stays. -/
theorem Body.Passes.written {α β γ : Type} {check : Form.Check α} {toJson : α → Json} {p : Place}
    {entries fields : OrderedMap Json} {name : String} {convert : Json → Except Fault γ}
    {means : Json → β → Prop} (column : β → γ)
    (h : Passes check toJson p (entries.get? name) (fields.get? name)) (old : β)
    (hmeans : ∀ j a, entries.get? name = some j → check p j = .valid a →
      ∃ b, convert (toJson a) = .ok (column b) ∧ means j b) :
    ∃ new, Asset.written fields name (column old) convert = .ok (column new) ∧
      Given entries name means old new := by
  unfold Asset.written Given
  generalize fields.get? name = written at h
  generalize entries.get? name = given at h hmeans
  cases h with
  | absent => exact ⟨old, rfl, rfl⟩
  | @given j a hcheck => exact hmeans j a rfl hcheck

namespace Column

/-- An amount above zero is shown as something. -/
theorem exists_numeric {c : Nat} {x : Int} :
    ∃ q, numeric moneyPlaces (.finite false c x) = .ok (some q) := by
  rw [numeric_finite]
  rcases Decimal.toBinary64_unsigned c x with hinfinite | ⟨quanta, hfinite⟩
  · exact ⟨_, by rw [hinfinite]; rfl⟩
  · cases quanta with
    | zero => exact ⟨_, by rw [hfinite]; rfl⟩
    | succ n => exact ⟨_, by rw [hfinite]; rfl⟩

/-- An amount that is written over what the column shows is shown as a new one would be,
although nothing is written where the two are equal. -/
theorem overwriteNumeric_of_shown {d d' q : Decimal}
    (hshown : numeric moneyPlaces d = .ok (some q)) (hpositive : d'.IsPositive) :
    overwriteNumeric moneyPlaces (some q) d' = numeric moneyPlaces d' := by
  rw [overwriteNumeric]
  split
  · next hsame => rw [numeric_of_shown hshown hpositive hsame]
  · rfl

end Column

namespace Asset

variable {entries fields : OrderedMap Json} {time : Timestamp} {a a' : Asset}

/-- What an asset is after a change.  A field that the change names has the value that is
given for it, the quantity as its column shows that; metadata that is equal to what was
there stays as it was.  Nothing else is changed but the time of the last change. -/
structure Changed (entries : OrderedMap Json) (time : Timestamp) (a a' : Asset) : Prop where
  policyId : Given entries "policy_id" (fun j s => j = .str s) a.policyId a'.policyId
  kind : Given entries "type" (fun j k => j = Choice.toJson k) a.kind a'.kind
  quantity : Given entries "quantity" (fun j q => ∃ d, Form.amount j = .ok d ∧
    Column.numeric Column.moneyPlaces d = .ok (some q)) a.quantity a'.quantity
  addedBy : Given entries "added_by" (fun j t => j = Json.ofOption .str t ∧ t.isSome)
    a.addedBy a'.addedBy
  metadata : Given entries "metadata" (fun j m => m = j ∨ Json.same a.metadata j ∧ m = a.metadata)
    a.metadata a'.metadata
  frame : a' = { a with
    policyId := a'.policyId
    kind := a'.kind
    quantity := a'.quantity
    addedBy := a'.addedBy
    metadata := a'.metadata
    updatedAt := some time }

/-- The quantity that is given for an asset is an overlong integer. -/
def OverlongQuantity (entries : OrderedMap Json) : Prop :=
  ∃ j, entries.get? "quantity" = some j ∧ Form.Overlong j

/-- A change cannot be made: it names the asset's name, or its quantity is too long. -/
def Blocked (entries : OrderedMap Json) : Prop :=
  entries.has "asset_id" = true ∨ OverlongQuantity entries

theorem written_of_absent {α : Type} {name : String} {convert : Json → Except Fault α} (old : α)
    (h : fields.has name = false) : written fields name old convert = .ok old := by
  rw [OrderedMap.has, Option.isSome_eq_false_iff, Option.isNone_iff_eq_none] at h
  rw [written, h]

/-- How a quantity is written over the one that an asset has. -/
def writtenQuantity (a : Asset) (fields : OrderedMap Json) : Except Fault (Option Decimal) :=
  written fields "quantity" (some a.quantity) fun j => do
    match ← Column.decimalOfJson j with
    | some d => Column.overwriteNumeric Column.moneyPlaces (some a.quantity) d
    | none => .ok none

section Fields

open Form

variable {p : Place} (h : Body.Writes p entries fields)
include h

theorem written_policyId (a : Asset) :
    ∃ new, written fields "policy_id" (some a.policyId) Column.textOfJson = .ok (some new) ∧
      Given entries "policy_id" (fun j s => j = .str s) a.policyId new :=
  h.policyId.written some a.policyId fun _ s _ hs =>
    ⟨s, rfl, eq_of_name (checking_eq_valid.1 hs)⟩

theorem written_kind (a : Asset) :
    ∃ new, written fields "type" a.kind (Choice.read AssetKind) = .ok new ∧
      Given entries "type" (fun j k => j = Choice.toJson k) a.kind new := by
  refine h.kind.written (fun k => k) a.kind fun j k _ hk => ?_
  have hmember := eq_of_member (checking_eq_valid.1 hk)
  have hj := Choice.eq_toJson hmember
  rw [hj] at hmember
  exact ⟨k, Choice.read_of_ofJson? hmember, hj⟩

theorem written_addedBy (a : Asset) :
    ∃ new, written fields "added_by" a.addedBy Column.textOfJson = .ok new ∧
      Given entries "added_by" (fun j t => j = Json.ofOption .str t ∧ t.isSome) a.addedBy new :=
  h.addedBy.written (fun t => t) a.addedBy fun _ s _ hs =>
    ⟨some s, rfl, eq_of_textUpTo (checking_eq_valid.1 hs), rfl⟩

theorem written_metadata (a : Asset) :
    ∃ new, written fields "metadata" a.metadata
        (fun j => .ok (Column.overwriteDocument a.metadata j)) = .ok new ∧
      Given entries "metadata" (fun j m => m = j ∨ Json.same a.metadata j ∧ m = a.metadata)
        a.metadata new := by
  refine h.metadata.written (fun m => m) a.metadata fun j m _ hm => ?_
  obtain rfl := eq_of_anyObject hm
  refine ⟨_, rfl, ?_⟩
  rw [Column.overwriteDocument]
  split
  · next hsame => exact .inr ⟨hsame, rfl⟩
  · exact .inl rfl

theorem written_quantity (hlong : ¬ OverlongQuantity entries)
    (hshown : ∃ d, Column.numeric Column.moneyPlaces d = .ok (some a.quantity)) :
    ∃ new, writtenQuantity a fields = .ok (some new) ∧
      Given entries "quantity" (fun j q => ∃ d, Form.amount j = .ok d ∧
        Column.numeric Column.moneyPlaces d = .ok (some q)) a.quantity new := by
  obtain ⟨d, hshown⟩ := hshown
  refine h.quantity.written some a.quantity fun j amount hj hcheck => ?_
  have hamount := checking_eq_valid.1 hcheck
  obtain ⟨c, x, rfl, hc⟩ := exists_of_amount hamount
  obtain ⟨q, hq⟩ := Column.exists_numeric (c := c) (x := x)
  rcases decimalOfJson_of_amount hamount with ⟨hj', -⟩ | ⟨-, hread⟩
  · exact absurd ⟨j, hj, hj'⟩ hlong
  · have hpositive : (Decimal.finite false c x).IsPositive := ⟨rfl, hc⟩
    refine ⟨q, ?_, _, hamount, hq⟩
    rw [hread]
    exact (Column.overwriteNumeric_of_shown hshown hpositive).trans hq

theorem writtenQuantity_of_overlong (hlong : OverlongQuantity entries) :
    writtenQuantity a fields = .error .unstorable := by
  obtain ⟨j, hj, hlong⟩ := hlong
  have hquantity := h.quantity
  rw [hj] at hquantity
  rw [writtenQuantity, written]
  generalize fields.get? "quantity" = given at hquantity
  cases hquantity with
  | @given _ amount hcheck =>
      rcases decimalOfJson_of_amount (checking_eq_valid.1 hcheck) with ⟨-, hread⟩ | ⟨hshort, -⟩
      · dsimp only
        rw [hread]
        rfl
      · exact absurd hlong hshort

/-- A change that can be made. -/
theorem withFields_ok (hfree : ¬ Blocked entries)
    (hshown : ∃ d, Column.numeric Column.moneyPlaces d = .ok (some a.quantity)) :
    ∃ a', a.withFields fields time = .ok a' ∧ a.Changed entries time a' := by
  have hname : fields.has "asset_id" = false := by
    rw [h.addressed, Bool.eq_false_iff]
    exact fun hnamed => hfree (.inl hnamed)
  obtain ⟨kind, hkind, hkind'⟩ := written_kind h a
  obtain ⟨policyId, hpolicyId, hpolicyId'⟩ := written_policyId h a
  obtain ⟨quantity, hquantity, hquantity'⟩ :=
    written_quantity h (fun hlong => hfree (.inr hlong)) hshown
  obtain ⟨addedBy, haddedBy, haddedBy'⟩ := written_addedBy h a
  obtain ⟨metadata, hmetadata, hmetadata'⟩ := written_metadata h a
  refine ⟨{ a with policyId, kind, quantity, addedBy, metadata, updatedAt := some time }, ?_,
    ⟨hpolicyId', hkind', hquantity', haddedBy', hmetadata', rfl⟩⟩
  simp only [withFields, bind_eq_ok, pure_eq_ok]
  exact ⟨kind, hkind, some policyId, hpolicyId, some a.assetName, written_of_absent _ hname,
    some quantity, hquantity, addedBy, haddedBy, metadata, hmetadata, policyId, rfl, a.assetName,
    rfl, quantity, rfl, rfl⟩

/-- A change with a quantity that is too long. -/
theorem withFields_error (hname : fields.has "asset_id" = false)
    (hlong : OverlongQuantity entries) : a.withFields fields time = .error .unstorable := by
  obtain ⟨kind, hkind, -⟩ := written_kind h a
  obtain ⟨policyId, hpolicyId, -⟩ := written_policyId h a
  simp only [withFields, bind_eq_error]
  exact .inr ⟨kind, hkind, .inr ⟨some policyId, hpolicyId, .inr ⟨some a.assetName,
    written_of_absent _ hname, .inl (writtenQuantity_of_overlong h hlong)⟩⟩⟩

end Fields

/-! ## Changes that are carried out -/

section Update

variable {c : Context} {w : World} {id : Uuid}

theorem checkFields_of_free (hfree : ∀ key ∈ fields.keys, key ∈ freeFields) :
    checkFields id fields.keys = .ok () := by
  generalize fields.keys = names at hfree
  have hfixed : ∀ key ∈ freeFields, key ∉ fixedFields := by decide
  induction names with
  | nil => rfl
  | cons key rest ih =>
      have hkey := hfree key List.mem_cons_self
      rw [checkFields, if_neg (by simpa using hfixed key hkey), if_pos (by simpa using hkey)]
      exact ih fun key hrest => hfree key (List.mem_cons_of_mem _ hrest)

theorem any_addressNames (hfree : ∀ key ∈ fields.keys, key ∈ freeFields) :
    fields.keys.any addressNames.contains = fields.has "asset_id" := by
  rw [Bool.eq_iff_iff, OrderedMap.has_iff, List.any_eq_true]
  constructor
  · rintro ⟨key, hkey, haddress⟩
    have hfixed : ∀ key ∈ freeFields, addressNames.contains key = true → key = "asset_id" := by
      decide
    rw [← hfixed key (hfree key hkey) haddress]
    exact hkey
  · exact fun hkey => ⟨_, hkey, by decide⟩

theorem update_named (hfree : ∀ key ∈ fields.keys, key ∈ freeFields)
    (hname : fields.has "asset_id" = true) : update id fields c w = (.error .wrongType, w) := by
  rw [update, any_addressNames hfree, if_pos hname, fail_run]

/-- A change that can be made is made to the one row. -/
theorem update_run (hfree : ∀ key ∈ fields.keys, key ∈ freeFields)
    (hname : fields.has "asset_id" = false) (ha : w.store.asset? id = some a) :
    update id fields c w = match a.withFields fields c.now with
      | .ok a' => (.ok a', { w with store := w.store.putAsset a' })
      | .error e => (.error e, w) := by
  have hfind : find id c w = (.ok a, w) := find_eq_ok.2 ⟨ha, rfl⟩
  rw [update, any_addressNames hfree, if_neg (by rw [hname]; exact Bool.false_ne_true), bind_eq,
    andThen_of_ok hfind, checkFields_of_free hfree]
  simp only [bind_eq, ofExcept_ok_andThen, now_andThen]
  cases a.withFields fields c.now with
  | ok a' => rfl
  | error e => rfl

end Update

end Asset

/-! ## Quantities that the column shows -/

/-- Every quantity is one that its column shows. -/
def Store.ShowsQuantities (s : Store) : Prop :=
  ∀ a ∈ s.assets, ∃ d, Column.numeric Column.moneyPlaces d = .ok (some a.quantity)

theorem Store.ShowsQuantities.of_kept {s s' : Store} (h : s.ShowsQuantities)
    (hkept : s.KeepsQuantities s') : s'.ShowsQuantities := by
  intro a' ha'
  obtain ⟨a, ha, -, -, hquantity⟩ := hkept a' ha'
  rw [hquantity]
  exact h a ha

theorem World.showsQuantities_called (w : World) (k : Call) (h : w.store.ShowsQuantities) :
    (w.called k).store.ShowsQuantities := by
  rw [World.called]
  rcases hrun : transaction k.operation.action k.context w with ⟨f | u, w'⟩
  · rw [store_of_transaction_error hrun]
    exact h
  · have hok := transaction_eq_ok.1 hrun
    by_cases hwrites : k.operation.WritesQuantity
    · intro a' ha'
      cases hop : k.operation <;> rw [hop] at hok hwrites <;> try exact hwrites.elim
      case createAsset vaultId draft =>
        obtain ⟨a, hcreate⟩ := discarded_eq_ok.1 hok
        obtain ⟨-, hw⟩ := Asset.create_ok hcreate
        rw [hw] at ha'
        rcases mem_added ha' with hold | rfl
        · exact h a' hold
        · exact ⟨_, (Asset.quantity_of_create hcreate).2⟩
      case updateAsset id fields =>
        obtain ⟨changed, hupdate⟩ := discarded_eq_ok.1 hok
        obtain ⟨a, hfound, -, hw, hquantity⟩ := Asset.quantity_of_update hupdate
        rw [hw] at ha'
        obtain ⟨b, hb, rfl⟩ := List.mem_map.1 ha'
        split
        · rcases hquantity with hsame | ⟨j, d, -, -, hshown⟩
          · rw [hsame]
            exact h a (List.mem_of_find?_eq_some hfound)
          · exact ⟨d, hshown⟩
        · exact h b hb
    · exact h.of_kept (Operation.keepsQuantities_of_ok hok hwrites)

theorem Store.Reached.showsQuantities {s : Store} (h : s.Reached) : s.ShowsQuantities :=
  h.invariant (fun _ ha => absurd ha List.not_mem_nil) World.showsQuantities_called

/-! ## Answers -/

namespace Asset

/-- Whether an answer can show an asset: its quantity is finite, and its metadata is nothing
or an object of finite numbers. -/
def CanBeShown (a : Asset) : Prop :=
  a.quantity.isFinite = true ∧ (a.metadata = .null ∨ ∃ entries, a.metadata = .obj entries) ∧
    a.metadata.allFinite = true

theorem shownReply_of_canBeShown {a : Asset} (h : a.CanBeShown) (status : Nat) :
    ∃ body, Representation.asset a = .ok body ∧
      Http.shownReply status (Representation.asset a) = .content status body := by
  obtain ⟨hquantity, hmetadata, hfinite⟩ := h
  have hshown : Representation.objectDocument a.metadata = .ok a.metadata := by
    rcases hmetadata with hnull | ⟨entries, hobject⟩
    · rw [hnull]; rfl
    · rw [hobject]; rfl
  have htext {α : Type} (toJson : α → Json) (x : Option α)
      (htoJson : ∀ a, (toJson a).allFinite = true) : (Json.ofOption toJson x).allFinite = true := by
    cases x with
    | none => rfl
    | some a => exact htoJson a
  have hbody : ∃ body, Representation.asset a = .ok body ∧ body.allFinite = true := by
    refine ⟨_, by rw [Representation.asset, Representation.decimal, if_pos hquantity, hshown]; rfl,
      ?_⟩
    simp [Json.allFinite, Json.entriesFinite, hfinite, Uuid.toJson, Choice.toJson,
      Representation.date, Representation.optionalDate, Representation.optionalText, htext,
      htext .str a.addedBy fun _ => rfl]
  obtain ⟨body, hbody, hfinite⟩ := hbody
  refine ⟨body, hbody, ?_⟩
  rw [hbody, Http.shownReply]
  exact if_pos hfinite

theorem shownReply_of_not_canBeShown {a : Asset} (h : ¬ a.CanBeShown) (status : Nat) :
    Http.shownReply status (Representation.asset a) = .internal := by
  cases hasset : Representation.asset a with
  | error e => rfl
  | ok body =>
      refine if_neg fun hfinite => h ?_
      simp only [Representation.asset, bind_eq_ok, pure_eq_ok] at hasset
      obtain ⟨quantity, hquantity, metadata, hmetadata, rfl⟩ := hasset
      have hsame : metadata = a.metadata ∧
          (a.metadata = .null ∨ ∃ entries, a.metadata = .obj entries) := by
        cases hkind : a.metadata <;> rw [hkind] at hmetadata <;> cases hmetadata <;> simp
      refine ⟨?_, hsame.2, ?_⟩
      · by_contra hinfinite
        rw [Representation.decimal, if_neg hinfinite] at hquantity
        cases hquantity
      · rw [← hsame.1]
        simp only [Json.allFinite, Json.entriesFinite, Bool.and_eq_true] at hfinite
        exact hfinite.2.2.2.2.2.2.2.2.2.2.2.2.1

end Asset

/-- A row is replaced where it stands. -/
theorem Store.putAsset_of_mem {s : Store} {a a' : Asset} (hs : s.Numbered) (ha : a ∈ s.assets)
    (hid : a'.id = a.id) : ∃ before after, s.assets = before ++ a :: after ∧
      s.putAsset a' = { s with assets := before ++ a' :: after } := by
  obtain ⟨before, after, hsplit⟩ := List.append_of_mem ha
  have hdistinct := hs.assets.distinct
  rw [hsplit, List.map_append, List.map_cons, List.nodup_append, List.nodup_cons] at hdistinct
  obtain ⟨-, ⟨hafter, -⟩, hbefore⟩ := hdistinct
  have hkept (rows : List Asset) (h : ∀ b ∈ rows, b.id ≠ a'.id) :
      rows.map (fun b => if b.id = a'.id then a' else b) = rows := by
    conv_rhs => rw [← List.map_id rows]
    exact List.map_congr_left fun b hb => if_neg (h b hb)
  refine ⟨before, after, hsplit, ?_⟩
  rw [putAsset, hsplit, List.map_append, List.map_cons, if_pos hid.symm, hkept, hkept]
  · intro b hb hsame
    exact hafter (List.mem_map.2 ⟨b, hb, hsame.trans hid⟩)
  · intro b hb hsame
    exact hbefore _ (List.mem_map_of_mem hb) _ List.mem_cons_self (hsame.trans hid)

/-- An accepted change of an asset is made to the row that the path names. -/
theorem Http.handle_updateAsset {r : Request} {text : String} {id : Uuid} {j : Json}
    {change : Uuid → Action Asset} (path' : String) (path : pathId "asset_id" text = .valid id)
    (body : r.content = .value j) (hchange : Body.assetChange bodyPlace j = .valid change) :
    handle { r with path := path' } (.updateAsset text) =
      perform 200 Representation.asset badValues (.valid (change id)) := by
  have hinput : withBody { r with path := path' } (pathId "asset_id" text) Body.assetChange =
      .valid (change id) :=
    withBody_eq_valid.2 ⟨id, j, _, path, body, hchange, rfl⟩
  rw [handle, submit, hinput]

namespace Sample

/-- A vault with one asset. -/
def assetRecorded : World :=
  World.served {} [newVault, newAsset "\x7b\"policy_id\": \"policy\", \"asset_id\": \"token\"\x7d"]

/-- A change of the asset. -/
def changing (body : String) : Arrival :=
  arrival 3 .patch "/admin/v1/assets/3c6ef362-0000-4000-8000-000000000002" body

/-- The change of two fields. -/
def twoFields : String := "\x7b\"quantity\": 2, \"added_by\": \"bob\"\x7d"

/-- The change of the asset's name. -/
def nameAlone : String := "\x7b\"asset_id\": \"0011\"\x7d"

end Sample

end VaultGovernance
