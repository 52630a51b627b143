import VaultGovernance.Proofs.Conversion

/-!
# VaultGovernance.Proofs.InPlace

Normalizing a claim where it stands.  The steps write one column after the other, and
nothing takes a write back, so that a failure leaves a claim as it was has to come from
their order: `Claim.inPlace_eq` shows that all of them, taken together, are one step from
the amounts before to the amounts after, or none.  What that step does to a column is
`Claim.Filled`.
-/

namespace VaultGovernance

namespace Claim

variable {claimId : Json} {a b : Amounts}

/-! ## Filling a column -/

/-- A column before and after a legacy value was moved into it.  It keeps a value that it
had, and a null value leaves it empty. -/
inductive Filled {α : Type} (convert : Json → Except Fault α) (legacy : Json) :
    Option α → Option α → Prop
  | kept (a : α) : Filled convert legacy (some a) (some a)
  | empty (absent : legacy = .null) : Filled convert legacy none none
  | converted (a : α) (present : legacy ≠ .null) (read : convert legacy = .ok a) :
      Filled convert legacy none (some a)

section Column

variable {α : Type} {convert : Json → Except Fault α} {legacy : Json} {column filled : Option α}

theorem fillColumn_eq_ok_iff :
    fillColumn column legacy convert = .ok filled ↔ Filled convert legacy column filled := by
  constructor
  · intro h
    rcases column with _ | a
    · rw [fillColumn] at h
      split at h
      · next hnull =>
        obtain rfl := Except.ok.inj h
        exact .empty (Json.isNull_iff.1 hnull)
      · next hvalue =>
        rcases hread : convert legacy with e | a
        · rw [hread] at h
          cases h
        · rw [hread] at h
          obtain rfl := Except.ok.inj h
          exact .converted a (fun hnull => hvalue (Json.isNull_iff.2 hnull)) hread
    · obtain rfl := Except.ok.inj h
      exact .kept a
  · rintro (a | hnull | ⟨a, hvalue, hread⟩)
    · rfl
    · exact if_pos (Json.isNull_iff.2 hnull)
    · rw [fillColumn, if_neg fun hnull => hvalue (Json.isNull_iff.1 hnull), hread]
      rfl

/-- Filling fails only where an empty column is to take a value that is not null. -/
theorem fillColumn_eq_error_iff {e : Fault} :
    fillColumn column legacy convert = .error e ↔
      column = none ∧ legacy ≠ .null ∧ convert legacy = .error e := by
  rcases column with _ | a
  · rw [fillColumn]
    split
    · next hnull => simp [Json.isNull_iff.1 hnull]
    · next hvalue =>
      have hne : legacy ≠ .null := fun hnull => hvalue (Json.isNull_iff.2 hnull)
      cases convert legacy <;> simp [hne, Except.map]
  · simp [fillColumn]

end Column

/-! ## One step -/

/-- The amounts before and after their legacy values were moved. -/
structure Moved (claimId : Json) (a b : Amounts) : Prop where
  object : ∃ entries, a.metadata = .obj entries
  present : carriesLegacy a.metadata = true
  lovelace : Filled (lovelaceOfLegacy claimId) (a.metadata.field adaAmountKey)
    a.lovelaceAmount b.lovelaceAmount
  multiplier : Filled (multiplierOfLegacy claimId) (a.metadata.field multiplierKey)
    a.multiplier b.multiplier
  metadata : b.metadata = withoutLegacy a.metadata

/-- The first conversion that fails: that of the amount, or that of the multiplier where the
amount was converted. -/
inductive ConversionFails (claimId : Json) (a : Amounts) (e : Fault) : Prop
  | amount (column : a.lovelaceAmount = none) (present : a.metadata.field adaAmountKey ≠ .null)
      (fails : lovelaceOfLegacy claimId (a.metadata.field adaAmountKey) = .error e)
  | multiplier (lovelace : Option Int)
      (succeeds : Filled (lovelaceOfLegacy claimId) (a.metadata.field adaAmountKey)
        a.lovelaceAmount lovelace)
      (column : a.multiplier = none) (present : a.metadata.field multiplierKey ≠ .null)
      (fails : multiplierOfLegacy claimId (a.metadata.field multiplierKey) = .error e)

/-- Why moving the values fails: the keys cannot be looked for, or one is found in metadata that
are no object, or a value cannot be converted. -/
inductive MovingFails (claimId : Json) (a : Amounts) : Fault → Prop
  | unsearchable (hidden : isSearchable a.metadata = false) : MovingFails claimId a .wrongType
  | uncopied {e : Fault} (present : carriesLegacy a.metadata = true)
      (fails : makeObject a.metadata = .error e) : MovingFails claimId a e
  | unconverted {e : Fault} (object : ∃ entries, a.metadata = .obj entries)
      (present : carriesLegacy a.metadata = true) (fails : ConversionFails claimId a e) :
      MovingFails claimId a e

/-- The values of an object with a legacy key are converted one after the other. -/
theorem normalizeAmounts_of_present (hobject : ∃ entries, a.metadata = .obj entries)
    (hpresent : carriesLegacy a.metadata = true) : normalizeAmounts claimId a = do
      let lovelace ←
        fillColumn a.lovelaceAmount (a.metadata.field adaAmountKey) (lovelaceOfLegacy claimId)
      let multiplier ←
        fillColumn a.multiplier (a.metadata.field multiplierKey) (multiplierOfLegacy claimId)
      return some ⟨lovelace, multiplier, withoutLegacy a.metadata⟩ := by
  have hfound := findLegacy_eq_ok_iff.2 ⟨isSearchable_of_carriesLegacy hpresent, hpresent⟩
  have hmade := (makeObject_eq_ok_iff hpresent).2 hobject
  rw [normalizeAmounts, hfound]
  change (do makeObject a.metadata; _) = _
  rw [hmade]
  rfl

theorem normalizeAmounts_eq_some_iff :
    normalizeAmounts claimId a = .ok (some b) ↔ Moved claimId a b := by
  constructor
  · intro h
    obtain ⟨entries, hentries, hpresent, -⟩ := exists_of_normalizeAmounts h
    rw [normalizeAmounts_of_present ⟨entries, hentries⟩ hpresent] at h
    simp only [bind_eq_ok, pure_eq_ok, Option.some.injEq] at h
    obtain ⟨lovelace, hlovelace, multiplier, hmultiplier, rfl⟩ := h
    exact ⟨⟨entries, hentries⟩, hpresent, fillColumn_eq_ok_iff.1 hlovelace,
      fillColumn_eq_ok_iff.1 hmultiplier, rfl⟩
  · rintro ⟨hobject, hpresent, hlovelace, hmultiplier, hmetadata⟩
    obtain ⟨lovelace, multiplier, metadata⟩ := b
    obtain rfl : metadata = _ := hmetadata
    rw [normalizeAmounts_of_present hobject hpresent, fillColumn_eq_ok_iff.2 hlovelace,
      fillColumn_eq_ok_iff.2 hmultiplier]
    rfl

/-- Conversions that fail are those of a value that fills an empty column. -/
theorem conversionFails_iff {e : Fault} : ConversionFails claimId a e ↔
    (do
      let lovelace ←
        fillColumn a.lovelaceAmount (a.metadata.field adaAmountKey) (lovelaceOfLegacy claimId)
      let multiplier ←
        fillColumn a.multiplier (a.metadata.field multiplierKey) (multiplierOfLegacy claimId)
      return some ⟨lovelace, multiplier, withoutLegacy a.metadata⟩ :
        Except Fault (Option Amounts)) = .error e := by
  simp only [bind_eq_error, fillColumn_eq_error_iff, fillColumn_eq_ok_iff]
  constructor
  · rintro (⟨hcolumn, hvalue, hfails⟩ | ⟨lovelace, hfilled, hcolumn, hvalue, hfails⟩)
    · exact .inl ⟨hcolumn, hvalue, hfails⟩
    · exact .inr ⟨lovelace, hfilled, .inl ⟨hcolumn, hvalue, hfails⟩⟩
  · rintro (⟨hcolumn, hvalue, hfails⟩ | ⟨lovelace, hfilled, hmultiplier⟩)
    · exact .amount hcolumn hvalue hfails
    · rcases hmultiplier with ⟨hcolumn, hvalue, hfails⟩ | ⟨_, -, hpure⟩
      · exact .multiplier lovelace hfilled hcolumn hvalue hfails
      · cases hpure

theorem normalizeAmounts_eq_error_iff {e : Fault} :
    normalizeAmounts claimId a = .error e ↔ MovingFails claimId a e := by
  rw [normalizeAmounts, bind_eq_error]
  constructor
  · rintro (hfails | ⟨found, hfound, h⟩)
    · obtain ⟨hhidden, rfl⟩ := findLegacy_eq_error_iff.1 hfails
      exact .unsearchable hhidden
    · obtain ⟨-, hpresent⟩ := findLegacy_eq_ok_iff.1 hfound
      cases found with
      | false => cases h
      | true =>
          rcases bind_eq_error.1 h with hcopy | ⟨_, hmade, hrest⟩
          · exact .uncopied hpresent hcopy
          · exact .unconverted ((makeObject_eq_ok_iff hpresent).1 hmade) hpresent
              (conversionFails_iff.2 hrest)
  · have hfound (h : carriesLegacy a.metadata = true) : findLegacy a.metadata = .ok true :=
      findLegacy_eq_ok_iff.2 ⟨isSearchable_of_carriesLegacy h, h⟩
    intro h
    cases h with
    | unsearchable hidden => exact .inl (findLegacy_eq_error_iff.2 ⟨hidden, rfl⟩)
    | uncopied present fails => exact .inr ⟨true, hfound present, bind_eq_error.2 (.inl fails)⟩
    | unconverted object present fails =>
        exact .inr ⟨true, hfound present, bind_eq_error.2
          (.inr ⟨(), (makeObject_eq_ok_iff present).2 object, conversionFails_iff.1 fails⟩)⟩

/-- Moving takes the two keys away and keeps the entries at all others. -/
theorem get?_withoutLegacy {metadata : Json} {key : String} (hamount : key ≠ adaAmountKey)
    (hmultiplier : key ≠ multiplierKey) :
    (withoutLegacy metadata).entries.get? key = metadata.entries.get? key := by
  change ((metadata.entries.remove adaAmountKey).remove multiplierKey).get? key = _
  rw [OrderedMap.get?_remove, if_neg hmultiplier.symm, OrderedMap.get?_remove,
    if_neg hamount.symm]

theorem entries_withoutLegacy (metadata : Json) :
    (withoutLegacy metadata).entries =
      metadata.entries.filter fun e => e.1 ≠ adaAmountKey ∧ e.1 ≠ multiplierKey := by
  change (metadata.entries.remove adaAmountKey).remove multiplierKey = _
  rw [OrderedMap.remove, OrderedMap.remove, List.filter_filter]
  refine List.filter_congr fun e _ => ?_
  simp [Bool.and_comm]

/-! ## In place -/

/-- The result of normalizing a claim where it stands, and its amounts afterwards. -/
def inPlace (claimId : Json) (a : Amounts) : Except Fault Bool × Amounts :=
  (normalizeInPlace claimId).run.run a

section Steps

variable {α β : Type}

/-- The first step reads the amounts. -/
theorem run_get_bind (k : Amounts → Edit β) :
    ((MonadState.get : Edit Amounts) >>= k).run.run a = (k a).run.run a := rfl

/-- A conversion goes on with its value, or fails where it stands. -/
theorem run_ofExcept_bind (r : Except Fault α) (k : α → Edit β) :
    ((MonadExcept.ofExcept r : Edit α) >>= k).run.run a =
      match r with
      | .ok x => (k x).run.run a
      | .error e => (.error e, a) := by
  cases r <;> rfl

/-- A write is there for the steps behind it. -/
theorem run_modify_bind (f : Amounts → Amounts) (k : PUnit → Edit β) :
    ((modify f : Edit PUnit) >>= k).run.run a = (k ⟨⟩).run.run (f a) := rfl

end Steps

/-- The writes, one after the other, make one step: where normalizing fails, none of them
has been made. -/
theorem inPlace_eq (claimId : Json) (a : Amounts) :
    inPlace claimId a =
      match normalizeAmounts claimId a with
      | .ok none => (.ok false, a)
      | .ok (some b) => (.ok true, b)
      | .error e => (.error e, a) := by
  rw [inPlace, normalizeInPlace, run_get_bind, run_ofExcept_bind, normalizeAmounts]
  rcases findLegacy a.metadata with e | _ | _
  · rfl
  · rfl
  · simp only [if_true, run_ofExcept_bind]
    rcases makeObject a.metadata with e | _
    · rfl
    · rcases fillColumn a.lovelaceAmount (a.metadata.field adaAmountKey)
        (lovelaceOfLegacy claimId) with e | lovelace
      · rfl
      · rcases fillColumn a.multiplier (a.metadata.field multiplierKey)
          (multiplierOfLegacy claimId) with e | multiplier
        · rfl
        · simp only [run_modify_bind]
          rfl

/-! ## Three ways to end -/

/-- There is no legacy key, and nothing is done. -/
structure LeftAlone (claimId : Json) (a : Amounts) : Prop where
  absent : carriesLegacy a.metadata = false
  run : inPlace claimId a = (.ok false, a)

/-- The legacy values were moved: the legacy keys are gone, all other entries are as they
were, and a second time nothing is done. -/
structure MovedTo (claimId : Json) (a b : Amounts) : Prop extends Moved claimId a b where
  run : inPlace claimId a = (.ok true, b)
  entries : b.metadata.entries =
    a.metadata.entries.filter fun e => e.1 ≠ adaAmountKey ∧ e.1 ≠ multiplierKey
  others : ∀ key, key ≠ adaAmountKey → key ≠ multiplierKey →
    b.metadata.entries.get? key = a.metadata.entries.get? key
  again : inPlace claimId b = (.ok false, b)

/-- There is a legacy key and one of the conversions fails.  Columns and metadata are as they
were, also where the first conversion succeeded. -/
structure RaisedBy (claimId : Json) (a : Amounts) (e : Fault) : Prop where
  present : carriesLegacy a.metadata = true
  run : inPlace claimId a = (.error e, a)
  cause : ConversionFails claimId a e

/-- Without a legacy key there is nothing to do. -/
theorem inPlace_of_absent (hsearchable : isSearchable a.metadata = true)
    (h : carriesLegacy a.metadata = false) : inPlace claimId a = (.ok false, a) := by
  rw [inPlace_eq, normalizeAmounts_eq_none_iff.2 ⟨hsearchable, h⟩]

theorem Moved.movedTo (h : Moved claimId a b) : MovedTo claimId a b where
  toMoved := h
  run := by rw [inPlace_eq, normalizeAmounts_eq_some_iff.2 h]
  entries := by rw [h.metadata, entries_withoutLegacy]
  others key hamount hmultiplier := by rw [h.metadata, get?_withoutLegacy hamount hmultiplier]
  again := inPlace_of_absent (h.metadata ▸ rfl) (h.metadata ▸ carriesLegacy_withoutLegacy _)

/-- One of the three it is, where the metadata are an object or missing. -/
theorem inPlace_cases (claimId : Json) {entries : Option (OrderedMap Json)}
    (hmetadata : a.metadata = Json.ofOption .obj entries) :
    LeftAlone claimId a ∨ (∃ b, MovedTo claimId a b) ∨ ∃ e, RaisedBy claimId a e := by
  have hsearchable : isSearchable a.metadata = true := hmetadata ▸ isSearchable_ofOption entries
  rcases hrun : normalizeAmounts claimId a with e | _ | b
  · have hkept : inPlace claimId a = (.error e, a) := by rw [inPlace_eq, hrun]
    cases normalizeAmounts_eq_error_iff.1 hrun with
    | unsearchable hidden => cases hsearchable.symm.trans hidden
    | uncopied present fails =>
        cases entries with
        | none =>
            rw [hmetadata] at present
            cases present
        | some entries =>
            rw [hmetadata] at fails
            cases fails
    | unconverted _ present fails => exact .inr (.inr ⟨e, present, hkept, fails⟩)
  · obtain ⟨-, habsent⟩ := normalizeAmounts_eq_none_iff.1 hrun
    exact .inl ⟨habsent, inPlace_of_absent hsearchable habsent⟩
  · exact .inr (.inl ⟨b, (normalizeAmounts_eq_some_iff.1 hrun).movedTo⟩)

theorem LeftAlone.not_movedTo (h : LeftAlone claimId a) : ¬ ∃ b, MovedTo claimId a b := by
  rintro ⟨b, hb⟩
  cases h.run.symm.trans hb.run

theorem LeftAlone.not_raisedBy (h : LeftAlone claimId a) : ¬ ∃ e, RaisedBy claimId a e := by
  rintro ⟨e, he⟩
  cases h.run.symm.trans he.run

theorem MovedTo.not_raisedBy (h : MovedTo claimId a b) : ¬ ∃ e, RaisedBy claimId a e := by
  rintro ⟨e, he⟩
  cases h.run.symm.trans he.run

end Claim

/-- Normalizing a claim where it stands, whatever its columns hold and whatever its metadata,
if there are any, comes to exactly one of three things: it does nothing, it moves the legacy
values, or it fails and leaves everything as it was. -/
theorem normalization_moves_all_or_nothing (claimId : Json) (lovelaceAmount : Option Int)
    (multiplier : Option Decimal) (entries : Option (OrderedMap Json)) :
    let a : Claim.Amounts := ⟨lovelaceAmount, multiplier, Json.ofOption .obj entries⟩
    let done := Claim.LeftAlone claimId a
    let moved := ∃ b, Claim.MovedTo claimId a b
    let raised := ∃ e, Claim.RaisedBy claimId a e
    (done ∧ ¬ moved ∧ ¬ raised) ∨ (¬ done ∧ moved ∧ ¬ raised) ∨ (¬ done ∧ ¬ moved ∧ raised) := by
  intro a done moved raised
  rcases Claim.inPlace_cases claimId (a := a) rfl with hdone | ⟨b, hmoved⟩ | hraised
  · exact .inl ⟨hdone, hdone.not_movedTo, hdone.not_raisedBy⟩
  · exact .inr (.inl ⟨fun hdone => hdone.not_movedTo ⟨b, hmoved⟩, ⟨b, hmoved⟩,
      hmoved.not_raisedBy⟩)
  · exact .inr (.inr ⟨fun hdone => hdone.not_raisedBy hraised,
      fun ⟨_, hmoved⟩ => hmoved.not_raisedBy hraised, hraised⟩)

/-- The amount is a number and the multiplier is none: the amount is not written either. -/
example :
    let a : Claim.Amounts := ⟨none, none,
      .obj [(Claim.adaAmountKey, .str "3"), (Claim.multiplierKey, .str "x"), ("note", .null)]⟩
    Claim.inPlace .null a =
      (.error (Claim.invalidAmount .null Claim.multiplierKey (.str "x")), a) := by
  intro a
  rw [Claim.inPlace_eq]
  decide +kernel

end VaultGovernance
