import VaultGovernance.Proofs.Backfill
import VaultGovernance.Proofs.InPlace
import VaultGovernance.Proofs.Lovelace

/-!
# VaultGovernance.Proofs.Spoiling

Which claims spoil a full backfill.  A claim without a legacy key is left alone, a claim
with a value that is no number is reported and left alone, and a claim whose amount is a
number inside the bounds of its column is normalized (`Claim.Fate`).  What remains are
numbers too large for the column and metadata that are no object, and then the backfill
fails as a whole, with the fault of such a claim (`Claim.Spoils`).
-/

namespace VaultGovernance

open VaultGovernance.Action

/-- Claims as their table keeps them: no two have the same identifier, and amounts in their
column fit it. -/
structure Store.ClaimsKept (s : Store) : Prop where
  distinct : (s.claims.map Claim.id).Nodup
  fits : ∀ x ∈ s.claims, ∀ n, x.lovelaceAmount = some n → Column.fitsBigint n = true

namespace Claim

variable {x y : Claim} {a k : Amounts} {key : String} {time : Timestamp}

/-! ## What can go wrong -/

/-- An empty column is to take a legacy value, which denotes no decimal. -/
structure Unreadable {α : Type} (column : Option α) (legacy : Json) : Prop where
  column : column = none
  present : legacy ≠ .null
  unread : ¬ ∃ d, Denotes legacy d

/-- The key under which a claim has a value that is no number; the amount comes first. -/
inductive RefusedFor (x : Claim) : String → Prop
  | amount (h : Unreadable x.lovelaceAmount (x.metadata.field adaAmountKey)) :
      RefusedFor x adaAmountKey
  | multiplier (amountReadable : ¬ Unreadable x.lovelaceAmount (x.metadata.field adaAmountKey))
      (h : Unreadable x.multiplier (x.metadata.field multiplierKey)) :
      RefusedFor x multiplierKey

/-- Why a claim spoils a full backfill, and the fault that comes of it.  Its metadata cannot be
read, or are no value in which a key can be looked for, or carry a key and cannot be copied as
an object; or its amount is to be converted and is a number that does not fit.  Where
arithmetic keeps the product, the claim must get past its multiplier too. -/
inductive Spoils (x : Claim) : Fault → Prop
  | unread {digits : Nat} (long : x.metadata.overlong? = some digits) :
      Spoils x (.badValue (integerLimitMessage digits))
  | unsearchable (shown : x.metadata.canShow = true)
      (hidden : isSearchable x.metadata = false) : Spoils x .wrongType
  | uncopied {e : Fault} (shown : x.metadata.canShow = true)
      (present : carriesLegacy x.metadata = true) (fails : makeObject x.metadata = .error e) :
      Spoils x e
  | beyond {d : Decimal} (shown : x.metadata.canShow = true) (column : x.lovelaceAmount = none)
      (denotes : Denotes (x.metadata.field adaAmountKey) d)
      (limit : d.value * 10 ^ 6 ≤ -productLimit) : Spoils x .decimalOverflow
  | misfits {d : Decimal} (shown : x.metadata.canShow = true) (column : x.lovelaceAmount = none)
      (denotes : Denotes (x.metadata.field adaAmountKey) d)
      (inside : -productLimit < d.value * 10 ^ 6) (large : ¬ FitsColumn d.value)
      (readable : ¬ Unreadable x.multiplier (x.metadata.field multiplierKey)) :
      Spoils x .outOfRange

/-- What a full backfill makes of a claim where nothing spoils it: a claim without a legacy
key and one that is refused stay as they are, the latter is reported, and the others are
normalized and kept. -/
inductive Backfilled (time : Timestamp) (errors : List BackfillError) : Claim → Claim → Prop
  | clean {x : Claim} (absent : x.needsNormalization = false)
      (unreported : ∀ e ∈ errors, e.claimId ≠ x.id) : Backfilled time errors x x
  | refused {x : Claim} (key : String) (cause : x.RefusedFor key)
      (reported : ⟨x.id, .invalidClaimAmount x.id.toJson key (x.metadata.field key)⟩ ∈ errors) :
      Backfilled time errors x x
  | normalized {x y : Claim} (a : Amounts) (moved : Moved x.id.toJson x.amounts a)
      (stored : x.withAmounts a time = .ok y) (unreported : ∀ e ∈ errors, e.claimId ≠ x.id) :
      Backfilled time errors x y

/-- Null denotes no decimal. -/
theorem Denotes.ne_null {j : Json} {d : Decimal} (h : Denotes j d) : j ≠ .null := by
  rintro rfl
  have hnone : legacyNumber? .null = none := by decide +kernel
  exact legacyNumber?_eq_none_iff.1 hnone ⟨d, h⟩

/-- A field that is not null is one of an object, and is there. -/
theorem exists_entries_of_field_ne_null {metadata : Json} (h : metadata.field key ≠ .null) :
    ∃ entries, metadata = .obj entries ∧ holdsKey key metadata = true := by
  cases metadata with
  | obj entries =>
      refine ⟨entries, rfl, ?_⟩
      rw [holdsKey, OrderedMap.has, Option.isSome_iff_ne_none]
      intro hnone
      exact h (by rw [Json.field, Json.entries, hnone]; rfl)
  | _ => exact absurd rfl h

/-- A claim with a legacy value that is not null has an object for metadata and carries the
key. -/
theorem carries_of_field_ne_null (h : x.metadata.field adaAmountKey ≠ .null ∨
    x.metadata.field multiplierKey ≠ .null) :
    (∃ entries, x.metadata = .obj entries) ∧ carriesLegacy x.metadata = true := by
  rw [carriesLegacy, Bool.or_eq_true]
  rcases h with h | h
  · obtain ⟨entries, hentries, hkey⟩ := exists_entries_of_field_ne_null h
    exact ⟨⟨entries, hentries⟩, .inl hkey⟩
  · obtain ⟨entries, hentries, hkey⟩ := exists_entries_of_field_ne_null h
    exact ⟨⟨entries, hentries⟩, .inr hkey⟩

/-- The values in metadata that can be shown can be shown. -/
theorem canShow_field {metadata : Json} (h : metadata.canShow = true) (key : String) :
    (metadata.field key).canShow = true := by
  rw [Json.field]
  cases hfound : metadata.entries.get? key with
  | none => rfl
  | some value =>
      cases metadata with
      | obj entries => exact Json.canShow_obj_iff.1 h _ (OrderedMap.mem_of_get? hfound)
      | _ => cases hfound

/-- A refusal of a claim that was read names the value. -/
theorem invalidAmount_of_shown (h : x.metadata.canShow = true) (key : String) :
    invalidAmount x.id.toJson key (x.metadata.field key) =
      .refusal (.invalidClaimAmount x.id.toJson key (x.metadata.field key)) :=
  invalidAmount_of_canShow rfl (canShow_field h key)

theorem multiplierOfLegacy_eq_error_iff {claimId j : Json} {e : Fault} :
    multiplierOfLegacy claimId j = .error e ↔
      (¬ ∃ d, Denotes j d) ∧ e = invalidAmount claimId multiplierKey j := by
  rw [← legacyNumber?_eq_none_iff, multiplierOfLegacy]
  cases legacyNumber? j <;> simp [eq_comm]

theorem multiplierOfLegacy_eq_ok_iff {claimId j : Json} {d : Decimal} :
    multiplierOfLegacy claimId j = .ok d ↔ Denotes j d := by
  rw [← legacyNumber?_eq_some_iff, multiplierOfLegacy]
  cases legacyNumber? j <;> simp

/-! ## The two conversions -/

/-- A number that arithmetic keeps and that does not fit is converted to an integer that does not
fit. -/
theorem lovelaceOfLegacy_misfit {claimId j : Json} {d : Decimal} (hd : Denotes j d)
    (inside : -productLimit < d.value * 10 ^ 6) (large : ¬ FitsColumn d.value) :
    ∃ n, lovelaceOfLegacy claimId j = .ok n ∧ Column.fitsBigint n = false := by
  obtain ⟨negative, c, exponent, rfl⟩ := hd.exists_finite
  rw [lovelaceOfLegacy_of_denotes hd]
  rcases hnumber : lovelaceOfNumber (.finite negative c exponent) with e | n
  · exact absurd (lovelaceOfNumber_eq_error_iff.1 hnumber).2 (not_le.2 inside)
  · refine ⟨n, rfl, ?_⟩
    rw [← Bool.not_eq_true]
    exact fun hfit => large (lovelaceOfNumber_fits_iff.1 ⟨n, hnumber, hfit⟩)

/-- What the amount of a claim comes to. -/
inductive AmountFate (x : Claim) : Prop
  | unreadable (h : Unreadable x.lovelaceAmount (x.metadata.field adaAmountKey))
  | beyond (d : Decimal) (column : x.lovelaceAmount = none)
      (denotes : Denotes (x.metadata.field adaAmountKey) d)
      (limit : d.value * 10 ^ 6 ≤ -productLimit)
  | misfits (d : Decimal) (n : Int) (column : x.lovelaceAmount = none)
      (denotes : Denotes (x.metadata.field adaAmountKey) d)
      (inside : -productLimit < d.value * 10 ^ 6) (large : ¬ FitsColumn d.value)
      (read : lovelaceOfLegacy x.id.toJson (x.metadata.field adaAmountKey) = .ok n)
  | fits (l : Option Int)
      (filled : Filled (lovelaceOfLegacy x.id.toJson) (x.metadata.field adaAmountKey)
        x.lovelaceAmount l)
      (fits : ∀ n, l = some n → Column.fitsBigint n = true)

theorem amountFate (hfits : ∀ n, x.lovelaceAmount = some n → Column.fitsBigint n = true) :
    x.AmountFate := by
  rcases hcolumn : x.lovelaceAmount with _ | n
  · by_cases hnull : x.metadata.field adaAmountKey = .null
    · exact .fits none (by rw [hcolumn]; exact .empty hnull) (by simp)
    by_cases hread : ∃ d, Denotes (x.metadata.field adaAmountKey) d
    · obtain ⟨d, hd⟩ := hread
      by_cases hlimit : d.value * 10 ^ 6 ≤ -productLimit
      · exact .beyond d hcolumn hd hlimit
      by_cases hinside : FitsColumn d.value
      · obtain ⟨negative, c, exponent, rfl⟩ := hd.exists_finite
        obtain ⟨n, hn, hfit⟩ := lovelaceOfNumber_fits_iff.2 hinside
        have hconverted : lovelaceOfLegacy x.id.toJson (x.metadata.field adaAmountKey) = .ok n :=
          (lovelaceOfLegacy_of_denotes hd).trans hn
        exact .fits (some n) (by rw [hcolumn]; exact .converted n hnull hconverted)
          fun m hm => Option.some.inj hm ▸ hfit
      · obtain ⟨n, hn, -⟩ := lovelaceOfLegacy_misfit hd (not_le.1 hlimit) hinside
        exact .misfits d n hcolumn hd (not_le.1 hlimit) hinside hn
    · exact .unreadable ⟨hcolumn, hnull, hread⟩
  · exact .fits (some n) (by rw [hcolumn]; exact .kept n) fun m hm =>
      Option.some.inj hm ▸ hfits n hcolumn

/-- A multiplier is no number, or it fills its column. -/
theorem multiplier_cases (x : Claim) :
    Unreadable x.multiplier (x.metadata.field multiplierKey) ∨
      ∃ m, Filled (multiplierOfLegacy x.id.toJson) (x.metadata.field multiplierKey)
        x.multiplier m := by
  rcases hcolumn : x.multiplier with _ | m
  · by_cases hnull : x.metadata.field multiplierKey = .null
    · exact .inr ⟨none, .empty hnull⟩
    by_cases hread : ∃ d, Denotes (x.metadata.field multiplierKey) d
    · obtain ⟨d, hd⟩ := hread
      exact .inr ⟨some d, .converted d hnull (multiplierOfLegacy_eq_ok_iff.2 hd)⟩
    · exact .inl ⟨rfl, hnull, hread⟩
  · exact .inr ⟨some m, .kept m⟩

theorem exists_denotes_of_lovelaceOfLegacy {claimId j : Json} {n : Int}
    (h : lovelaceOfLegacy claimId j = .ok n) : ∃ d, Denotes j d := by
  by_contra hunread
  rw [lovelaceOfLegacy_of_not_denotes hunread] at h
  cases h

/-- A value that was filled in was not unreadable. -/
theorem Filled.not_unreadable {α : Type} {convert : Json → Except Fault α} {j : Json}
    {column filled : Option α} (h : Filled convert j column filled)
    (hread : ∀ a, convert j = .ok a → ∃ d, Denotes j d) : ¬ Unreadable column j := by
  rintro ⟨hcolumn, hvalue, hunread⟩
  cases h with
  | kept => cases hcolumn
  | empty hnull => exact hvalue hnull
  | converted a _ ha => exact hunread (hread a ha)

/-! ## Storing the amounts -/

/-- A number that was read is stored, with or without all of its digits. -/
theorem numeric_of_denotes {j : Json} {d : Decimal} (h : Denotes j d) (places : Nat) :
    ∃ m, Column.numeric places d = .ok m := by
  obtain ⟨negative, c, exponent, rfl⟩ := h.exists_finite
  exact ⟨_, rfl⟩

/-- Of amounts that were moved only the integer can be refused by its column. -/
theorem keptAmounts_of_moved (h : Moved x.id.toJson x.amounts a) :
    ∃ m, x.keptAmounts a = (Column.optionalBigint a.lovelaceAmount).map fun l =>
      ⟨l, m, Column.document a.metadata⟩ := by
  have hmultiplier : Filled (multiplierOfLegacy x.id.toJson) (x.metadata.field multiplierKey)
      x.multiplier a.multiplier := h.multiplier
  rw [keptAmounts, withAmounts]
  generalize x.multiplier = old at hmultiplier ⊢
  generalize a.multiplier = new at hmultiplier ⊢
  cases hmultiplier with
  | kept m =>
      refine ⟨some m, ?_⟩
      cases Column.optionalBigint a.lovelaceAmount <;> rfl
  | empty _ =>
      refine ⟨none, ?_⟩
      cases Column.optionalBigint a.lovelaceAmount <;> rfl
  | converted d _ hread =>
      obtain ⟨m, hm⟩ := numeric_of_denotes (multiplierOfLegacy_eq_ok_iff.1 hread)
        Column.multiplierPlaces
      refine ⟨m, ?_⟩
      cases Column.optionalBigint a.lovelaceAmount with
      | error e => rfl
      | ok l =>
          simp only [hm]
          rfl

theorem optionalBigint_of_fits {l : Option Int}
    (h : ∀ n, l = some n → Column.fitsBigint n = true) : Column.optionalBigint l = .ok l := by
  cases l with
  | none => rfl
  | some n => rw [Column.optionalBigint, Column.bigint, if_pos (h n rfl)]; rfl

/-! ## The fate of a claim -/

/-- What normalizing a claim comes to. -/
inductive Fate (x : Claim) : Prop
  | clean (legible : x.Legible) (absent : x.needsNormalization = false)
  | refused (key : String) (cause : x.RefusedFor key)
      (fails : x.conversion =
        .error (.refusal (.invalidClaimAmount x.id.toJson key (x.metadata.field key))))
  | normalized (a k : Amounts) (moved : Moved x.id.toJson x.amounts a)
      (converts : x.conversion = .ok (some a)) (kept : x.keptAmounts a = .ok k)
  | spoils (e : Fault) (spoils : x.Spoils e)

section Shown

variable (hshown : x.metadata.canShow = true)
include hshown

theorem conversion_of_shown : x.conversion = normalizeAmounts x.id.toJson x.amounts :=
  conversion_of_loads (load_eq_ok_iff.2 hshown)

theorem conversion_of_moved (h : Moved x.id.toJson x.amounts a) :
    x.conversion = .ok (some a) :=
  (conversion_of_shown hshown).trans (normalizeAmounts_eq_some_iff.2 h)

/-- A claim whose multiplier is refused, after its amount was filled in. -/
theorem refused_of_multiplier {l : Option Int}
    (hfilled : Filled (lovelaceOfLegacy x.id.toJson) (x.metadata.field adaAmountKey)
      x.lovelaceAmount l)
    (h : Unreadable x.multiplier (x.metadata.field multiplierKey)) : x.Fate := by
  have hamount := hfilled.not_unreadable fun n => exists_denotes_of_lovelaceOfLegacy
  obtain ⟨hobject, hpresent⟩ := carries_of_field_ne_null (.inr h.present)
  refine .refused multiplierKey (.multiplier hamount h) ?_
  rw [conversion_of_shown hshown, normalizeAmounts_eq_error_iff, ← invalidAmount_of_shown hshown]
  exact .unconverted hobject hpresent (.multiplier l hfilled h.column h.present
    (multiplierOfLegacy_eq_error_iff.2 ⟨h.unread, rfl⟩))

/-- The fate of a claim whose metadata are an object with a legacy key. -/
theorem fate_of_present (hobject : ∃ entries, x.metadata = .obj entries)
    (hpresent : carriesLegacy x.metadata = true)
    (hfits : ∀ n, x.lovelaceAmount = some n → Column.fitsBigint n = true) : x.Fate := by
  have hmoved {l : Option Int} {m : Option Decimal}
      (hl : Filled (lovelaceOfLegacy x.id.toJson) (x.metadata.field adaAmountKey)
        x.lovelaceAmount l)
      (hm : Filled (multiplierOfLegacy x.id.toJson) (x.metadata.field multiplierKey)
        x.multiplier m) :
      Moved x.id.toJson x.amounts ⟨l, m, withoutLegacy x.metadata⟩ :=
    ⟨hobject, hpresent, hl, hm, rfl⟩
  cases amountFate hfits with
  | unreadable h =>
      refine .refused adaAmountKey (.amount h) ?_
      rw [conversion_of_shown hshown, normalizeAmounts_eq_error_iff,
        ← invalidAmount_of_shown hshown]
      exact .unconverted hobject hpresent
        (.amount h.column h.present (lovelaceOfLegacy_of_not_denotes h.unread))
  | beyond d column denotes limit => exact .spoils _ (.beyond hshown column denotes limit)
  | misfits d n column denotes inside large read =>
      have filled : Filled (lovelaceOfLegacy x.id.toJson) (x.metadata.field adaAmountKey)
          x.lovelaceAmount (some n) := column ▸ .converted n denotes.ne_null read
      rcases multiplier_cases x with h | ⟨m, hm⟩
      · exact refused_of_multiplier hshown filled h
      · have hmultiplier := hm.not_unreadable fun d hd =>
          ⟨d, multiplierOfLegacy_eq_ok_iff.1 hd⟩
        exact .spoils _ (.misfits hshown column denotes inside large hmultiplier)
  | fits l filled fits =>
      rcases multiplier_cases x with h | ⟨m, hm⟩
      · exact refused_of_multiplier hshown filled h
      · obtain ⟨stored, hkept⟩ := keptAmounts_of_moved (hmoved filled hm)
        rw [optionalBigint_of_fits fits] at hkept
        exact .normalized _ _ (hmoved filled hm)
          (conversion_of_moved hshown (hmoved filled hm)) hkept

end Shown

/-- Every claim has one of these fates. -/
theorem fate (hfits : ∀ n, x.lovelaceAmount = some n → Column.fitsBigint n = true) :
    x.Fate := by
  cases hlong : x.metadata.overlong? with
  | some digits => exact .spoils _ (.unread hlong)
  | none =>
      have hshown : x.metadata.canShow = true := by rw [Json.canShow, hlong]; rfl
      cases hsearchable : isSearchable x.metadata with
      | false => exact .spoils _ (.unsearchable hshown hsearchable)
      | true =>
          cases hneeds : x.needsNormalization with
          | false => exact .clean ⟨load_eq_ok_iff.2 hshown, hsearchable⟩ hneeds
          | true =>
              rcases hmade : makeObject x.metadata with e | _
              · exact .spoils e (.uncopied hshown hneeds hmade)
              · exact fate_of_present hshown ((makeObject_eq_ok_iff hneeds).1 hmade) hneeds hfits

/-- Normalizing a claim that spoils a backfill fails with that fault. -/
theorem Spoils.outcome {e : Fault} (h : x.Spoils e) : x.outcome = .error e := by
  have hconversion (hfails : x.conversion = .error e) : x.outcome = .error e := by
    rw [Claim.outcome, hfails]
  have hmoving (hshown : x.metadata.canShow = true)
      (hfails : MovingFails x.id.toJson x.amounts e) : x.outcome = .error e :=
    hconversion ((conversion_of_shown hshown).trans (normalizeAmounts_eq_error_iff.2 hfails))
  cases h with
  | unread long => exact hconversion (bind_eq_error.2 (.inl (by rw [load, long])))
  | unsearchable shown hidden => exact hmoving shown (.unsearchable hidden)
  | uncopied shown present fails => exact hmoving shown (.uncopied present fails)
  | beyond shown column denotes limit =>
      obtain ⟨hobject, hpresent⟩ := carries_of_field_ne_null (.inl denotes.ne_null)
      obtain ⟨negative, c, exponent, rfl⟩ := denotes.exists_finite
      exact hmoving shown (.unconverted hobject hpresent (.amount column denotes.ne_null
        ((lovelaceOfLegacy_of_denotes denotes).trans
          (lovelaceOfNumber_eq_error_iff.2 ⟨rfl, limit⟩))))
  | @misfits d shown column denotes inside large readable =>
      obtain ⟨hobject, hpresent⟩ := carries_of_field_ne_null (.inl denotes.ne_null)
      obtain ⟨n, hn, hmisfit⟩ : ∃ n, lovelaceOfLegacy x.id.toJson (x.metadata.field adaAmountKey) =
          .ok n ∧ Column.fitsBigint n = false := lovelaceOfLegacy_misfit denotes inside large
      obtain ⟨m, hm⟩ := (multiplier_cases x).resolve_left readable
      have hfilled : Filled (lovelaceOfLegacy x.id.toJson) (x.metadata.field adaAmountKey)
          x.lovelaceAmount (some n) := column ▸ .converted n denotes.ne_null hn
      have hmoved : Moved x.id.toJson x.amounts ⟨some n, m, withoutLegacy x.metadata⟩ :=
        ⟨hobject, hpresent, hfilled, hm, rfl⟩
      obtain ⟨stored, hkept⟩ := keptAmounts_of_moved hmoved
      rw [Column.optionalBigint, Column.bigint, hmisfit] at hkept
      rw [Claim.outcome, conversion_of_moved shown hmoved]
      exact congrArg (Except.map some) hkept

/-- What spoils a backfill is no refusal. -/
theorem Spoils.ne_refusal {e : Fault} (h : x.Spoils e) (d : DomainError) : e ≠ .refusal d := by
  cases h with
  | uncopied _ _ fails => rcases makeObject_error fails with rfl | ⟨message, rfl⟩ <;> simp
  | _ => simp

/-- What spoils a backfill is no row that the store refused. -/
theorem Spoils.atCommit {e : Fault} (h : x.Spoils e) : e.atCommit = e := by
  cases h with
  | uncopied _ _ fails => rcases makeObject_error fails with rfl | ⟨message, rfl⟩ <;> rfl
  | _ => rfl

/-- A claim spoils a backfill exactly if normalizing it has a fault that is no refusal. -/
theorem spoils_iff (hfits : ∀ n, x.lovelaceAmount = some n → Column.fitsBigint n = true)
    {e : Fault} : x.Spoils e ↔ x.outcome = .error e ∧ ∀ d, e ≠ .refusal d := by
  refine ⟨fun h => ⟨h.outcome, h.ne_refusal⟩, fun ⟨hfails, hne⟩ => ?_⟩
  cases fate hfits with
  | clean legible absent =>
      rw [outcome_eq_none_iff.2 ⟨legible, absent⟩] at hfails
      cases hfails
  | refused key cause fails =>
      rw [outcome, fails] at hfails
      exact absurd (Except.error.inj hfails).symm (hne _)
  | normalized a k moved converts kept =>
      rw [outcome_eq_some_iff.2 ⟨a, converts, kept⟩] at hfails
      cases hfails
  | spoils f spoils =>
      rw [spoils.outcome] at hfails
      exact Except.error.inj hfails ▸ spoils

/-- A claim has no fault but a refusal exactly if it spoils nothing. -/
theorem regular_iff_not_spoils
    (hfits : ∀ n, x.lovelaceAmount = some n → Column.fitsBigint n = true) :
    x.Regular ↔ ∀ e, ¬ x.Spoils e := by
  constructor
  · rintro (⟨r, hr⟩ | hrefused) e hspoils
    · rw [hspoils.outcome] at hr
      cases hr
    · obtain ⟨d, hd⟩ := isRefused_iff.1 hrefused
      have hfails : x.outcome = .error (.refusal d) := by rw [outcome, hd]
      exact hspoils.ne_refusal d (Except.error.inj (hspoils.outcome.symm.trans hfails))
  · intro hsound
    cases fate hfits with
    | clean legible absent => exact .inl ⟨none, outcome_eq_none_iff.2 ⟨legible, absent⟩⟩
    | refused key cause fails => exact .inr (isRefused_iff.2 ⟨_, fails⟩)
    | normalized a k moved converts kept =>
        exact .inl ⟨some k, outcome_eq_some_iff.2 ⟨a, converts, kept⟩⟩
    | spoils e spoils => exact absurd spoils (hsound e)

/-! ## The list of claims -/

/-- A refused claim is reported with its refusal. -/
theorem mem_errors_of_convertAll {xs : List Claim} {converted : List (Claim × Amounts)}
    {errors : List BackfillError} (h : convertAll xs = .ok (converted, errors)) (hx : x ∈ xs)
    {d : DomainError} (hd : normalizeAmounts x.id.toJson x.amounts = .error (.refusal d)) :
    ⟨x.id, d⟩ ∈ errors := by
  induction xs generalizing converted errors with
  | nil => cases hx
  | cons y ys ih =>
      rw [convertAll] at h
      split at h
      · next hy =>
        simp only [bind_eq_ok, pure_eq_ok, Prod.mk.injEq] at h
        obtain ⟨⟨converted', errors'⟩, hrest, -, rfl⟩ := h
        rcases List.mem_cons.1 hx with rfl | hx
        · rw [hy] at hd
          cases hd
        · exact ih hrest hx
      · next e hy =>
        simp only [bind_eq_ok, pure_eq_ok, Prod.mk.injEq] at h
        obtain ⟨⟨converted', errors'⟩, hrest, -, rfl⟩ := h
        rcases List.mem_cons.1 hx with rfl | hx
        · rw [hy, Except.error.injEq, Fault.refusal.injEq] at hd
          exact hd ▸ List.mem_cons_self
        · exact List.mem_cons_of_mem _ (ih hrest hx)
      · cases h

/-- Going through claims fails with the fault of a claim. -/
theorem convertAll_error {xs : List Claim} {e : Fault} (h : convertAll xs = .error e) :
    ∃ x ∈ xs, normalizeAmounts x.id.toJson x.amounts = .error e := by
  induction xs with
  | nil => cases h
  | cons y ys ih =>
      have hrest (hys : convertAll ys = .error e) :
          ∃ x ∈ y :: ys, normalizeAmounts x.id.toJson x.amounts = .error e := by
        obtain ⟨x, hx, hfails⟩ := ih hys
        exact ⟨x, List.mem_cons_of_mem _ hx, hfails⟩
      rw [convertAll] at h
      split at h
      · rcases bind_eq_error.1 h with h | ⟨_, -, h⟩
        · exact hrest h
        · cases h
      · rcases bind_eq_error.1 h with h | ⟨_, -, h⟩
        · exact hrest h
        · cases h
      · next f _ hfails =>
        obtain rfl := Except.error.inj h
        exact ⟨y, List.mem_cons_self, hfails⟩

/-- Making the rows fails on a claim whose columns refuse its amounts. -/
theorem convertedRows_error {converted : List (Claim × Amounts)} {e : Fault}
    (h : convertedRows time converted = .error e) :
    ∃ p ∈ converted, p.1.withAmounts p.2 time = .error e := by
  induction converted with
  | nil => cases h
  | cons p converted ih =>
      rw [convertedRows] at h
      rcases bind_eq_error.1 h with h | ⟨_, -, h⟩
      · exact ⟨p, List.mem_cons_self, h⟩
      · rcases bind_eq_error.1 h with h | ⟨_, -, h⟩
        · obtain ⟨q, hq, hfails⟩ := ih h
          exact ⟨q, List.mem_cons_of_mem _ hq, hfails⟩
        · cases h

/-! ## The backfill -/

section Operations

variable {c : Context} {w w' : World} {stats : BackfillStats}

/-- A backfill that fails does so with the fault of a claim. -/
theorem outcome_of_backfill_error {limit : Option Int} {e : Fault}
    (h : backfill limit false c w = (.error e, w')) :
    ∃ x ∈ w.store.claims, x.outcome = .error e := by
  have houtcome {x : Claim} (hx : x ∈ w.store.claims) (hfails : x.conversion = .error e) :
      ∃ x ∈ w.store.claims, x.outcome = .error e :=
    ⟨x, hx, by rw [outcome, hfails]⟩
  by_cases hlegible : w.store.Legible
  · rw [backfill_run hlegible] at h
    split at h
    · next hconverted =>
      obtain rfl := Except.error.inj (congrArg Prod.fst h)
      obtain ⟨x, hx, hfails⟩ := convertAll_error hconverted
      have hloads := (legible_of_mem_window hlegible x hx).1.loads
      exact houtcome (mem_claims_of_mem_window hx).1 ((conversion_of_loads hloads).trans hfails)
    · next converted errors hconverted =>
      split at h
      · next hrows =>
        obtain rfl := Except.error.inj (congrArg Prod.fst h)
        obtain ⟨hfst, hamounts, -, -⟩ :=
          convertAll_ok (legible_of_mem_window hlegible) hconverted
        obtain ⟨p, hp, hfails⟩ := convertedRows_error hrows
        have hmem : p.1 ∈ (window limit w.store).filter isConvertible :=
          hfst ▸ List.mem_map_of_mem hp
        refine ⟨p.1, (mem_claims_of_mem_window (List.mem_of_mem_filter hmem)).1, ?_⟩
        rw [withAmounts_eq] at hfails
        rw [outcome, hamounts p hp]
        dsimp only
        cases hkept : p.1.keptAmounts p.2 with
        | error f =>
            rw [hkept] at hfails
            exact congrArg Except.error (Except.error.inj hfails)
        | ok k =>
            rw [hkept] at hfails
            cases hfails
      · cases h
  · obtain ⟨f, hf⟩ := exists_candidates_error hlegible
    rw [backfill_of_candidates_error hf] at h
    obtain rfl := Except.error.inj (congrArg Prod.fst h)
    obtain ⟨x, hx, hfails⟩ := conversion_of_candidates_error hf
    exact houtcome (mem_byAge.1 hx) hfails

/-- What a full backfill with a result made of each claim. -/
theorem backfilled_of_backfill (hkept : w.store.ClaimsKept)
    (h : backfill none false c w = (.ok stats, w')) (hx : x ∈ w.store.claims) :
    Backfilled c.now stats.errors x (x.normalized c.now) := by
  obtain ⟨hlegible, converted, -, hconverted, -⟩ := backfill_eq_ok_iff.1 h
  obtain ⟨hwindow, -, herrors, -⟩ := backfill_effect hkept.distinct h
  have hregular := legible_and_regular_iff.1 ⟨hlegible, hwindow⟩ x hx
  have unreported (hnot : x.isRefused = false) : ∀ e ∈ stats.errors, e.claimId ≠ x.id := by
    intro e he hid
    have hmem : x.id ∈ ((window none w.store).filter isRefused).map Claim.id :=
      herrors ▸ List.mem_map.2 ⟨e, he, hid⟩
    obtain ⟨y, hy, hyx⟩ := List.mem_map.1 hmem
    obtain ⟨hwindow, hrefused⟩ := List.mem_filter.1 hy
    obtain rfl := List.inj_on_of_nodup_map hkept.distinct (mem_window_none.1 hwindow).1 hx hyx
    rw [hnot] at hrefused
    cases hrefused
  cases fate (hkept.fits x hx) with
  | clean legible absent =>
      rw [normalized_of_not_needs absent]
      refine .clean absent (unreported ?_)
      rw [isRefused, conversion_eq_none_iff.2 ⟨legible, absent⟩]
  | refused key cause fails =>
      have hrefused : x.isRefused = true := isRefused_iff.2 ⟨_, fails⟩
      have hwindow := mem_window_none.2 ⟨hx, needs_of_isRefused hrefused⟩
      rw [conversion_of_loads (hlegible x hx).loads] at fails
      rw [normalized_of_isRefused hrefused]
      exact .refused key cause (mem_errors_of_convertAll hconverted hwindow fails)
  | normalized a k moved converts kept =>
      rw [normalized_of_some (outcome_eq_some_iff.2 ⟨a, converts, kept⟩)]
      refine .normalized a moved ?_ (unreported (by rw [isRefused, converts]))
      rw [withAmounts_eq, kept]
      rfl
  | spoils e spoils => exact absurd spoils ((regular_iff_not_spoils (hkept.fits x hx)).1 hregular e)

end Operations

end Claim

/-- A full backfill of any stored claims, in a transaction.  It has a result exactly if no
claim spoils it: then every claim with a value that is no number is reported and stays as it
was, and all others that carry a legacy key are normalized and kept.  Where claims spoil it,
they are not reported: it fails with the fault of one of them, and no claim is normalized. -/
theorem backfill_completes_unless_spoiled {w : World} (kept : w.store.ClaimsKept) (c : Context) :
    let run := transaction (Claim.backfill none false) c w
    ((∃ stats, run.1 = .ok stats) ↔ ∀ x ∈ w.store.claims, ∀ e, ¬ x.Spoils e) ∧
      (∀ stats, run.1 = .ok stats →
        List.Forall₂ (Claim.Backfilled c.now stats.errors) w.store.claims run.2.store.claims ∧
          run.2.store = { w.store with claims := run.2.store.claims }) ∧
      (∀ e, run.1 = .error e → (∃ x ∈ w.store.claims, x.Spoils e) ∧
        run.2.store = w.store) := by
  intro run
  have hrun {stats : Claim.BackfillStats} (h : run.1 = .ok stats) :
      Claim.backfill none false c w = (.ok stats, run.2) :=
    transaction_eq_ok.1 (Prod.ext h rfl)
  have hregular : (∀ x ∈ w.store.claims, x.Regular) ↔ ∀ x ∈ w.store.claims, ∀ e, ¬ x.Spoils e :=
    forall₂_congr fun x hx => Claim.regular_iff_not_spoils (kept.fits x hx)
  refine ⟨?_, fun stats h => ?_, fun e h => ?_⟩
  · rw [← hregular, ← Claim.legible_and_regular_iff,
      ← Claim.backfill_total_iff (c := c) kept.distinct]
    constructor
    · rintro ⟨stats, h⟩
      exact ⟨stats, run.2, hrun h⟩
    · rintro ⟨stats, w', h⟩
      exact ⟨stats, congrArg Prod.fst (transaction_eq_ok.2 h)⟩
  · constructor
    · rw [Claim.claims_of_full_backfill kept.distinct (hrun h), List.forall₂_map_right_iff,
        List.forall₂_same]
      exact fun x hx => Claim.backfilled_of_backfill kept (hrun h) hx
    · obtain ⟨-, -, -, hstore⟩ := Claim.backfill_effect kept.distinct (hrun h)
      rw [hstore]
  · refine ⟨?_, store_of_transaction_error (Prod.ext h rfl : run = (.error e, run.2))⟩
    rcases hbackfill : Claim.backfill none false c w with ⟨f | stats, w'⟩
    · have he : run.1 = .error f.atCommit := by
        change (transaction _ c w).1 = _
        rw [transaction, hbackfill]
      obtain ⟨x, hx, hfails⟩ := Claim.outcome_of_backfill_error hbackfill
      have hne (d : DomainError) : f ≠ .refusal d := by
        rintro rfl
        exact Claim.neverRefuses_backfill false d (congrArg Prod.fst hbackfill)
      have hspoils := (Claim.spoils_iff (kept.fits x hx)).2 ⟨hfails, hne⟩
      obtain rfl := Except.error.inj (he.symm.trans h)
      rw [hspoils.atCommit]
      exact ⟨x, hx, hspoils⟩
    · rw [show run = _ from transaction_eq_ok.2 hbackfill] at h
      cases h

/-- Of the two claims of the sample one is reported, and nothing is spoiled. -/
theorem backfill_not_spoiled_in_sample :
    Sample.backlog.store.ClaimsKept ∧
      ∃ stats, (transaction (Claim.backfill none false) default Sample.backlog).1 = .ok stats := by
  have kept : Sample.backlog.store.ClaimsKept :=
    ⟨Sample.distinct_backlog, by simp [Sample.backlog, Sample.legacyClaim]⟩
  refine ⟨kept, (backfill_completes_unless_spoiled kept default).1.2 ?_⟩
  intro x hx
  exact (Claim.regular_iff_not_spoils (kept.fits x hx)).1 (Sample.regular_backlog x hx)

namespace Sample

/-- A claim whose amount is too large for its column, and a younger one whose amount is
not. -/
def flooded : World where
  store :=
    { claims :=
        [legacyClaim 1 (.obj [(Claim.adaAmountKey, .str "1e30")]),
          legacyClaim 2 (.obj [(Claim.adaAmountKey, .str "3")])]
      serial := 2 }

end Sample

/-- One claim with a large amount spoils the backfill: it fails, and the other claim, which
could be normalized and kept, is left as it was. -/
theorem backfill_spoiled_in_flooded :
    let run := transaction (Claim.backfill none false) default Sample.flooded
    Sample.flooded.store.ClaimsKept ∧ run.1 = .error .outOfRange ∧
      run.2.store = Sample.flooded.store ∧
      ∃ x ∈ Sample.flooded.store.claims, ∃ a y, Claim.Moved x.id.toJson x.amounts a ∧
        x.withAmounts a default = .ok y := by
  have hsorted : Claim.byAge Sample.flooded.store.claims = Sample.flooded.store.claims :=
    List.mergeSort_of_pairwise (by decide +kernel)
  have hwindow : Claim.window none Sample.flooded.store = Sample.flooded.store.claims := by
    change (Claim.byAge _).filter _ = _
    rw [hsorted]
    decide +kernel
  have hlegible : Sample.flooded.store.Legible := by
    simp only [Store.Legible, Sample.flooded, List.forall_mem_cons]
    exact ⟨⟨rfl, rfl⟩, ⟨rfl, rfl⟩, by simp⟩
  have hfails : transaction (Claim.backfill none false) default Sample.flooded =
      (.error .outOfRange, Sample.flooded) := by
    rw [transaction, Claim.backfill_run hlegible, hwindow]
    decide +kernel
  have hmoved : Claim.normalizeAmounts (Uuid.ofSerial 2).toJson
      (Sample.legacyClaim 2 (.obj [(Claim.adaAmountKey, .str "3")])).amounts =
        .ok (some ⟨some 3000000, none, .obj []⟩) := by
    decide +kernel
  rw [hfails]
  refine ⟨⟨by decide +kernel, by simp [Sample.flooded, Sample.legacyClaim]⟩, rfl, rfl,
    Sample.legacyClaim 2 (.obj [(Claim.adaAmountKey, .str "3")]), by simp [Sample.flooded], _, _,
    Claim.normalizeAmounts_eq_some_iff.1 hmoved, rfl⟩

end VaultGovernance
