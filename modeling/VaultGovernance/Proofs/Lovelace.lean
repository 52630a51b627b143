import VaultGovernance.Claim.Legacy
import VaultGovernance.Proofs.Significant
import VaultGovernance.Store.Column

/-!
# VaultGovernance.Proofs.Lovelace

Which amount a legacy value becomes.  The rule is that a number of a million or more counts
the smallest unit already, a smaller one is multiplied by a million, and either is cut
toward zero (`Claim.exactLovelace`).  The comparison and the cut are exact; the product has
28 significant digits.  So longer numbers may be rounded up to the next whole number before
they are cut, and a product with a digit beyond the largest exponent is refused.
-/

namespace VaultGovernance

namespace Claim

/-- A value denotes a decimal: it is no truth value, it has a display form, and that is read as
the decimal, which is finite. -/
structure Denotes (j : Json) (d : Decimal) : Prop where
  noTruth : ∀ b, j ≠ .bool b
  shown : j.canShow = true
  read : Decimal.ofText? (stripBlanks j.display) = some d
  finite : d.isFinite = true

/-- A number of the native unit or of its smallest part, in the smallest part. -/
def exactLovelace (v : ℚ) : Int :=
  if 10 ^ 6 ≤ v then towardZero v else towardZero (v * 10 ^ 6)

/-- A number whose amount fits 64 bits.  Below the least integer that fits there is room for
what is cut and for what is rounded up. -/
def FitsColumn (v : ℚ) : Prop :=
  -(2 ^ 63 + 1) + 1 / (2 * 10 ^ 9) < v * 10 ^ 6 ∧ v < 2 ^ 63

/-- The least magnitude of a product that arithmetic refuses. -/
def productLimit : ℚ :=
  (10 : ℚ) ^ (Decimal.maxExponent + 1) - (10 : ℚ) ^ (Decimal.maxExponent - 27) / 2

/-! ## Reading a legacy value -/

theorem legacyNumber?_eq_some_iff {j : Json} {d : Decimal} :
    legacyNumber? j = some d ↔ Denotes j d := by
  constructor
  · intro h
    cases j with
    | bool b => cases h
    | _ =>
        rw [legacyNumber?.eq_def] at h
        dsimp only at h
        split at h
        · next hshown =>
          split at h
          · next d' hread =>
            split at h
            · next hfinite =>
              obtain rfl := Option.some.inj h
              exact ⟨by simp, hshown, hread, hfinite⟩
            · cases h
          · cases h
        · cases h
  · rintro ⟨htruth, hshown, hread, hfinite⟩
    cases j with
    | bool b => exact absurd rfl (htruth b)
    | _ =>
        rw [legacyNumber?.eq_def]
        dsimp only
        rw [if_pos hshown, hread]
        exact if_pos hfinite

theorem legacyNumber?_eq_none_iff {j : Json} :
    legacyNumber? j = none ↔ ¬ ∃ d, Denotes j d := by
  rw [Option.eq_none_iff_forall_ne_some, not_exists]
  exact forall_congr' fun d => not_congr legacyNumber?_eq_some_iff

theorem Denotes.exists_finite {j : Json} {d : Decimal} (h : Denotes j d) :
    ∃ negative c x, d = .finite negative c x := by
  cases d with
  | finite negative c x => exact ⟨negative, c, x, rfl⟩
  | infinite | nan => cases h.finite

theorem lovelaceOfLegacy_of_denotes {claimId j : Json} {d : Decimal} (h : Denotes j d) :
    lovelaceOfLegacy claimId j = lovelaceOfNumber d := by
  rw [lovelaceOfLegacy, legacyNumber?_eq_some_iff.2 h]

/-- A refusal shows the claim and the value. -/
theorem invalidAmount_of_canShow {claimId j : Json} {key : String} (hid : claimId.canShow = true)
    (hj : j.canShow = true) :
    invalidAmount claimId key j = .refusal (.invalidClaimAmount claimId key j) := by
  rw [invalidAmount, hid, hj]
  rfl

/-- What cannot be shown is not refused but fails for the length of its text. -/
theorem invalidAmount_of_overlong {claimId j : Json} {key : String}
    (h : claimId.canShow = false ∨ j.canShow = false) :
    invalidAmount claimId key j = .badValue integerTextMessage := by
  rw [invalidAmount, if_neg]
  rcases h with h | h <;> simp [h]

theorem lovelaceOfLegacy_of_not_denotes {claimId j : Json} (h : ¬ ∃ d, Denotes j d) :
    lovelaceOfLegacy claimId j = .error (invalidAmount claimId adaAmountKey j) := by
  rw [lovelaceOfLegacy, legacyNumber?_eq_none_iff.2 h]

/-! ## Converting a number -/

theorem pow_lt_productLimit : (10 : ℚ) ^ 27 < productLimit := by
  have hnext : (10 : ℚ) ^ (Decimal.maxExponent + 1) = 10 * 10 ^ Decimal.maxExponent := by
    rw [zpow_add_one₀ (by norm_num), mul_comm]
  have hunit : (10 : ℚ) ^ (Decimal.maxExponent - 27) ≤ 10 ^ Decimal.maxExponent :=
    zpow_le_zpow_right₀ (by norm_num) (by decide)
  have hpow : (10 : ℚ) ^ (27 : ℤ) ≤ 10 ^ Decimal.maxExponent :=
    zpow_le_zpow_right₀ (by norm_num) (by decide)
  have hpos : (0 : ℚ) < 10 ^ (27 : ℤ) := by positivity
  rw [← zpow_natCast, productLimit, hnext]
  push_cast
  linarith

theorem product_lt_pow {v : ℚ} (h : v < 10 ^ 6) : v * 10 ^ 6 < 10 ^ 27 := by linarith

section Number

variable {negative : Bool} {c : Nat} {x : Int}

/-- A number of a million or more is cut. -/
theorem lovelaceOfNumber_of_le (h : 10 ^ 6 ≤ (Decimal.finite negative c x).value) :
    lovelaceOfNumber (.finite negative c x) =
      .ok (towardZero (Decimal.finite negative c x).value) := by
  have hlarge := Decimal.isAtLeastPowerOfTen_iff (k := lovelacePlaces).2 (by exact_mod_cast h)
  rw [lovelaceOfNumber, if_pos hlarge, ← Decimal.truncateParts_eq]
  rfl

/-- A smaller number is multiplied, which rounds, and then cut. -/
theorem lovelaceOfNumber_of_lt (h : (Decimal.finite negative c x).value < 10 ^ 6) :
    ∃ r, Rounds ((Decimal.finite negative c x).value * 10 ^ 6) r ∧
      lovelaceOfNumber (.finite negative c x) =
        if productLimit ≤ |(Decimal.finite negative c x).value * 10 ^ 6|
        then .error .decimalOverflow else .ok (towardZero r) := by
  have hsmall : ¬ Decimal.isAtLeastPowerOfTen lovelacePlaces (.finite negative c x) = true := by
    rw [Decimal.isAtLeastPowerOfTen_iff, not_le]
    exact_mod_cast h
  obtain ⟨r, hr, hscaled, hvalue⟩ := Decimal.scaleByPowerOfTen?_spec negative c x lovelacePlaces
  have hr' : Rounds ((Decimal.finite negative c x).value * 10 ^ 6) r := by exact_mod_cast hr
  refine ⟨r, hr', ?_⟩
  rw [if_congr (hr'.pow_le_abs_iff Decimal.maxExponent) rfl rfl] at hscaled
  change _ = if productLimit ≤ _ then _ else _ at hscaled
  by_cases hlimit : productLimit ≤ |(Decimal.finite negative c x).value * 10 ^ 6|
  · rw [if_pos hlimit] at hscaled ⊢
    rw [lovelaceOfNumber, if_neg hsmall, hscaled]
  · rw [if_neg hlimit] at hscaled ⊢
    rw [lovelaceOfNumber, if_neg hsmall, hscaled, ← hvalue, ← Decimal.truncateParts_eq]
    rfl

/-- Only a product beyond the limit is refused. -/
theorem lovelaceOfNumber_eq_error_iff {e : Fault} :
    lovelaceOfNumber (.finite negative c x) = .error e ↔
      e = .decimalOverflow ∧ (Decimal.finite negative c x).value * 10 ^ 6 ≤ -productLimit := by
  have hlimit := pow_lt_productLimit
  by_cases hlarge : 10 ^ 6 ≤ (Decimal.finite negative c x).value
  · rw [lovelaceOfNumber_of_le hlarge]
    refine iff_of_false (by simp) fun ⟨_, hbeyond⟩ => ?_
    linarith
  · obtain ⟨r, -, hnumber⟩ := lovelaceOfNumber_of_lt (not_le.1 hlarge)
    have hbelow := (product_lt_pow (not_le.1 hlarge)).trans hlimit
    have hbeyond : productLimit ≤ |(Decimal.finite negative c x).value * 10 ^ 6| ↔
        (Decimal.finite negative c x).value * 10 ^ 6 ≤ -productLimit := by
      rw [le_abs, or_iff_right (not_le.2 hbelow), le_neg]
    rw [hnumber, ← hbeyond]
    split
    · next h => rw [and_iff_left h, Except.error.injEq, eq_comm]
    · next h => exact iff_of_false (by simp) fun hand => h hand.2

/-- A number that is neither rounded nor too large is converted by the rule. -/
theorem lovelaceOfNumber_of_isShort (hshort : IsShort (Decimal.finite negative c x).value)
    (hlimit : -productLimit < (Decimal.finite negative c x).value * 10 ^ 6) :
    lovelaceOfNumber (.finite negative c x) =
      .ok (exactLovelace (Decimal.finite negative c x).value) := by
  rw [exactLovelace]
  split
  · next hlarge => exact lovelaceOfNumber_of_le hlarge
  · next hsmall =>
    obtain ⟨r, hr, hnumber⟩ := lovelaceOfNumber_of_lt (not_le.1 hsmall)
    obtain rfl := hr.eq_of_isShort (hshort.mul_pow 6)
    rw [hnumber, if_neg]
    rw [not_le, abs_lt]
    exact ⟨hlimit, (product_lt_pow (not_le.1 hsmall)).trans pow_lt_productLimit⟩

/-- A number whose product is of ordinary size is converted by the rule or, where the
product is rounded up, to the next whole number. -/
theorem lovelaceOfNumber_of_lt_of_lt (hsmall : (Decimal.finite negative c x).value < 10 ^ 6)
    (hlow : -10 ^ 21 < (Decimal.finite negative c x).value) :
    (RoundsUp ((Decimal.finite negative c x).value * 10 ^ 6) →
      lovelaceOfNumber (.finite negative c x) =
        .ok (awayFromZero ((Decimal.finite negative c x).value * 10 ^ 6))) ∧
    (¬ RoundsUp ((Decimal.finite negative c x).value * 10 ^ 6) →
      lovelaceOfNumber (.finite negative c x) =
        .ok (towardZero ((Decimal.finite negative c x).value * 10 ^ 6))) := by
  obtain ⟨r, hr, hnumber⟩ := lovelaceOfNumber_of_lt hsmall
  generalize (Decimal.finite negative c x).value = v at *
  have hproduct : |v * 10 ^ 6| < (10 : ℚ) ^ 27 := by
    rw [abs_lt]
    constructor <;> linarith
  rw [if_neg (not_le.2 (hproduct.trans pow_lt_productLimit))] at hnumber
  obtain ⟨hup, hdown⟩ := hr.towardZero_eq (by exact_mod_cast hproduct)
  exact ⟨fun h => by rw [hnumber, hup h], fun h => by rw [hnumber, hdown h]⟩

/-! ## What fits the column -/

theorem fitsBigint_iff_pow {n : ℤ} : Column.fitsBigint n = true ↔ -2 ^ 63 ≤ n ∧ n < 2 ^ 63 :=
  Column.fitsBigint_iff

/-- A product between the least integer that fits and the one before is rounded to the latter
where it is within half a unit of it. -/
theorem roundsUp_iff_of_edge {p : ℚ} (h : ⌈p⌉ = -2 ^ 63) :
    awayFromZero p = -(2 ^ 63 + 1) ∧
      (RoundsUp p ↔ p ≤ -(2 ^ 63 + 1) + 1 / (2 * 10 ^ 9)) := by
  obtain ⟨hlow, hle⟩ := Int.ceil_eq_iff.1 h
  push_cast at hlow hle
  have hneg : p < 0 := by linarith
  have haway : awayFromZero p = -(2 ^ 63 + 1) := by
    have htoward : towardZero p = ⌈p⌉ := if_neg (not_le.2 hneg)
    rw [awayFromZero, if_neg (not_le.2 hneg), htoward]
    omega
  have hgap : |p - awayFromZero p| = p + (2 ^ 63 + 1) := by
    rw [haway]
    push_cast
    rw [abs_of_pos (by linarith)]
    ring
  refine ⟨haway, ?_⟩
  rw [RoundsUp, hgap, abs_of_neg hneg]
  constructor
  · rintro ⟨e, hfirst, -, hclose⟩
    have he : e < 19 := by
      refine (zpow_lt_zpow_iff_right₀ (show (1 : ℚ) < 10 by norm_num)).1 (hfirst.trans_lt ?_)
      norm_num
      linarith
    have hunit : (10 : ℚ) ^ (e - 27) ≤ 10 ^ (-9 : ℤ) :=
      zpow_le_zpow_right₀ (by norm_num) (by omega)
    norm_num at hunit
    linarith
  · intro hclose
    refine ⟨18, ?_, ?_, ?_⟩ <;> norm_num <;> linarith

/-- What a product of ordinary size is cut to fits 64 bits unless the product lies below
the least integer that fits, by more than is rounded away. -/
theorem fitsBigint_cut_iff {p : ℚ} {n : ℤ} (hup : RoundsUp p → n = awayFromZero p)
    (hdown : ¬ RoundsUp p → n = towardZero p) (hhigh : p < 10 ^ 12) :
    Column.fitsBigint n = true ↔ -(2 ^ 63 + 1) + 1 / (2 * 10 ^ 9) < p := by
  have hcases : n = towardZero p ∨ n = awayFromZero p := by
    by_cases h : RoundsUp p
    · exact .inr (hup h)
    · exact .inl (hdown h)
  rw [fitsBigint_iff_pow]
  by_cases hnonneg : 0 ≤ p
  · rw [awayFromZero, if_pos hnonneg, towardZero_of_nonneg hnonneg] at hcases
    have hleast : 0 ≤ ⌊p⌋ := Int.floor_nonneg.2 hnonneg
    have hmost : ⌊p⌋ < 10 ^ 12 := Int.floor_lt.2 (by exact_mod_cast hhigh)
    have hbelow : (-(2 ^ 63 + 1) + 1 / (2 * 10 ^ 9) : ℚ) < 0 := by norm_num
    refine iff_of_true ?_ (hbelow.trans_le hnonneg)
    omega
  · have htoward : towardZero p = ⌈p⌉ := if_neg hnonneg
    have haway : awayFromZero p = ⌈p⌉ - 1 := by rw [awayFromZero, if_neg hnonneg, htoward]
    have hceil : ⌈p⌉ ≤ 0 := Int.ceil_le.2 (by exact_mod_cast (not_le.1 hnonneg).le)
    rw [htoward] at hcases hdown
    rw [haway] at hcases
    -- Only just below the least integer that fits does rounding decide.
    rcases lt_trichotomy ⌈p⌉ (-2 ^ 63) with hout | hedge | hin
    · have hle : p ≤ -(2 ^ 63 + 1) := by
        have := Int.ceil_le.1 (show ⌈p⌉ ≤ -(2 ^ 63 + 1) by omega)
        exact_mod_cast this
      refine iff_of_false (by omega) (not_lt.2 (hle.trans ?_))
      norm_num
    · obtain ⟨hnext, hrounds⟩ := roundsUp_iff_of_edge hedge
      by_cases h : RoundsUp p
      · have hn := hup h
        exact iff_of_false (by omega) (not_lt.2 (hrounds.1 h))
      · have hn := hdown h
        exact iff_of_true (by omega) (not_le.1 fun hle => h (hrounds.2 hle))
    · have hlt : (-2 ^ 63 : ℚ) < p := by
        have := Int.lt_ceil.1 hin
        exact_mod_cast this
      refine iff_of_true (by omega) (lt_trans ?_ hlt)
      norm_num

/-- What a large negative product is cut to does not fit. -/
theorem not_fitsBigint_of_le {p r : ℚ} (h : Rounds p r) (hp : p ≤ -10 ^ 27) :
    ¬ Column.fitsBigint (towardZero r) = true := by
  have hclose := h.two_mul_abs_sub_le
  rw [abs_of_neg (a := p) (by linarith)] at hclose
  have hhalf : r ≤ p / 2 := by
    have hdistance := neg_abs_le (p - r)
    linarith
  have hceil : towardZero r = ⌈r⌉ := if_neg (by linarith)
  rw [hceil, fitsBigint_iff_pow]
  rintro ⟨hleast, -⟩
  have hlt := Int.lt_ceil.1 (show -2 ^ 63 - 1 < ⌈r⌉ by omega)
  push_cast at hlt
  linarith

/-- The amount of a number fits 64 bits exactly if the number is inside the bounds. -/
theorem lovelaceOfNumber_fits_iff :
    (∃ n, lovelaceOfNumber (.finite negative c x) = .ok n ∧ Column.fitsBigint n = true) ↔
      FitsColumn (Decimal.finite negative c x).value := by
  unfold FitsColumn
  by_cases hlarge : 10 ^ 6 ≤ (Decimal.finite negative c x).value
  · rw [lovelaceOfNumber_of_le hlarge]
    generalize (Decimal.finite negative c x).value = v at *
    have hnonneg : 0 ≤ v := le_trans (by norm_num) hlarge
    have hleast : 0 ≤ ⌊v⌋ := Int.floor_nonneg.2 hnonneg
    have hmost : ⌊v⌋ < 2 ^ 63 ↔ v < 2 ^ 63 := by
      rw [Int.floor_lt]
      norm_cast
    have hinside : -(2 ^ 63 + 1) + 1 / (2 * 10 ^ 9) < v * 10 ^ 6 := by linarith
    rw [towardZero_of_nonneg hnonneg, ← hmost]
    simp only [Except.ok.injEq, exists_eq_left', fitsBigint_iff_pow]
    exact ⟨fun h => ⟨hinside, h.2⟩, fun h => ⟨by omega, h.2⟩⟩
  · rw [not_le] at hlarge
    have hbelow : (Decimal.finite negative c x).value < 2 ^ 63 := hlarge.trans (by norm_num)
    rw [and_iff_left hbelow]
    by_cases hlow : -10 ^ 21 < (Decimal.finite negative c x).value
    · obtain ⟨hup, hdown⟩ := lovelaceOfNumber_of_lt_of_lt hlarge hlow
      have hproduct : (Decimal.finite negative c x).value * 10 ^ 6 < 10 ^ 12 := by linarith
      obtain ⟨n, hn⟩ : ∃ n, lovelaceOfNumber (.finite negative c x) = .ok n := by
        by_cases h : RoundsUp ((Decimal.finite negative c x).value * 10 ^ 6)
        · exact ⟨_, hup h⟩
        · exact ⟨_, hdown h⟩
      rw [hn] at hup hdown ⊢
      simp only [Except.ok.injEq, exists_eq_left'] at hup hdown ⊢
      exact fitsBigint_cut_iff hup hdown hproduct
    · obtain ⟨r, hr, hnumber⟩ := lovelaceOfNumber_of_lt hlarge
      generalize (Decimal.finite negative c x).value = v at *
      have hlow' : v * 10 ^ 6 ≤ -10 ^ 27 := by linarith
      refine iff_of_false ?_ (by linarith)
      rintro ⟨n, hn, hfits⟩
      rw [hnumber] at hn
      split at hn
      · cases hn
      · obtain rfl := Except.ok.inj hn
        exact not_fitsBigint_of_le hr hlow' hfits

end Number

end Claim

/-- What a legacy amount becomes.  A value that denotes no decimal is refused, unless it cannot
be shown or the claim cannot, for an integer of too many digits in it.  A decimal is converted
by the rule if it is a million or more, if arithmetic keeps all of its digits, or if its product
is of ordinary size and not rounded up; a product that is rounded up gives the next whole
number.  A product of any size is rounded to the digits that arithmetic keeps before it is cut,
and one beyond the limit is refused. -/
theorem lovelace_exact_unless_rounded_up (claimId j : Json) :
    ((¬ ∃ d, Claim.Denotes j d) →
      (claimId.canShow = true → j.canShow = true → Claim.lovelaceOfLegacy claimId j =
        .error (.refusal (.invalidClaimAmount claimId Claim.adaAmountKey j))) ∧
      (claimId.canShow = false ∨ j.canShow = false →
        Claim.lovelaceOfLegacy claimId j = .error (.badValue integerTextMessage))) ∧
    ∀ d, Claim.Denotes j d →
      ((10 ^ 6 ≤ d.value ∨ (IsShort d.value ∧ -Claim.productLimit < d.value * 10 ^ 6) ∨
          (-10 ^ 21 < d.value ∧ ¬ RoundsUp (d.value * 10 ^ 6)) →
        Claim.lovelaceOfLegacy claimId j = .ok (Claim.exactLovelace d.value)) ∧
      (-10 ^ 21 < d.value → d.value < 10 ^ 6 → RoundsUp (d.value * 10 ^ 6) →
        Claim.lovelaceOfLegacy claimId j = .ok (awayFromZero (d.value * 10 ^ 6))) ∧
      (d.value < 10 ^ 6 → -Claim.productLimit < d.value * 10 ^ 6 →
        ∃ r, Rounds (d.value * 10 ^ 6) r ∧
          Claim.lovelaceOfLegacy claimId j = .ok (towardZero r)) ∧
      (d.value * 10 ^ 6 ≤ -Claim.productLimit →
        Claim.lovelaceOfLegacy claimId j = .error .decimalOverflow)) := by
  refine ⟨fun hunread => ?_, fun d hd => ?_⟩
  · rw [Claim.lovelaceOfLegacy_of_not_denotes hunread]
    exact ⟨fun hid hj => by rw [Claim.invalidAmount_of_canShow hid hj],
      fun hlong => by rw [Claim.invalidAmount_of_overlong hlong]⟩
  rw [Claim.lovelaceOfLegacy_of_denotes hd]
  obtain ⟨negative, c, x, rfl⟩ := hd.exists_finite
  refine ⟨?_, fun hlow hsmall => (Claim.lovelaceOfNumber_of_lt_of_lt hsmall hlow).1,
    fun hsmall hlimit => ?_, fun hlimit => ?_⟩
  · rintro (hlarge | ⟨hshort, hlimit⟩ | ⟨hlow, hdown⟩)
    · rw [Claim.lovelaceOfNumber_of_le hlarge, Claim.exactLovelace, if_pos hlarge]
    · exact Claim.lovelaceOfNumber_of_isShort hshort hlimit
    · rw [Claim.exactLovelace]
      split
      · next hlarge => exact Claim.lovelaceOfNumber_of_le hlarge
      · next hsmall => exact (Claim.lovelaceOfNumber_of_lt_of_lt (not_le.1 hsmall) hlow).2 hdown
  · obtain ⟨r, hr, hnumber⟩ := Claim.lovelaceOfNumber_of_lt hsmall
    refine ⟨r, hr, ?_⟩
    rw [hnumber, if_neg]
    rw [not_le, abs_lt]
    exact ⟨hlimit, (Claim.product_lt_pow hsmall).trans Claim.pow_lt_productLimit⟩
  · exact Claim.lovelaceOfNumber_eq_error_iff.2 ⟨rfl, hlimit⟩

/-- Two and a half, written as a text. -/
theorem lovelace_exact_of_two_and_a_half :
    Claim.lovelaceOfLegacy .null (.str "2.5") = .ok 2500000 := by
  have hd : Claim.Denotes (.str "2.5") (.finite false 25 (-1)) :=
    ⟨by simp, rfl, by decide +kernel, rfl⟩
  have hvalue : (Decimal.finite false 25 (-1)).value = 5 / 2 := by
    norm_num [Decimal.value, signed, Decimal.magnitude]
  have hshort : IsShort (Decimal.finite false 25 (-1)).value := ⟨25, -1, by decide, rfl⟩
  have hlimit : -Claim.productLimit < (Decimal.finite false 25 (-1)).value * 10 ^ 6 := by
    have := Claim.pow_lt_productLimit
    rw [hvalue]
    linarith
  rw [((lovelace_exact_unless_rounded_up .null (.str "2.5")).2 _ hd).1
    (.inr (.inl ⟨hshort, hlimit⟩)), hvalue]
  norm_num [Claim.exactLovelace, towardZero]

/-- A number a little below one, of more digits than arithmetic keeps, is taken for one. -/
theorem lovelace_rounded_up_of_nines :
    let nines : Json := .str "0.99999999999999999999999999999999"
    (∃ d, Claim.Denotes nines d ∧ d.value < 1 ∧ Claim.exactLovelace d.value = 999999) ∧
      Claim.lovelaceOfLegacy .null nines = .ok 1000000 := by
  refine ⟨⟨.finite false (10 ^ 32 - 1) (-32), ⟨by simp, rfl, by decide +kernel, rfl⟩, ?_, ?_⟩,
    by decide +kernel⟩
  · norm_num [Decimal.value, signed, Decimal.magnitude]
  · norm_num [Claim.exactLovelace, towardZero, Decimal.value, signed, Decimal.magnitude,
      Int.floor_eq_iff]

end VaultGovernance
