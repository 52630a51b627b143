import VaultGovernance.Proofs.Magnitude
import VaultGovernance.Proofs.Quantities

/-!
# VaultGovernance.Proofs.Representable

Numbers that a column shows.  A numeric column keeps a double and shows a fixed number of
its digits, so a number that is written back as it was shown goes through the conversion
again.  It comes back as the same digits.  Where doubles are closer than the digits shown,
the one nearest to the digits is too close to them to show others; where they are not, it is
the double that was kept, for this one shows the digits and is a multiple of the spacing
(`Binary64.Representable`).
-/

namespace VaultGovernance

namespace Binary64

/-! ## Doubles among the counts of quanta -/

/-- A count of quanta that a double has: a multiple of the spacing around it. -/
def Representable (quanta : Nat) : Prop := spacing quanta ∣ quanta

instance (quanta : Nat) : Decidable (Representable quanta) :=
  inferInstanceAs (Decidable (_ ∣ _))

theorem log2_twoTo (k : Nat) : (twoTo k).log2 = k := Nat.log2_two_pow

/-- Powers of two are doubles. -/
theorem representable_twoTo (k : Nat) : Representable (twoTo k) := by
  rw [Representable, spacing, log2_twoTo]
  exact Nat.pow_dvd_pow 2 (Nat.sub_le k 52)

/-- Spacings grow with the numbers. -/
theorem spacing_dvd_spacing {m n : Nat} (h : m.log2 ≤ n.log2) : spacing m ∣ spacing n :=
  Nat.pow_dvd_pow 2 (by omega)

/-- Rounding gives doubles. -/
theorem representable_roundQuanta (num : Nat) {den : Nat} (hden : 0 < den) :
    Representable (roundQuanta num den) := by
  by_cases hnone : num / den = 0
  · have hsmall : roundQuanta num den ≤ 1 := by
      have hle := roundQuanta_le num den
      omega
    have hcases : roundQuanta num den = 0 ∨ roundQuanta num den = 1 := by omega
    rcases hcases with h | h <;> rw [h] <;> decide +kernel
  · have hupper : num ≤ twoTo ((num / den).log2 + 1) * den := by
      have hlt : num / den < 2 ^ ((num / den).log2 + 1) := Nat.lt_log2_self
      exact Nat.le_of_lt ((Nat.div_lt_iff_lt_mul hden).1 hlt)
    rcases (roundQuanta_le_twoTo hden hupper).eq_or_lt with heq | hlt
    · -- The next power of two is a double.
      exact heq ▸ representable_twoTo _
    · by_cases hzero : roundQuanta num den = 0
      · rw [hzero]
        exact ⟨0, rfl⟩
      · have hlog : (roundQuanta num den).log2 ≤ (num / den).log2 :=
          Nat.le_of_lt_succ ((Nat.log2_lt hzero).2 hlt)
        exact (spacing_dvd_spacing hlog).trans (Nat.dvd_mul_left _ _)

variable {num den quanta : Nat}

/-- A double that falls short of a quotient by less than half the spacing around the quotient
is a multiple of that spacing: below the power of two where this spacing starts, the nearest
double is already half a spacing away. -/
theorem spacing_dvd_of_close (hden : 0 < den) (h : Representable quanta)
    (hclose : 2 * num < 2 * (quanta * den) + spacing (num / den) * den) :
    spacing (num / den) ∣ quanta := by
  by_cases hlog : (num / den).log2 ≤ quanta.log2
  · exact (spacing_dvd_spacing hlog).trans h
  by_cases hnormal : (num / den).log2 ≤ 52
  · have hone : spacing (num / den) = 1 := by
      rw [spacing, Nat.sub_eq_zero_of_le hnormal]
    rw [hone]
    exact Nat.one_dvd quanta
  exfalso
  obtain ⟨k, hk⟩ : ∃ k, (num / den).log2 = k + 53 := ⟨(num / den).log2 - 53, by omega⟩
  have hunit : spacing (num / den) = 2 * 2 ^ k := by
    have hexponent : k + 53 - 52 = k + 1 := by omega
    rw [spacing, hk, hexponent, ← Nat.pow_succ']
    rfl
  have hstart : 2 ^ 53 * 2 ^ k * den ≤ num := by
    have hzero : num / den ≠ 0 := fun hzero => hnormal (by rw [hzero]; decide)
    have hlow := Nat.log2_self_le hzero
    rw [hk, Nat.pow_add, Nat.mul_comm] at hlow
    exact (Nat.le_div_iff_mul_le hden).1 hlow
  -- The double lies in the octave below, in which the spacing is half as large.
  have hnear : 2 ^ 53 * 2 ^ k < quanta + 2 ^ k := by
    rw [hunit] at hclose
    refine Nat.lt_of_mul_lt_mul_right (a := den) ?_
    calc 2 ^ 53 * 2 ^ k * den ≤ num := hstart
      _ < quanta * den + 2 ^ k * den := by
          have hdouble : 2 * 2 ^ k * den = 2 * (2 ^ k * den) := Nat.mul_assoc ..
          omega
      _ = (quanta + 2 ^ k) * den := (Nat.add_mul ..).symm
  have hpos := Nat.two_pow_pos k
  have hzero : quanta ≠ 0 := by omega
  have hbelow : quanta < 2 ^ 53 * 2 ^ k := by
    have hlt := (Nat.log2_lt hzero).1 (by omega : quanta.log2 < k + 53)
    rwa [Nat.pow_add, Nat.mul_comm] at hlt
  have hoctave : k + 52 ≤ quanta.log2 := by
    refine (Nat.le_log2 hzero).2 ?_
    rw [Nat.pow_add, Nat.mul_comm]
    omega
  obtain ⟨n, hn⟩ : 2 ^ k ∣ quanta := by
    refine Nat.dvd_trans (Nat.pow_dvd_pow 2 ?_) h
    omega
  rw [hn, Nat.mul_comm (2 ^ k)] at hbelow hnear
  have hlt := Nat.lt_of_mul_lt_mul_right hbelow
  have hle : (n + 1) * 2 ^ k ≤ 2 ^ 53 * 2 ^ k := Nat.mul_le_mul_right _ hlt
  rw [Nat.succ_mul] at hle
  omega

/-- The nearest whole number is determined by lying less than a half away. -/
theorem roundHalfEven_of_close {n : Nat} (hden : 0 < den) (habove : 2 * num < 2 * (n * den) + den)
    (hbelow : 2 * (n * den) < 2 * num + den) : roundHalfEven num den = n := by
  have hnearest : Nearest num den n := ⟨habove.le, hbelow.le, by omega, by omega⟩
  have hrounded := nearest_roundHalfEven num hden
  exact Nat.le_antisymm (hrounded.le hnearest hden hden le_rfl)
    (hnearest.le hrounded hden hden le_rfl)

/-- A double that lies less than half the spacing from a quotient is the one that the quotient
is rounded to. -/
theorem roundQuanta_of_close (hden : 0 < den) (h : Representable quanta)
    (habove : 2 * num < 2 * (quanta * den) + spacing (num / den) * den)
    (hbelow : 2 * (quanta * den) < 2 * num + spacing (num / den) * den) :
    roundQuanta num den = quanta := by
  obtain ⟨n, hn⟩ := spacing_dvd_of_close hden h habove
  have hunit := Nat.mul_pos hden (spacing_pos (num / den))
  have hcount : n * (den * spacing (num / den)) = quanta * den := by
    conv_rhs => rw [hn]
    ring
  have hcomm := Nat.mul_comm (spacing (num / den)) den
  have hrounded : roundHalfEven num (den * spacing (num / den)) = n :=
    roundHalfEven_of_close hunit (by omega) (by omega)
  rw [roundQuanta, hrounded, Nat.mul_comm, ← hn]

/-! ## Digits behind the point -/

theorem one_eq : one = twoTo quantumPlace := by decide +kernel

/-- A hundred times the spacing is no power of two. -/
theorem spacing_mul_hundred_ne (n : Nat) {m k : Nat} (hm : m = twoTo k) : spacing n * 100 ≠ m := by
  rintro rfl
  have hfive : 5 ∣ twoTo k := by
    refine ⟨spacing n * 20, ?_⟩
    rw [← hm]
    ring
  exact absurd (Nat.prime_five.dvd_of_dvd_pow hfive) (by decide)

theorem twoTo_le_spacing {n k : Nat} (h : k + 52 ≤ n.log2) : twoTo k ≤ spacing n :=
  Nat.pow_le_pow_right (by decide) (by omega)

variable {units : Nat}

/-- The double nearest to the digits that are shown of a double: it is this double where the
spacing is wider than the digits, and shows them where it is not. -/
theorem roundQuanta_of_shown (h : Representable quanta)
    (hunits : Nearest (quanta * 100) one units) :
    roundQuanta (units * one) 100 = quanta ∨
      roundHalfEven (roundQuanta (units * one) 100 * 100) one = units ∧
        spacing (units * one / 100) * 100 < one := by
  have habove := hunits.above
  have hbelow := hunits.below
  rcases Nat.lt_or_gt_of_ne 
      (spacing_mul_hundred_ne (units * one / 100) one_eq) with hnarrow | hwide
  · refine .inr ⟨?_, hnarrow⟩
    have hpos := Nat.mul_pos (by decide : 0 < 100) (spacing_pos (units * one / 100))
    have hnearest := nearest_roundHalfEven (units * one) hpos
    have hcount : roundQuanta (units * one) 100 * 100 =
        roundHalfEven (units * one) (100 * spacing (units * one / 100)) *
          (100 * spacing (units * one / 100)) := by
      rw [roundQuanta]
      ring
    have habove' := hnearest.above
    have hbelow' := hnearest.below
    rw [← hcount] at habove' hbelow'
    exact roundHalfEven_of_close one_pos (by omega) (by omega)
  · exact .inl (roundQuanta_of_close (by decide) h (by omega) (by omega))

/-- Where digits are wider than the spacing, numbers are finite. -/
theorem roundQuanta_lt_limit {num den k : Nat} (hden : 0 < den)
    (h : spacing (num / den) < twoTo k) (hk : twoTo (k + 52) < limit) :
    roundQuanta num den < limit := by
  have hlog : (num / den).log2 < k + 52 := by
    by_contra hlarge
    exact Nat.not_le.2 h (twoTo_le_spacing (Nat.not_lt.1 hlarge))
  have hquot : num / den < twoTo (k + 52) := by
    by_cases hzero : num / den = 0
    · rw [hzero]
      exact Nat.two_pow_pos _
    · exact (Nat.log2_lt hzero).1 hlog
  have hle : num ≤ twoTo (k + 52) * den := Nat.le_of_lt ((Nat.div_lt_iff_lt_mul hden).1 hquot)
  exact Nat.lt_of_le_of_lt (roundQuanta_le_twoTo hden hle) hk

/-- The double nearest to the digits that are shown of a double is finite and shows them. -/
theorem shown_roundQuanta (h : Representable quanta) (hfinite : quanta < limit)
    (hunits : fixedUnits Column.moneyPlaces quanta = units) :
    roundQuanta (units * one) 100 < limit ∧
      fixedUnits Column.moneyPlaces (roundQuanta (units * one) 100) = units := by
  have hnearest : Nearest (quanta * 100) one units := hunits ▸ nearest_roundHalfEven _ one_pos
  rcases roundQuanta_of_shown h hnearest with hsame | ⟨hshown, hnarrow⟩
  · rw [hsame]
    exact ⟨hfinite, hunits⟩
  · rw [one_eq] at hnarrow
    have hspacing : spacing (units * one / 100) < twoTo quantumPlace := by
      rw [one_eq]
      omega
    exact ⟨roundQuanta_lt_limit (by decide) hspacing (by decide +kernel), hshown⟩

/-- Quotients are rounded to doubles below the limit. -/
theorem representable_of_ofQuotient {negative negative' : Bool} (hden : 0 < den)
    (h : ofQuotient negative num den = .finite negative' quanta) :
    Representable quanta ∧ quanta < limit := by
  rw [ofQuotient] at h
  split at h
  · next hlimit =>
    cases h
    exact ⟨representable_roundQuanta _ hden, hlimit⟩
  · cases h

end Binary64

/-! ## Numbers that are written back -/

namespace Decimal

/-- The double nearest to a decimal is one. -/
theorem representable_of_toBinary64 {d : Decimal} {negative : Bool} {quanta : Nat}
    (h : d.toBinary64 = .finite negative quanta) :
    Binary64.Representable quanta ∧ quanta < Binary64.limit := by
  have hzero : Binary64.Representable 0 ∧ 0 < Binary64.limit := by decide +kernel
  cases d with
  | infinite => cases h
  | nan => cases h
  | finite negative c x =>
      simp only [toBinary64] at h
      split at h
      · cases h
        exact hzero
      · split at h
        · cases h
        · split at h
          · cases h
            exact hzero
          · exact Binary64.representable_of_ofQuotient (Nat.pow_pos (by decide)) h

/-- Zeros that are added on the right are taken off the exponent. -/
theorem magnitude_mul_tenTo (c k : Nat) (x : Int) :
    magnitude (c * tenTo k) x = magnitude c (x + k) := by
  have hpow : ((tenTo k : Nat) : ℚ) = 10 ^ k := by
    rw [← Nat.cast_ofNat, ← Nat.cast_pow]
    rfl
  rw [magnitude, magnitude, Nat.cast_mul, hpow, zpow_add₀ (by norm_num), zpow_natCast]
  ring

/-- Decimals that are equal as numbers and not zero have one sign and one magnitude. -/
theorem magnitude_of_numEq {negative negative' : Bool} {c c' : Nat} {x x' : Int} (hc' : c' ≠ 0)
    (h : numEq (finite negative c x) (finite negative' c' x') = true) :
    negative = negative' ∧ c ≠ 0 ∧ magnitude c x = magnitude c' x' := by
  simp only [numEq, hc', Bool.or_eq_true, Bool.and_eq_true, decide_eq_true_eq, and_false,
    false_or, ne_eq, not_false_eq_true, and_true] at h
  obtain ⟨⟨⟨hsign, hc⟩, -⟩, hdigits⟩ := h
  refine ⟨hsign, hc, ?_⟩
  have hunit : tenTo 0 = 1 := rfl
  rcases le_total x' x with hle | hle
  · have hmore : x = x' + (x - x').toNat := by omega
    have hnone : (x' - x).toNat = 0 := by omega
    rw [hnone, hunit, Nat.mul_one] at hdigits
    rw [← hdigits, magnitude_mul_tenTo, ← hmore]
  · have hmore : x' = x + (x' - x).toNat := by omega
    have hnone : (x - x').toNat = 0 := by omega
    rw [hnone, hunit, Nat.mul_one] at hdigits
    rw [hdigits, magnitude_mul_tenTo, ← hmore]

end Decimal

namespace Column

open Binary64

/-- What is shown of a double without a sign that shows more than zero. -/
theorem shownDouble_of_units {quanta units : Nat} (hunits : fixedUnits moneyPlaces quanta = units)
    (hpos : units ≠ 0) :
    shownDouble moneyPlaces (.finite false quanta) = some (.finite false units (-2)) := by
  cases quanta with
  | zero =>
      have hzero : fixedUnits moneyPlaces 0 = 0 := by decide +kernel
      exact absurd (hunits.symm.trans hzero) hpos
  | succ n => rw [← hunits]; rfl

/-- A number that is shown, and is not zero, is shown with two digits of a double. -/
theorem shown_finite {x : Binary64} {negative : Bool} {units : Nat} {exponent : Int}
    (h : shownDouble moneyPlaces x = some (.finite negative units exponent)) (hpos : units ≠ 0) :
    exponent = -2 ∧ ∃ quanta, x = .finite negative quanta ∧
      fixedUnits moneyPlaces quanta = units := by
  cases x with
  | nan => cases h
  | infinite => cases h
  | finite sign quanta =>
      cases quanta with
      | zero =>
          have hzero : fixedUnits moneyPlaces 0 = 0 := by decide +kernel
          cases h
          exact absurd hzero hpos
      | succ n =>
          cases h
          exact ⟨rfl, n + 1, rfl, rfl⟩

/-- Two digits of a finite double stay far below the numbers that are too large to convert. -/
theorem units_le {quanta units : Nat} (hfinite : quanta < limit)
    (hunits : fixedUnits moneyPlaces quanta = units) : units ≤ 10 ^ 400 * 100 := by
  have hnearest : Nearest (quanta * 100) one units :=
    hunits ▸ nearest_roundHalfEven _ Binary64.one_pos
  have hbelow := hnearest.below
  have hlimit : 2 * (limit * 100) + one ≤ 2 * (10 ^ 400 * 100 * one) := by decide +kernel
  refine Nat.le_of_mul_le_mul_right (c := one) ?_ Binary64.one_pos
  generalize limit = bound at hfinite hlimit
  generalize one = unit at hbelow hlimit ⊢
  omega

theorem numeric_finite (places : Nat) (negative : Bool) (c : Nat) (x : Int) :
    numeric places (.finite negative c x) =
      .ok (shownDouble places (Decimal.toBinary64 (.finite negative c x))) := rfl

/-- Digits that are shown of a double are converted to a double that shows them. -/
theorem numeric_of_magnitude {quanta units c : Nat} {x : Int} (h : Representable quanta)
    (hfinite : quanta < limit) (hunits : fixedUnits moneyPlaces quanta = units)
    (hpos : units ≠ 0) (hmagnitude : Decimal.magnitude c x = units / (100 : Nat)) :
    numeric moneyPlaces (.finite false c x) = .ok (some (.finite false units (-2))) := by
  have hone : (1 : ℚ) ≤ units := by exact_mod_cast Nat.one_le_iff_ne_zero.2 hpos
  have hlow : (10 : ℚ) ^ (-400 : ℤ) ≤ units / (100 : Nat) := by
    calc (10 : ℚ) ^ (-400 : ℤ) ≤ 10 ^ (-2 : ℤ) := by
          rw [zpow_le_zpow_iff_right₀ (by norm_num)]
          norm_num
      _ = 1 / (100 : Nat) := by norm_num
      _ ≤ units / (100 : Nat) := by gcongr
  have hhigh : (units : ℚ) / (100 : Nat) ≤ 10 ^ 400 := by
    rw [div_le_iff₀ (by norm_num)]
    exact_mod_cast units_le hfinite hunits
  obtain ⟨hbelow, hshown⟩ := shown_roundQuanta h hfinite hunits
  have hdouble : Decimal.toBinary64 (.finite false c x) =
      .finite false (roundQuanta (units * one) 100) := by
    rw [Decimal.toBinary64_of_magnitude (by decide) (hmagnitude ▸ hlow) (hmagnitude ▸ hhigh)
      hmagnitude, ofQuotient, if_pos hbelow]
  rw [numeric_finite, hdouble, shownDouble_of_units hshown hpos]

/-- What a column shows it keeps: a positive number that equals the one shown is shown as it
is. -/
theorem numeric_of_shown {d d' q : Decimal} (hshown : numeric moneyPlaces d = .ok (some q))
    (hpositive : d'.IsPositive) (hsame : q.numEq d' = true) :
    numeric moneyPlaces d' = .ok (some q) := by
  have hdouble : shownDouble moneyPlaces d.toBinary64 = some q := by
    unfold numeric at hshown
    split at hshown
    · cases hshown
    · exact Except.ok.inj hshown
  cases d' with
  | nan => exact hpositive.elim
  | infinite negative' =>
      obtain rfl : negative' = false := hpositive
      cases q with
      | infinite negative =>
          obtain rfl : negative = false := of_decide_eq_true hsame
          rfl
      | finite => cases hsame
      | nan => cases hsame
  | finite negative' c x =>
      obtain ⟨rfl, hc⟩ := hpositive
      cases q with
      | infinite => cases hsame
      | nan => cases hsame
      | finite negative units exponent =>
          obtain ⟨rfl, hpos, hmagnitude⟩ := Decimal.magnitude_of_numEq hc hsame
          obtain ⟨rfl, quanta, hx, hunits⟩ := shown_finite hdouble hpos
          obtain ⟨hrepresentable, hfinite⟩ := Decimal.representable_of_toBinary64 hx
          refine numeric_of_magnitude hrepresentable hfinite hunits hpos ?_
          rw [← hmagnitude, Decimal.magnitude]
          norm_num [div_eq_mul_inv]

end Column

end VaultGovernance
