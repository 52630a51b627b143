import Mathlib.Algebra.Order.Field.Power
import Mathlib.Tactic.NormNum
import Mathlib.Tactic.Positivity
import VaultGovernance.Number.Decimal
import VaultGovernance.Proofs.Nearest

/-!
# VaultGovernance.Proofs.Magnitude

Which number a decimal is, and the double nearest to it.  Conversion looks at the place
of the first digit before it rounds, to leave out numbers that are far too large or too
small; the place of the first digit encloses the number between two powers of ten, so
numbers of any ordinary size are rounded.
-/

namespace VaultGovernance

namespace Decimal

/-! ## The place of the first digit -/

theorem digitCount_pos (n : Nat) : 0 < digitCount n := Nat.length_toDigits_pos

/-- A coefficient is below the power of ten with as many zeros as it has digits. -/
theorem lt_pow_digitCount (n : Nat) : n < 10 ^ digitCount n :=
  (Nat.length_toDigits_le_iff (by decide) (digitCount_pos n)).1 le_rfl

/-- A coefficient reaches the power of ten with as many digits. -/
theorem pow_le_of_digitCount {n : Nat} (hn : n ≠ 0) : 10 ^ (digitCount n - 1) ≤ n := by
  by_cases hone : digitCount n = 1
  · rw [hone]
    exact Nat.one_le_iff_ne_zero.2 hn
  · have hpos := digitCount_pos n
    by_contra hlt
    have hshort : digitCount n ≤ digitCount n - 1 :=
      (Nat.length_toDigits_le_iff (by decide) (by omega)).2 (Nat.not_le.1 hlt)
    omega

/-- The magnitude of the number with a coefficient and an exponent. -/
def magnitude (coefficient : Nat) (exponent : Int) : ℚ := coefficient * 10 ^ exponent

theorem pow_leadingExponent_le {c : Nat} (hc : c ≠ 0) (x : Int) :
    (10 : ℚ) ^ leadingExponent c x ≤ magnitude c x := by
  have hpos := digitCount_pos c
  have hsplit : leadingExponent c x = (digitCount c - 1 : Nat) + x := by
    unfold leadingExponent
    omega
  have hlow : (10 : ℚ) ^ (digitCount c - 1) ≤ c := by exact_mod_cast pow_le_of_digitCount hc
  rw [hsplit, zpow_add₀ (by norm_num), zpow_natCast, magnitude]
  exact mul_le_mul_of_nonneg_right hlow (by positivity)

theorem magnitude_lt_pow (c : Nat) (x : Int) :
    magnitude c x < (10 : ℚ) ^ (leadingExponent c x + 1) := by
  have hsplit : leadingExponent c x + 1 = digitCount c + x := by
    unfold leadingExponent
    omega
  have hhigh : (c : ℚ) < 10 ^ digitCount c := by exact_mod_cast lt_pow_digitCount c
  rw [hsplit, zpow_add₀ (by norm_num), zpow_natCast, magnitude]
  exact mul_lt_mul_of_pos_right hhigh (by positivity)

/-! ## The nearest double -/

/-- A magnitude is the quotient that conversion rounds. -/
theorem magnitude_eq_div (c : Nat) (x : Int) :
    magnitude c x = ((c * tenTo x.toNat : Nat) : ℚ) / (tenTo (-x).toNat : Nat) := by
  have hpow (k : Nat) : ((tenTo k : Nat) : ℚ) = 10 ^ k := by
    rw [← Nat.cast_ofNat, ← Nat.cast_pow]
    rfl
  rw [magnitude, Nat.cast_mul, hpow, hpow]
  rcases le_total 0 x with hx | hx
  · have hzero : (-x).toNat = 0 := by omega
    have hsame : x = (x.toNat : Int) := by omega
    rw [hzero, pow_zero, div_one]
    conv_lhs => rw [hsame, zpow_natCast]
  · have hzero : x.toNat = 0 := by omega
    have hsame : x = -((-x).toNat : Int) := by omega
    rw [hzero, pow_zero, mul_one, div_eq_mul_inv]
    conv_lhs => rw [hsame, zpow_neg, zpow_natCast]

/-- A number of ordinary size is converted to the double nearest to its quotient. -/
theorem toBinary64_of_magnitude {negative : Bool} {c num den : Nat} {x : Int} (hden : 0 < den)
    (hlow : (10 : ℚ) ^ (-400 : ℤ) ≤ magnitude c x) (hhigh : magnitude c x ≤ 10 ^ 400)
    (h : magnitude c x = (num : ℚ) / den) :
    toBinary64 (finite negative c x) = .ofQuotient negative num den := by
  have hc : c ≠ 0 := by
    rintro rfl
    have hpos : (0 : ℚ) < 10 ^ (-400 : ℤ) := by positivity
    rw [magnitude, Nat.cast_zero, zero_mul] at hlow
    exact absurd hlow (not_le.2 hpos)
  have hbelow : ¬ 400 < leadingExponent c x := by
    intro hlarge
    have hle := (pow_leadingExponent_le hc x).trans hhigh
    rw [← zpow_natCast, zpow_le_zpow_iff_right₀ (by norm_num)] at hle
    have hcast : ((400 : Nat) : Int) = 400 := rfl
    omega
  have habove : ¬ leadingExponent c x < -400 := by
    intro hsmall
    have hlt := hlow.trans_lt (magnitude_lt_pow c x)
    rw [zpow_lt_zpow_iff_right₀ (by norm_num)] at hlt
    omega
  have hpow : 0 < tenTo (-x).toNat := Nat.pow_pos (by decide)
  have hquot : c * tenTo x.toNat * den = num * tenTo (-x).toNat := by
    rw [magnitude_eq_div, div_eq_div_iff (by positivity) (by positivity)] at h
    exact_mod_cast h
  have hround : Binary64.roundQuanta (c * tenTo x.toNat * Binary64.one) (tenTo (-x).toNat) =
      Binary64.roundQuanta (num * Binary64.one) den := by
    refine Binary64.roundQuanta_congr hpow hden ?_
    calc c * tenTo x.toNat * Binary64.one * den
        = c * tenTo x.toNat * den * Binary64.one := by ring
      _ = num * tenTo (-x).toNat * Binary64.one := by rw [hquot]
      _ = num * Binary64.one * tenTo (-x).toNat := by ring
  simp only [toBinary64, if_neg hc, if_neg hbelow, if_neg habove, Binary64.ofQuotient, hround]

end Decimal

end VaultGovernance
