import Mathlib.Algebra.Order.Floor.Semifield
import Mathlib.Algebra.Order.Ring.Abs
import Mathlib.Data.Rat.Floor
import VaultGovernance.Proofs.Magnitude

/-!
# VaultGovernance.Proofs.Significant

What decimal arithmetic computes, as rational numbers.  Comparing with a power of ten and
cutting toward zero are exact however many digits a number has.  A product is rounded: of
the multiples of a unit in the place of its last significant digit it becomes the nearest
one (`Rounds`), so numbers with few enough digits stay as they are, and others may go up to
the next whole number before they are cut.  `Rounds.towardZero_eq` says when they do.
-/

namespace VaultGovernance

/-! ## Toward zero -/

/-- The integer part of a number, toward zero. -/
def towardZero (q : ℚ) : Int := if 0 ≤ q then ⌊q⌋ else ⌈q⌉

/-- The next whole number, away from zero. -/
def awayFromZero (q : ℚ) : Int := if 0 ≤ q then towardZero q + 1 else towardZero q - 1

/-- A number with a sign. -/
def signed (negative : Bool) (m : ℚ) : ℚ := if negative then -m else m

theorem towardZero_of_nonneg {q : ℚ} (h : 0 ≤ q) : towardZero q = ⌊q⌋ := if_pos h

theorem towardZero_neg (q : ℚ) : towardZero (-q) = -towardZero q := by
  unfold towardZero
  rcases lt_trichotomy q 0 with h | rfl | h
  · rw [if_pos (neg_nonneg.2 h.le), if_neg (not_le.2 h), Int.floor_neg]
  · simp
  · rw [if_neg (not_le.2 (neg_neg_of_pos h)), if_pos h.le, Int.ceil_neg]

theorem awayFromZero_neg {q : ℚ} (h : 0 < q) : awayFromZero (-q) = -awayFromZero q := by
  unfold awayFromZero
  rw [if_neg (not_le.2 (neg_neg_of_pos h)), if_pos h.le, towardZero_neg]
  omega

theorem towardZero_signed {negative : Bool} {m : ℚ} (h : 0 ≤ m) :
    towardZero (signed negative m) = signedInt negative ⌊m⌋₊ := by
  have hfloor : towardZero m = (⌊m⌋₊ : Int) := by
    rw [towardZero_of_nonneg h, Int.natCast_floor_eq_floor h]
  cases negative with
  | false => exact hfloor
  | true =>
      show towardZero (-m) = -(⌊m⌋₊ : Int)
      rw [towardZero_neg, hfloor]

theorem abs_signed (negative : Bool) (m : ℚ) : |signed negative m| = |m| := by
  cases negative with
  | false => rfl
  | true => exact abs_neg m

/-! ## Significant digits -/

/-- A multiple of a unit that is nearest to a number, and an even one where two are equally
near. -/
structure NearestMultiple (p u : ℚ) (n : ℤ) : Prop where
  near : 2 * |p - n * u| ≤ u
  even : 2 * |p - n * u| = u → Even n

/-- The second number is the first one with as many significant digits as arithmetic
keeps: the nearest multiple of a unit in the place of the last of them. -/
inductive Rounds : ℚ → ℚ → Prop
  | zero : Rounds 0 0
  | nonzero {p : ℚ} (e n : ℤ) (first : (10 : ℚ) ^ e ≤ |p|) (below : |p| < (10 : ℚ) ^ (e + 1))
      (nearest : NearestMultiple p ((10 : ℚ) ^ (e - 27)) n) :
      Rounds p (n * (10 : ℚ) ^ (e - 27))

/-- A number of so few digits that arithmetic keeps all of them. -/
def IsShort (p : ℚ) : Prop := ∃ k e : ℤ, |k| < 10 ^ Decimal.precision ∧ p = k * (10 : ℚ) ^ e

/-- A number within half a unit of the place of its last significant digit from the next
whole number away from zero. -/
def RoundsUp (p : ℚ) : Prop :=
  ∃ e : ℤ, (10 : ℚ) ^ e ≤ |p| ∧ |p| < (10 : ℚ) ^ (e + 1) ∧
    2 * |p - awayFromZero p| ≤ (10 : ℚ) ^ (e - 27)

/-- A power of ten is a multiple of a smaller one. -/
theorem pow_eq_multiple (e : ℤ) (k : ℕ) :
    (10 : ℚ) ^ (e + k) = ((10 ^ k : ℤ) : ℚ) * 10 ^ e := by
  rw [zpow_add₀ (by norm_num), zpow_natCast, mul_comm]
  norm_cast

/-- The place of a first digit is determined. -/
theorem place_unique {m : ℚ} {e f : ℤ} (he : (10 : ℚ) ^ e ≤ m) (he' : m < (10 : ℚ) ^ (e + 1))
    (hf : (10 : ℚ) ^ f ≤ m) (hf' : m < (10 : ℚ) ^ (f + 1)) : e = f := by
  have hlow := (zpow_lt_zpow_iff_right₀ (by norm_num)).1 (he.trans_lt hf')
  have hhigh := (zpow_lt_zpow_iff_right₀ (by norm_num)).1 (hf.trans_lt he')
  omega

namespace NearestMultiple

variable {p u : ℚ} {n m : ℤ}

theorem self (n : ℤ) (hu : 0 < u) : NearestMultiple (n * u) u n := by
  refine ⟨?_, fun htie => ?_⟩
  · rw [sub_self, abs_zero, mul_zero]
    exact hu.le
  · rw [sub_self, abs_zero, mul_zero] at htie
    exact absurd htie hu.ne

theorem neg (h : NearestMultiple p u n) : NearestMultiple (-p) u (-n) := by
  have hdistance : |-p - (-n : ℤ) * u| = |p - n * u| := by
    rw [← abs_neg]
    congr 1
    push_cast
    ring
  refine ⟨?_, fun htie => (h.even (hdistance ▸ htie)).neg⟩
  rw [hdistance]
  exact h.near

/-- A number lies within half a unit of its nearest multiple. -/
theorem bounds (h : NearestMultiple p u n) : n * u - u / 2 ≤ p ∧ p ≤ n * u + u / 2 := by
  have hnear := h.near
  obtain ⟨hlow, hhigh⟩ := abs_le.1 (show |p - n * u| ≤ u / 2 by linarith)
  constructor <;> linarith

/-- A multiple that a number has reached is not above the nearest one. -/
theorem le_of_le (h : NearestMultiple p u n) (hu : 0 < u) (hm : m * u ≤ p) : m ≤ n := by
  have hlt : (m : ℚ) * u < (n + 1) * u := by
    have hhigh := h.bounds.2
    linarith
  have hlt' : m < n + 1 := by exact_mod_cast lt_of_mul_lt_mul_right hlt hu.le
  omega

/-- A multiple that a number has not passed is not below the nearest one. -/
theorem ge_of_ge (h : NearestMultiple p u n) (hu : 0 < u) (hm : p ≤ m * u) : n ≤ m := by
  have hle := h.neg.le_of_le hu (m := -m) (by push_cast; linarith)
  omega

/-- An even multiple that a number has come within half a unit of is not above the nearest
one: from half way on a number is rounded up to it. -/
theorem le_of_half_le (h : NearestMultiple p u n) (hu : 0 < u) (hm : Even m)
    (hclose : m * u - u / 2 ≤ p) : m ≤ n := by
  by_contra hlt
  have hle : ((n + 1 : ℤ) : ℚ) * u ≤ m * u :=
    mul_le_mul_of_nonneg_right (by exact_mod_cast Int.add_one_le_of_lt (not_le.1 hlt)) hu.le
  have hhigh := h.bounds.2
  push_cast at hle
  -- The number would lie half way to an odd multiple.
  have htie : p - n * u = u / 2 := by linarith
  have hnext : (m : ℚ) = (n + 1 : ℤ) := by
    refine mul_right_cancel₀ hu.ne' ?_
    push_cast
    linarith
  have hodd : m = n + 1 := by exact_mod_cast hnext
  have hneven : Even n := h.even (by rw [htie, abs_of_pos (by linarith)]; ring)
  exact absurd (hodd ▸ hm) (Int.not_even_iff_odd.2 hneven.add_one)

theorem abs (h : NearestMultiple p u n) (hu : 0 < u) : NearestMultiple |p| u |n| := by
  rcases le_total 0 p with hp | hp
  · rwa [abs_of_nonneg hp, abs_of_nonneg (h.le_of_le hu (by simpa using hp))]
  · have hn : n ≤ 0 := h.ge_of_ge hu (by simpa using hp)
    rw [abs_of_nonpos hp, abs_of_nonpos hn]
    exact h.neg

end NearestMultiple

theorem Rounds.neg {p r : ℚ} (h : Rounds p r) : Rounds (-p) (-r) := by
  cases h with
  | zero => simpa using Rounds.zero
  | nonzero e n first below nearest =>
      have hneg : -(n * (10 : ℚ) ^ (e - 27)) = (-n : ℤ) * (10 : ℚ) ^ (e - 27) := by
        push_cast
        ring
      rw [hneg]
      exact .nonzero e (-n) (by rwa [abs_neg]) (by rwa [abs_neg]) nearest.neg

/-- A short number is left as it is. -/
theorem Rounds.eq_of_isShort {p r : ℚ} (h : Rounds p r) (hp : IsShort p) : r = p := by
  cases h with
  | zero => rfl
  | nonzero e n first below nearest =>
      obtain ⟨k, x, hk, rfl⟩ := hp
      have hunit : (0 : ℚ) < 10 ^ (e - 27) := by positivity
      have hplace : e - 27 ≤ x := by
        have hkey : (10 : ℚ) ^ e < 10 ^ (28 + x) := by
          rw [zpow_add₀ (by norm_num)]
          refine first.trans_lt ?_
          rw [abs_mul, abs_of_pos (a := (10 : ℚ) ^ x) (by positivity)]
          have hk' : |(k : ℚ)| < 10 ^ (28 : ℤ) := by exact_mod_cast hk
          exact mul_lt_mul_of_pos_right hk' (by positivity)
        have := (zpow_lt_zpow_iff_right₀ (by norm_num)).1 hkey
        omega
      obtain ⟨j, rfl⟩ : ∃ j : ℕ, x = e - 27 + j := ⟨(x - (e - 27)).toNat, by omega⟩
      have hmultiple : (k : ℚ) * 10 ^ (e - 27 + (j : ℤ)) =
          ((k * 10 ^ j : ℤ) : ℚ) * 10 ^ (e - 27) := by
        rw [pow_eq_multiple, Int.cast_mul, mul_assoc]
      rw [hmultiple] at nearest ⊢
      rw [le_antisymm (nearest.ge_of_ge hunit le_rfl) (nearest.le_of_le hunit le_rfl)]

/-- Multiplying with a power of ten keeps the digits. -/
theorem IsShort.mul_pow {p : ℚ} (h : IsShort p) (n : ℕ) : IsShort (p * 10 ^ n) := by
  obtain ⟨k, e, hk, rfl⟩ := h
  exact ⟨k, e + n, hk, by rw [zpow_add₀ (by norm_num), zpow_natCast, mul_assoc]⟩

/-- Rounding changes a number by no more than half of it. -/
theorem Rounds.two_mul_abs_sub_le {p r : ℚ} (h : Rounds p r) : 2 * |p - r| ≤ |p| := by
  cases h with
  | zero => simp
  | nonzero e n first below nearest =>
      have hunit : (10 : ℚ) ^ (e - 27) ≤ 10 ^ e := zpow_le_zpow_right₀ (by norm_num) (by omega)
      exact nearest.near.trans (hunit.trans first)

/-- The upper bound of a first digit is an even multiple of the unit of the last one. -/
theorem first_place_bound (e : ℤ) :
    (10 : ℚ) ^ (e + 1) = ((10 ^ 28 : ℤ) : ℚ) * 10 ^ (e - 27) := by
  rw [← pow_eq_multiple]
  congr 1
  omega

/-- Rounding does not take a number out of the bounds of its first digit, but may take it
to the upper one. -/
theorem NearestMultiple.place {p : ℚ} {e n : ℤ} (h : NearestMultiple p (10 ^ (e - 27)) n)
    (first : (10 : ℚ) ^ e ≤ |p|) (below : |p| < (10 : ℚ) ^ (e + 1)) :
    (10 : ℚ) ^ e ≤ |n * (10 : ℚ) ^ (e - 27)| ∧
      |n * (10 : ℚ) ^ (e - 27)| ≤ (10 : ℚ) ^ (e + 1) := by
  have hunit : (0 : ℚ) < 10 ^ (e - 27) := by positivity
  have habs := h.abs hunit
  have hplace : (10 : ℚ) ^ e = (10 ^ 27 : ℤ) * 10 ^ (e - 27) := by
    rw [← pow_eq_multiple]
    norm_num
  have hnext := first_place_bound e
  rw [abs_mul, abs_of_pos hunit, ← Int.cast_abs]
  constructor
  · rw [hplace]
    exact mul_le_mul_of_nonneg_right
      (by exact_mod_cast habs.le_of_le hunit (hplace ▸ first)) hunit.le
  · rw [hnext]
    exact mul_le_mul_of_nonneg_right
      (by exact_mod_cast habs.ge_of_ge hunit (hnext ▸ below.le)) hunit.le

/-- A rounded number gets to the upper bound of its first digit from half a unit below it
on: half way is rounded up, since the bound is an even multiple of the unit. -/
theorem NearestMultiple.pow_le_abs_iff {p : ℚ} {e n : ℤ}
    (h : NearestMultiple p (10 ^ (e - 27)) n) :
    (10 : ℚ) ^ (e + 1) ≤ |n * (10 : ℚ) ^ (e - 27)| ↔
      (10 : ℚ) ^ (e + 1) - 10 ^ (e - 27) / 2 ≤ |p| := by
  have hunit : (0 : ℚ) < 10 ^ (e - 27) := by positivity
  have habs := h.abs hunit
  have hnext := first_place_bound e
  rw [abs_mul, abs_of_pos hunit, ← Int.cast_abs]
  constructor
  · intro hreached
    have hbounds := habs.bounds.1
    linarith
  · intro hclose
    rw [hnext] at hclose ⊢
    have hreached := habs.le_of_half_le hunit (by decide) hclose
    exact mul_le_mul_of_nonneg_right (by exact_mod_cast hreached) hunit.le

/-- A rounded number reaches a power of ten from half a unit below it on. -/
theorem Rounds.pow_le_abs_iff {p r : ℚ} (h : Rounds p r) (k : ℤ) :
    (10 : ℚ) ^ (k + 1) ≤ |r| ↔ (10 : ℚ) ^ (k + 1) - 10 ^ (k - 27) / 2 ≤ |p| := by
  have hten : (10 : ℚ) ^ (k + 1) = 10 * 10 ^ k := by rw [zpow_add_one₀ (by norm_num), mul_comm]
  have hpow : (0 : ℚ) < 10 ^ k := by positivity
  have hunit : (0 : ℚ) < 10 ^ (k - 27) := by positivity
  have hunit_le : (10 : ℚ) ^ (k - 27) ≤ 10 ^ k := zpow_le_zpow_right₀ (by norm_num) (by omega)
  cases h with
  | zero =>
      rw [abs_zero]
      exact iff_of_false (by linarith) (by linarith)
  | nonzero e n first below nearest =>
      obtain ⟨hleast, hmost⟩ := nearest.place first below
      rcases lt_trichotomy e k with hek | rfl | hek
      · have hle : (10 : ℚ) ^ (e + 1) ≤ 10 ^ k := zpow_le_zpow_right₀ (by norm_num) (by omega)
        exact iff_of_false (by linarith) (by linarith)
      · exact nearest.pow_le_abs_iff
      · have hle : (10 : ℚ) ^ (k + 1) ≤ 10 ^ e := zpow_le_zpow_right₀ (by norm_num) (by omega)
        exact iff_of_true (by linarith) (by linarith)

/-! ## Cutting a rounded number -/

/-- Cutting a multiple of a unit that is nearest to a number: it gives one more than cutting
the number where that is within half a unit of the next whole number.  Whole numbers are
even multiples of the unit, so a number just half way is rounded up to them. -/
theorem floor_nearest_multiple {p u : ℚ} {n N : ℤ} (hu : 0 < u) (hN : N * u = 1) (hNeven : Even N)
    (h : NearestMultiple p u n) :
    (2 * |p - (⌊p⌋ + 1)| ≤ u → ⌊n * u⌋ = ⌊p⌋ + 1) ∧ (u < 2 * |p - (⌊p⌋ + 1)| → ⌊n * u⌋ = ⌊p⌋) := by
  have hlow : (⌊p⌋ : ℚ) ≤ p := Int.floor_le p
  have hhigh : p < ⌊p⌋ + 1 := Int.lt_floor_add_one p
  have hgap : |p - (⌊p⌋ + 1)| = ⌊p⌋ + 1 - p := by rw [abs_of_neg (by linarith), neg_sub]
  have hwhole (m : ℤ) : ((m * N : ℤ) : ℚ) * u = m := by rw [Int.cast_mul, mul_assoc, hN, mul_one]
  have hnext : (((⌊p⌋ + 1) * N : ℤ) : ℚ) * u = ⌊p⌋ + 1 := by rw [hwhole]; push_cast; rfl
  -- The multiple lies between the whole numbers around the number.
  have hleast : ⌊p⌋ * N ≤ n := h.le_of_le hu (by rwa [hwhole])
  have hmost : n ≤ (⌊p⌋ + 1) * N := h.ge_of_ge hu (by rw [hnext]; exact hhigh.le)
  rw [hgap]
  constructor
  · intro hclose
    have hreached : (⌊p⌋ + 1) * N ≤ n :=
      h.le_of_half_le hu (hNeven.mul_left _) (by rw [hnext]; linarith)
    rw [le_antisymm hmost hreached, hwhole, Int.floor_intCast]
  · intro hfar
    rw [Int.floor_eq_iff, ← hwhole]
    refine ⟨mul_le_mul_of_nonneg_right (by exact_mod_cast hleast) hu.le, ?_⟩
    have hbelow : n < (⌊p⌋ + 1) * N := by
      refine lt_of_le_of_ne hmost fun hreached => ?_
      have hclose := h.bounds.1
      rw [hreached, hnext] at hclose
      linarith
    have hlt : (n : ℚ) * u < (((⌊p⌋ + 1) * N : ℤ) : ℚ) * u :=
      mul_lt_mul_of_pos_right (by exact_mod_cast hbelow) hu
    rw [hwhole]
    rwa [hnext] at hlt

/-- Being rounded up does not depend on the sign. -/
theorem roundsUp_neg {p : ℚ} (h : 0 < p) : RoundsUp p ↔ RoundsUp (-p) := by
  have hgap : |-p - awayFromZero (-p)| = |p - awayFromZero p| := by
    rw [awayFromZero_neg h, ← abs_neg]
    congr 1
    push_cast
    ring
  unfold RoundsUp
  rw [hgap, abs_neg]

/-- One is an even multiple of the unit of the last place where that is behind the point. -/
theorem one_eq_multiple {e : ℤ} (he : e < 27) :
    ∃ N : ℤ, (N : ℚ) * 10 ^ (e - 27) = 1 ∧ Even N := by
  obtain ⟨k, hk⟩ : ∃ k : ℕ, e - 27 + k = 0 := ⟨(27 - e).toNat, by omega⟩
  refine ⟨10 ^ k, ?_, (show Even (10 : ℤ) by decide).pow_of_ne_zero (by omega)⟩
  rw [← pow_eq_multiple, hk, zpow_zero]

theorem Rounds.towardZero_eq_of_pos {p r : ℚ} (h : Rounds p r) (hp : 0 < p)
    (hsmall : p < 10 ^ (27 : ℤ)) :
    (RoundsUp p → towardZero r = awayFromZero p) ∧
      (¬ RoundsUp p → towardZero r = towardZero p) := by
  cases h with
  | zero => exact absurd hp (lt_irrefl 0)
  | nonzero e n first below nearest =>
      have hunit : (0 : ℚ) < 10 ^ (e - 27) := by positivity
      have he : e < 27 := by
        rw [abs_of_pos hp] at first
        exact (zpow_lt_zpow_iff_right₀ (by norm_num)).1 (first.trans_lt hsmall)
      obtain ⟨N, hN, hNeven⟩ := one_eq_multiple he
      obtain ⟨hup, hdown⟩ := floor_nearest_multiple hunit hN hNeven nearest
      have hr : (0 : ℚ) ≤ n * 10 ^ (e - 27) := by
        have hn : 0 ≤ n := nearest.le_of_le hunit (by simpa using hp.le)
        exact mul_nonneg (by exact_mod_cast hn) hunit.le
      have haway : awayFromZero p = ⌊p⌋ + 1 := by
        rw [awayFromZero, if_pos hp.le, towardZero_of_nonneg hp.le]
      rw [towardZero_of_nonneg hr, towardZero_of_nonneg hp.le, haway]
      refine ⟨?_, fun hnot => hdown (not_le.1 fun hclose => hnot ⟨e, first, below, ?_⟩)⟩
      · rintro ⟨f, hfirst, hbelow, hclose⟩
        obtain rfl := place_unique first below hfirst hbelow
        rw [haway] at hclose
        exact hup (by exact_mod_cast hclose)
      · rw [haway]
        exact_mod_cast hclose

theorem not_roundsUp_zero : ¬ RoundsUp 0 := by
  rintro ⟨e, hfirst, -⟩
  rw [abs_zero] at hfirst
  exact absurd hfirst (not_le.2 (by positivity))

/-- Where the unit divides one, cutting a rounded number gives the next whole number if the
number is within half a unit of it, and otherwise the same as cutting the number. -/
theorem Rounds.towardZero_eq {p r : ℚ} (h : Rounds p r) (hsmall : |p| < 10 ^ (27 : ℤ)) :
    (RoundsUp p → towardZero r = awayFromZero p) ∧
      (¬ RoundsUp p → towardZero r = towardZero p) := by
  rcases lt_trichotomy p 0 with hneg | rfl | hpos
  · have hpos : 0 < -p := neg_pos.2 hneg
    have haway := awayFromZero_neg hpos
    rw [abs_of_neg hneg] at hsmall
    obtain ⟨hup, hdown⟩ := h.neg.towardZero_eq_of_pos hpos hsmall
    rw [roundsUp_neg hpos, neg_neg] at hup hdown
    rw [neg_neg] at haway
    rw [towardZero_neg] at hup
    rw [towardZero_neg, towardZero_neg] at hdown
    exact ⟨fun h => by have := hup h; omega, fun h => by have := hdown h; omega⟩
  · obtain rfl : r = 0 := h.eq_of_isShort ⟨0, 0, by decide, by simp⟩
    exact ⟨fun hup => absurd hup not_roundsUp_zero, fun _ => rfl⟩
  · rw [abs_of_pos hpos] at hsmall
    exact h.towardZero_eq_of_pos hpos hsmall

/-! ## Decimals -/

/-- The nearest whole number of units is the nearest multiple of a unit. -/
theorem Nearest.nearestMultiple {num den n : Nat} {u : ℚ} (h : Nearest num den n) (hu : 0 < u) :
    NearestMultiple (num * u) (den * u) n := by
  have habove : (2 : ℚ) * num ≤ 2 * (n * den) + den := by exact_mod_cast h.above
  have hbelow : (2 : ℚ) * (n * den) ≤ 2 * num + den := by exact_mod_cast h.below
  have hscaled : 2 * |num * u - (n : ℤ) * (den * u)| = 2 * |(num : ℚ) - n * den| * u := by
    rw [Int.cast_natCast, ← mul_assoc, ← sub_mul, abs_mul, abs_of_pos hu, mul_assoc]
  have hhalf : 2 * |(num : ℚ) - n * den| = den → Even n := by
    rcases abs_cases ((num : ℚ) - n * den) with ⟨hsign, -⟩ | ⟨hsign, -⟩
    · intro htie
      refine Nat.even_iff.2 (h.evenAbove ?_)
      have : (2 : ℚ) * num = 2 * (n * den) + den := by linarith
      exact_mod_cast this
    · intro htie
      refine Nat.even_iff.2 (h.evenBelow ?_)
      have : (2 : ℚ) * (n * den) = 2 * num + den := by linarith
      exact_mod_cast this
  refine ⟨?_, fun htie => ?_⟩
  · rw [hscaled]
    refine mul_le_mul_of_nonneg_right ?_ hu.le
    rcases abs_cases ((num : ℚ) - n * den) with ⟨hsign, -⟩ | ⟨hsign, -⟩ <;> linarith
  · rw [hscaled] at htie
    exact (Int.even_coe_nat n).2 (hhalf (mul_right_cancel₀ hu.ne' htie))

theorem NearestMultiple.signed {p u : ℚ} {n : Nat} (h : NearestMultiple p u n)
    (negative : Bool) : NearestMultiple (signed negative p) u (signedInt negative n) := by
  cases negative with
  | false => exact h
  | true => exact h.neg

namespace Decimal

/-- The number that a decimal stands for; zero where it stands for none. -/
def value : Decimal → ℚ
  | finite negative coefficient exponent => signed negative (magnitude coefficient exponent)
  | _ => 0

variable {negative : Bool} {c : Nat} {x k : ℤ}

theorem magnitude_nonneg (c : Nat) (x : ℤ) : 0 ≤ magnitude c x := by
  unfold magnitude
  positivity

theorem magnitude_add (c : Nat) (x k : ℤ) : magnitude c (x + k) = magnitude c x * 10 ^ k := by
  rw [magnitude, magnitude, zpow_add₀ (by norm_num), mul_assoc]

/-- The whole part of a magnitude. -/
theorem floor_magnitude (c : Nat) (x : ℤ) :
    ⌊magnitude c x⌋₊ = if 0 ≤ x then c * tenTo x.toNat
      else if (-x).toNat < digitCount c then c / tenTo (-x).toNat else 0 := by
  rw [magnitude_eq_div, Nat.floor_div_eq_div]
  by_cases hx : 0 ≤ x
  · have hzero : (-x).toNat = 0 := by omega
    rw [if_pos hx, hzero]
    exact Nat.div_one _
  · have hzero : x.toNat = 0 := by omega
    have hone : c * tenTo x.toNat = c := by rw [hzero]; exact Nat.mul_one c
    rw [if_neg hx, hone]
    split
    · rfl
    · next hlong =>
      refine Nat.div_eq_of_lt ((lt_pow_digitCount c).trans_le ?_)
      exact Nat.pow_le_pow_right (by decide) (not_lt.1 hlong)

/-- Cutting a decimal cuts the number that it stands for. -/
theorem truncateParts_eq (negative : Bool) (c : Nat) (x : ℤ) :
    truncateParts negative c x = towardZero (finite negative c x).value := by
  rw [value, towardZero_signed (magnitude_nonneg c x), floor_magnitude]
  rfl

/-- A magnitude reaches a power of ten exactly if its first digit does. -/
theorem pow_le_magnitude_iff :
    (10 : ℚ) ^ k ≤ magnitude c x ↔ c ≠ 0 ∧ k ≤ leadingExponent c x := by
  constructor
  · intro hle
    have hpos : (0 : ℚ) < 10 ^ k := by positivity
    refine ⟨?_, ?_⟩
    · rintro rfl
      rw [magnitude, Nat.cast_zero, zero_mul] at hle
      exact absurd hle (not_le.2 hpos)
    · have hlt := hle.trans_lt (magnitude_lt_pow c x)
      have := (zpow_lt_zpow_iff_right₀ (by norm_num)).1 hlt
      omega
  · rintro ⟨hc, hle⟩
    exact (zpow_le_zpow_right₀ (by norm_num) hle).trans (pow_leadingExponent_le hc x)

/-- Comparing a decimal with a power of ten compares the numbers. -/
theorem isAtLeastPowerOfTen_iff :
    isAtLeastPowerOfTen k (finite negative c x) = true ↔
      (10 : ℚ) ^ k ≤ (finite negative c x).value := by
  have hpos : (0 : ℚ) < 10 ^ k := by positivity
  have hnonneg := magnitude_nonneg c x
  cases negative with
  | true =>
      have hbelow : (finite true c x).value ≤ 0 := neg_nonpos.2 hnonneg
      simp [isAtLeastPowerOfTen, hbelow.trans_lt hpos]
  | false =>
      show _ ↔ (10 : ℚ) ^ k ≤ magnitude c x
      simp [isAtLeastPowerOfTen, pow_le_magnitude_iff]

/-- The place of the first digit of a decimal. -/
theorem place_signed (negative : Bool) {c : Nat} (hc : c ≠ 0) (x : ℤ) :
    (10 : ℚ) ^ leadingExponent c x ≤ |signed negative (magnitude c x)| ∧
      |signed negative (magnitude c x)| < (10 : ℚ) ^ (leadingExponent c x + 1) := by
  rw [abs_signed, abs_of_nonneg (magnitude_nonneg c x)]
  exact ⟨pow_leadingExponent_le hc x, magnitude_lt_pow c x⟩

theorem signed_mul (negative : Bool) (n : Nat) (u : ℚ) :
    signed negative (n * u) = (signedInt negative n : ℚ) * u := by
  cases negative with
  | false => simp [signed, signedInt]
  | true => simp [signed, signedInt]

/-- A coefficient of few enough digits stays. -/
theorem roundCoefficient_of_le (h : digitCount c ≤ precision) : roundCoefficient c = (c, 0) := by
  have hexcess : digitCount c - precision = 0 := by omega
  have hsame : roundHalfEven c (tenTo 0) = c := by
    have hone : roundHalfEven (c * tenTo 0) (tenTo 0) = c := roundHalfEven_mul c (by decide)
    rwa [show c * tenTo 0 = c from Nat.mul_one c] at hone
  have hbelow : c < tenTo precision :=
    (lt_pow_digitCount c).trans_le (Nat.pow_le_pow_right (by decide) h)
  unfold roundCoefficient
  dsimp only
  rw [hexcess, hsame, if_neg hbelow.ne]

/-- A longer one becomes the nearest multiple of a power of ten. -/
theorem magnitude_roundCoefficient (c : Nat) (x : ℤ) :
    magnitude (roundCoefficient c).1 (x + (roundCoefficient c).2) =
      roundHalfEven c (tenTo (digitCount c - precision)) *
        (10 : ℚ) ^ (x + (digitCount c - precision : Nat)) := by
  unfold roundCoefficient
  dsimp only
  split
  · next hfull =>
    rw [magnitude, hfull]
    have htenth : ((tenTo precision / 10 : Nat) : ℚ) = 10 ^ (27 : ℤ) := by
      rw [show tenTo precision / 10 = 10 ^ 27 by decide]
      norm_num
    have hwhole : ((tenTo precision : Nat) : ℚ) = 10 ^ (28 : ℤ) := by
      rw [show tenTo precision = 10 ^ 28 by decide]
      norm_num
    rw [htenth, hwhole, ← zpow_add₀ (by norm_num), ← zpow_add₀ (by norm_num)]
    congr 1
    push_cast
    ring
  · rfl

/-- A number with few enough digits is a multiple of the unit of its last place. -/
theorem magnitude_eq_multiple (h : digitCount c ≤ precision) :
    magnitude c x = ((c * 10 ^ (precision - digitCount c) : Nat) : ℚ) *
      10 ^ (leadingExponent c x - 27) := by
  have hplace : x = (precision - digitCount c : Nat) + (leadingExponent c x - 27) := by
    unfold leadingExponent
    have : precision = 28 := rfl
    omega
  conv_lhs => rw [magnitude, hplace, zpow_add₀ (by norm_num), zpow_natCast]
  push_cast
  ring

/-- The last place that is kept of a number with more digits. -/
theorem last_place (h : precision ≤ digitCount c) :
    x + (digitCount c - precision : Nat) = leadingExponent c x - 27 := by
  unfold leadingExponent
  have : precision = 28 := rfl
  omega

theorem pow_last_place (h : precision ≤ digitCount c) :
    (10 : ℚ) ^ (leadingExponent c x - 27) =
      (tenTo (digitCount c - precision) : Nat) * 10 ^ x := by
  rw [← last_place h, pow_eq_multiple]
  norm_cast

/-- A number with few enough digits stays. -/
theorem rounds_self (negative : Bool) (hc : c ≠ 0) (h : digitCount c ≤ precision) :
    Rounds (signed negative (magnitude c x)) (signed negative (magnitude c x)) := by
  obtain ⟨hfirst, hbelow⟩ := place_signed negative hc x
  have hunit : (0 : ℚ) < 10 ^ (leadingExponent c x - 27) := by positivity
  have hmultiple : signed negative (magnitude c x) =
      (signedInt negative (c * 10 ^ (precision - digitCount c)) : ℚ) *
        10 ^ (leadingExponent c x - 27) := by
    rw [magnitude_eq_multiple h, signed_mul]
  rw [hmultiple] at hfirst hbelow ⊢
  exact .nonzero _ _ hfirst hbelow (.self _ hunit)

/-- A number with more digits becomes the nearest multiple of the unit of the last place
that is kept. -/
theorem rounds_nearest (negative : Bool) (hc : c ≠ 0) (h : precision ≤ digitCount c) :
    Rounds (signed negative (magnitude c x))
      (signed negative (roundHalfEven c (tenTo (digitCount c - precision)) *
        (10 : ℚ) ^ (leadingExponent c x - 27))) := by
  obtain ⟨hfirst, hbelow⟩ := place_signed negative hc x
  have hnearest : Nearest c (tenTo (digitCount c - precision))
      (roundHalfEven c (tenTo (digitCount c - precision))) :=
    nearest_roundHalfEven c (Nat.pow_pos (by decide))
  have hmultiple := (hnearest.nearestMultiple (u := 10 ^ x) (by positivity)).signed negative
  rw [← pow_last_place h] at hmultiple
  rw [signed_mul]
  exact .nonzero _ _ hfirst hbelow hmultiple

/-- The magnitude with a rounded coefficient is the rounded magnitude. -/
theorem rounds_magnitude (negative : Bool) (c : Nat) (x : ℤ) :
    Rounds (signed negative (magnitude c x))
      (signed negative (magnitude (roundCoefficient c).1 (x + (roundCoefficient c).2))) := by
  by_cases hc : c = 0
  · subst hc
    rw [roundCoefficient_of_le (by decide), Nat.cast_zero, add_zero, magnitude, Nat.cast_zero,
      zero_mul]
    cases negative <;> simpa [signed] using Rounds.zero
  by_cases hshort : digitCount c ≤ precision
  · rw [roundCoefficient_of_le hshort, Nat.cast_zero, add_zero]
    exact rounds_self negative hc hshort
  · have hlong : precision ≤ digitCount c := (not_le.1 hshort).le
    rw [magnitude_roundCoefficient, last_place hlong]
    exact rounds_nearest negative hc hlong

/-- A product with a power of ten is rounded to the digits that arithmetic keeps, and is
refused where the result has a digit beyond the largest exponent. -/
theorem scaleByPowerOfTen?_spec (negative : Bool) (c : Nat) (x k : ℤ) :
    ∃ r, Rounds ((finite negative c x).value * 10 ^ k) r ∧
      ((finite negative c x).scaleByPowerOfTen? k =
        if (10 : ℚ) ^ (maxExponent + 1) ≤ |r| then none
        else some (finite negative (roundCoefficient c).1 (x + k + (roundCoefficient c).2))) ∧
      (finite negative (roundCoefficient c).1 (x + k + (roundCoefficient c).2)).value = r := by
  have hproduct : (finite negative c x).value * 10 ^ k =
      signed negative (magnitude c (x + k)) := by
    rw [magnitude_add]
    cases negative with
    | false => rfl
    | true => exact neg_mul _ _
  have hlimit : (10 : ℚ) ^ (maxExponent + 1) ≤
      |signed negative (magnitude (roundCoefficient c).1 (x + k + (roundCoefficient c).2))| ↔
        (roundCoefficient c).1 ≠ 0 ∧ maxExponent <
          leadingExponent (roundCoefficient c).1 (x + k + (roundCoefficient c).2) := by
    rw [abs_signed, abs_of_nonneg (magnitude_nonneg _ _), pow_le_magnitude_iff,
      Int.add_one_le_iff]
  refine ⟨_, ?_, ?_, rfl⟩
  · rw [hproduct]
    exact rounds_magnitude negative c (x + k)
  · exact if_congr hlimit.symm rfl rfl

end Decimal

end VaultGovernance
