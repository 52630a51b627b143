import Mathlib.Data.Rat.Cast.Order
import Mathlib.Tactic.Linarith
import Mathlib.Tactic.NormNum
import Mathlib.Tactic.Ring
import VaultGovernance.Proofs.Rounding

/-!
# VaultGovernance.Proofs.Nearest

Rounding to the nearest double, as a function of the quotient that is rounded.  A
quotient is given by its parts, and both may be large, so everything is said with
products of natural numbers: `num * den' ≤ num' * den` stands for the order of two
quotients.  Rounding keeps that order, hence depends on the quotient only; it leaves
powers of two alone, and is off by at most one part in `2 ^ 53` above the smallest
normal number.
-/

namespace VaultGovernance

/-! ## The nearest whole number -/

/-- A whole number nearest to a quotient, even where two are equally near. -/
structure Nearest (num den r : Nat) : Prop where
  above : 2 * num ≤ 2 * (r * den) + den
  below : 2 * (r * den) ≤ 2 * num + den
  evenAbove : 2 * num = 2 * (r * den) + den → r % 2 = 0
  evenBelow : 2 * (r * den) = 2 * num + den → r % 2 = 0

theorem nearest_roundHalfEven (num : Nat) {den : Nat} (hden : 0 < den) :
    Nearest num den (roundHalfEven num den) := by
  have hdiv : num / den * den + num % den = num := Nat.div_add_mod' num den
  have hrest : num % den < den := Nat.mod_lt num hden
  have hsucc : (num / den + 1) * den = num / den * den + den := Nat.succ_mul _ _
  unfold roundHalfEven
  simp only
  split
  · constructor <;> omega
  · split
    · constructor <;> omega
    · -- The quotient lies half way, and the even neighbour is one of two.
      rcases Nat.mod_two_eq_zero_or_one (num / den) with heven | hodd
      · rw [heven, Nat.add_zero]
        constructor <;> omega
      · rw [hodd]
        constructor <;> omega

/-- Nearest whole numbers are in the order of the quotients. -/
theorem Nearest.le {num den num' den' r r' : Nat} (h : Nearest num den r)
    (h' : Nearest num' den' r') (hden : 0 < den) (hden' : 0 < den')
    (hle : num * den' ≤ num' * den) : r ≤ r' := by
  by_contra hgt
  obtain ⟨k, rfl⟩ : ∃ k, r = r' + 1 + k := ⟨r - (r' + 1), by omega⟩
  -- Both quotients would lie half way between `r'` and `r' + 1`, and both be even.
  have hlow := Nat.mul_le_mul_right den' h.below
  have hhigh := Nat.mul_le_mul_right den h'.above
  have hpos : 0 < den * den' := Nat.mul_pos hden hden'
  have hlow' : 2 * (r' * den * den') + 2 * (den * den') + 2 * (k * (den * den')) ≤
      2 * (num * den') + den * den' := by
    calc _ = 2 * ((r' + 1 + k) * den) * den' := by ring
      _ ≤ (2 * num + den) * den' := hlow
      _ = _ := by ring
  have hhigh' : 2 * (num' * den) ≤ 2 * (r' * den * den') + den * den' := by
    calc _ = 2 * num' * den := by ring
      _ ≤ (2 * (r' * den') + den') * den := hhigh
      _ = _ := by ring
  have hk : k * (den * den') = 0 := by omega
  obtain rfl : k = 0 := by
    rcases Nat.mul_eq_zero.1 hk with hk | hk
    · exact hk
    · omega
  have htie : 2 * ((r' + 1) * den) = 2 * num + den := by
    refine Nat.eq_of_mul_eq_mul_right hden' ?_
    calc 2 * ((r' + 1) * den) * den' = 2 * (r' * den * den') + 2 * (den * den') := by ring
      _ = 2 * (num * den') + den * den' := by omega
      _ = (2 * num + den) * den' := by ring
  have htie' : 2 * num' = 2 * (r' * den') + den' := by
    refine Nat.eq_of_mul_eq_mul_right hden ?_
    calc 2 * num' * den = 2 * (num' * den) := by ring
      _ = 2 * (r' * den * den') + den * den' := by omega
      _ = (2 * (r' * den') + den') * den := by ring
  have heven := h.evenBelow htie
  have heven' := h'.evenAbove htie'
  omega

/-- Rounding to a whole number keeps the order of quotients. -/
theorem roundHalfEven_mono {num den num' den' : Nat} (hden : 0 < den) (hden' : 0 < den')
    (h : num * den' ≤ num' * den) : roundHalfEven num den ≤ roundHalfEven num' den' :=
  (nearest_roundHalfEven num hden).le (nearest_roundHalfEven num' hden') hden hden' h

/-- A whole number is left as it is. -/
theorem roundHalfEven_mul (n : Nat) {den : Nat} (hden : 0 < den) :
    roundHalfEven (n * den) den = n := by
  have hquot : n * den / den = n := Nat.mul_div_cancel n hden
  have hrest : n * den % den = 0 := Nat.mul_mod_left n den
  unfold roundHalfEven
  simp only [hquot, hrest]
  rw [if_pos (by omega)]

namespace Binary64

/-! ## The nearest double -/

theorem one_pos : 0 < one := by decide +kernel

theorem spacing_pos (quanta : Nat) : 0 < spacing quanta := Nat.two_pow_pos _

/-- A power of two is a multiple of the spacing around smaller counts. -/
theorem twoTo_eq_mul_spacing {quanta k : Nat} (h : quanta.log2 - 52 ≤ k) :
    twoTo k = twoTo (k - (quanta.log2 - 52)) * spacing quanta := by
  show 2 ^ k = 2 ^ (k - (quanta.log2 - 52)) * 2 ^ (quanta.log2 - 52)
  rw [← Nat.pow_add]
  congr 1
  omega

/-- Quotients up to a power of two are rounded to counts up to it. -/
theorem roundQuanta_le_twoTo {num den k : Nat} (hden : 0 < den) (h : num ≤ twoTo k * den) :
    roundQuanta num den ≤ twoTo k := by
  have hquot : num / den ≤ 2 ^ k := Nat.div_le_of_le_mul (by rwa [Nat.mul_comm])
  have hlog : (num / den).log2 - 52 ≤ k := by
    by_cases hzero : num / den = 0
    · rw [hzero]
      exact Nat.zero_le k
    · have hlow := Nat.log2_self_le hzero
      have hle : (num / den).log2 ≤ k :=
        (Nat.pow_le_pow_iff_right (by decide)).1 (Nat.le_trans hlow hquot)
      omega
  have hunit := spacing_pos (num / den)
  have hsplit := twoTo_eq_mul_spacing hlog
  have hcount : roundHalfEven num (den * spacing (num / den)) ≤
      twoTo (k - ((num / den).log2 - 52)) := by
    rw [← roundHalfEven_mul (twoTo (k - ((num / den).log2 - 52))) (Nat.mul_pos hden hunit)]
    refine roundHalfEven_mono (Nat.mul_pos hden hunit) (Nat.mul_pos hden hunit) ?_
    refine Nat.mul_le_mul_right _ ?_
    calc num ≤ twoTo k * den := h
      _ = twoTo (k - ((num / den).log2 - 52)) * spacing (num / den) * den := by rw [← hsplit]
      _ = _ := by ring
  calc roundQuanta num den
      = roundHalfEven num (den * spacing (num / den)) * spacing (num / den) := rfl
    _ ≤ twoTo (k - ((num / den).log2 - 52)) * spacing (num / den) := Nat.mul_le_mul_right _ hcount
    _ = twoTo k := hsplit.symm

/-- Quotients from a power of two on are rounded to counts from it on. -/
theorem twoTo_le_roundQuanta {num den k : Nat} (hden : 0 < den) (h : twoTo k * den ≤ num) :
    twoTo k ≤ roundQuanta num den := by
  have hquot : 2 ^ k ≤ num / den := (Nat.le_div_iff_mul_le hden).2 h
  have hzero : num / den ≠ 0 := by
    have hpos := Nat.two_pow_pos k
    omega
  -- The largest power of two that the quotient reaches is a multiple of the spacing.
  have hk : k ≤ (num / den).log2 := (Nat.le_log2 hzero).2 hquot
  have hlow : twoTo (num / den).log2 ≤ num / den := Nat.log2_self_le hzero
  have hunit := spacing_pos (num / den)
  have hsplit := twoTo_eq_mul_spacing (Nat.sub_le (num / den).log2 52)
  have hcount : twoTo ((num / den).log2 - ((num / den).log2 - 52)) ≤
      roundHalfEven num (den * spacing (num / den)) := by
    rw [← roundHalfEven_mul (twoTo ((num / den).log2 - ((num / den).log2 - 52)))
      (Nat.mul_pos hden hunit)]
    refine roundHalfEven_mono (Nat.mul_pos hden hunit) (Nat.mul_pos hden hunit) ?_
    refine Nat.mul_le_mul_right _ ?_
    calc twoTo ((num / den).log2 - ((num / den).log2 - 52)) * (den * spacing (num / den))
        = twoTo ((num / den).log2 - ((num / den).log2 - 52)) * spacing (num / den) * den := by ring
      _ = twoTo (num / den).log2 * den := by rw [← hsplit]
      _ ≤ num / den * den := Nat.mul_le_mul_right den hlow
      _ ≤ num := Nat.div_mul_le_self num den
  calc twoTo k ≤ twoTo (num / den).log2 := Nat.pow_le_pow_right (by decide) hk
    _ = twoTo ((num / den).log2 - ((num / den).log2 - 52)) * spacing (num / den) := hsplit
    _ ≤ roundHalfEven num (den * spacing (num / den)) * spacing (num / den) :=
        Nat.mul_le_mul_right _ hcount
    _ = roundQuanta num den := rfl

/-- Rounding to the nearest double keeps the order of quotients. -/
theorem roundQuanta_mono {num den num' den' : Nat} (hden : 0 < den) (hden' : 0 < den')
    (h : num * den' ≤ num' * den) : roundQuanta num den ≤ roundQuanta num' den' := by
  have hquot : num / den ≤ num' / den' := by
    refine (Nat.le_div_iff_mul_le hden').2 (Nat.le_of_mul_le_mul_right ?_ hden)
    calc num / den * den' * den = num / den * den * den' := by ring
      _ ≤ num * den' := Nat.mul_le_mul_right den' (Nat.div_mul_le_self num den)
      _ ≤ num' * den := h
  by_cases hsame : (num / den).log2 - 52 = (num' / den').log2 - 52
  · have hunit : spacing (num / den) = spacing (num' / den') := by rw [spacing, hsame, spacing]
    have hpos := spacing_pos (num' / den')
    rw [roundQuanta, roundQuanta, hunit]
    refine Nat.mul_le_mul_right _ (roundHalfEven_mono (Nat.mul_pos hden hpos)
      (Nat.mul_pos hden' hpos) ?_)
    calc num * (den' * spacing (num' / den')) = num * den' * spacing (num' / den') := by ring
      _ ≤ num' * den * spacing (num' / den') := Nat.mul_le_mul_right _ h
      _ = num' * (den * spacing (num' / den')) := by ring
  · -- The spacing changes at a power of two between the quotients.
    have hzero' : num' / den' ≠ 0 := by
      intro hnone
      rw [hnone, Nat.le_zero] at hquot
      exact hsame (by rw [hnone, hquot])
    have hlog : (num / den).log2 < (num' / den').log2 := by
      by_cases hzero : num / den = 0
      · rw [hzero] at hsame ⊢
        have hnone : (0 : Nat).log2 = 0 := by decide
        omega
      · have hle : (num / den).log2 ≤ (num' / den').log2 :=
          (Nat.le_log2 hzero').2 (Nat.le_trans (Nat.log2_self_le hzero) hquot)
        omega
    have hbelow : num / den < 2 ^ (num' / den').log2 := by
      by_cases hzero : num / den = 0
      · rw [hzero]
        exact Nat.two_pow_pos _
      · exact (Nat.log2_lt hzero).1 hlog
    have hlow : 2 ^ (num' / den').log2 ≤ num' / den' := Nat.log2_self_le hzero'
    calc roundQuanta num den ≤ twoTo (num' / den').log2 :=
          roundQuanta_le_twoTo hden (Nat.le_of_lt ((Nat.div_lt_iff_lt_mul hden).1 hbelow))
      _ ≤ roundQuanta num' den' :=
          twoTo_le_roundQuanta hden' ((Nat.le_div_iff_mul_le hden').1 hlow)

/-- Equal quotients are rounded to the same double. -/
theorem roundQuanta_congr {num den num' den' : Nat} (hden : 0 < den) (hden' : 0 < den')
    (h : num * den' = num' * den) : roundQuanta num den = roundQuanta num' den' :=
  Nat.le_antisymm (roundQuanta_mono hden hden' h.le) (roundQuanta_mono hden' hden h.ge)

/-! ## How far the nearest double is -/

/-- The count of quanta from which on numbers are normal. -/
def normal : Nat := twoTo 52

/-- The part of a normal number that rounding adds or takes at most. -/
def roundoff : ℚ := 1 / 2 ^ 53

/-- A quotient in the normal range and the double nearest to it, in products. -/
theorem roundQuanta_mul_close {num den : Nat} (hden : 0 < den) (h : normal * den ≤ num) :
    2 ^ 53 * (roundQuanta num den * den) ≤ 2 ^ 53 * num + num ∧
      2 ^ 53 * num ≤ 2 ^ 53 * (roundQuanta num den * den) + num := by
  have hquot : 2 ^ 52 ≤ num / den := (Nat.le_div_iff_mul_le hden).2 h
  have hzero : num / den ≠ 0 := by omega
  have hlog : 52 ≤ (num / den).log2 := (Nat.le_log2 hzero).2 hquot
  have hunit := spacing_pos (num / den)
  -- Below `2 ^ 52` units of its own there is no quotient.
  have hunits : twoTo 52 * (den * spacing (num / den)) ≤ num := by
    have hsplit := twoTo_eq_mul_spacing (Nat.sub_le (num / den).log2 52)
    have hexponent : (num / den).log2 - ((num / den).log2 - 52) = 52 := by omega
    rw [hexponent] at hsplit
    calc twoTo 52 * (den * spacing (num / den)) = twoTo 52 * spacing (num / den) * den := by ring
      _ = twoTo (num / den).log2 * den := by rw [← hsplit]
      _ ≤ num / den * den := Nat.mul_le_mul_right den (Nat.log2_self_le hzero)
      _ ≤ num := Nat.div_mul_le_self num den
  have hnearest := nearest_roundHalfEven num (Nat.mul_pos hden hunit)
  have hcount : roundQuanta num den * den =
      roundHalfEven num (den * spacing (num / den)) * (den * spacing (num / den)) := by
    rw [roundQuanta]
    ring
  have hhalf : twoTo 52 = 2 ^ 52 := rfl
  have habove := hnearest.above
  have hbelow := hnearest.below
  rw [hhalf] at hunits
  rw [hcount]
  constructor <;> omega

/-- A quotient in the normal range and the double nearest to it differ by the roundoff at
most. -/
theorem roundQuanta_close {num den : Nat} (hden : 0 < den) (h : normal * den ≤ num) :
    (roundQuanta num den : ℚ) ≤ (1 + roundoff) * (num / den) ∧
      (1 - roundoff) * (num / den) ≤ roundQuanta num den := by
  obtain ⟨hhigh, hlow⟩ := roundQuanta_mul_close hden h
  have hpos : (0 : ℚ) < den := by exact_mod_cast hden
  have hhigh' : (2 : ℚ) ^ 53 * (roundQuanta num den * den) ≤ 2 ^ 53 * num + num := by
    exact_mod_cast hhigh
  have hlow' : (2 : ℚ) ^ 53 * num ≤ 2 ^ 53 * (roundQuanta num den * den) + num := by
    exact_mod_cast hlow
  unfold roundoff
  constructor
  · rw [mul_div_assoc', le_div_iff₀ hpos]
    linarith
  · rw [mul_div_assoc', div_le_iff₀ hpos]
    linarith

end Binary64

end VaultGovernance
