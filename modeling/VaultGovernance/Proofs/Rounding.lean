import VaultGovernance.Number.Binary64

/-!
# VaultGovernance.Proofs.Rounding

How far rounding can carry a quotient.  The result lies less than one unit of its
place above the quotient, and the unit is no larger than the quotient or one
quantum, so a quotient is at most doubled.  A share of a whole is therefore a
finite double, however large the two integers are.
-/

namespace VaultGovernance

/-- Rounding a quotient goes up by one at most. -/
theorem roundHalfEven_le (num den : Nat) : roundHalfEven num den ≤ num / den + 1 := by
  unfold roundHalfEven
  simp only
  split
  · omega
  · split <;> omega

namespace Binary64

/-- The unit around a count of quanta is no larger than the count, or one. -/
theorem spacing_le (quanta : Nat) : spacing quanta ≤ quanta + 1 := by
  rw [spacing]
  by_cases hzero : quanta = 0
  · rw [hzero]
    decide
  · have hlow : 2 ^ quanta.log2 ≤ quanta := Nat.log2_self_le hzero
    have hunit : 2 ^ (quanta.log2 - 52) ≤ 2 ^ quanta.log2 :=
      Nat.pow_le_pow_right (by decide) (Nat.sub_le _ _)
    exact Nat.le_succ_of_le (Nat.le_trans hunit hlow)

/-- The rounded count of quanta is at most twice the quotient, and one more. -/
theorem roundQuanta_le (num den : Nat) : roundQuanta num den ≤ 2 * (num / den) + 1 := by
  have hunit := spacing_le (num / den)
  calc
    roundQuanta num den
        = roundHalfEven num (den * spacing (num / den)) * spacing (num / den) := rfl
    _ ≤ (num / (den * spacing (num / den)) + 1) * spacing (num / den) :=
        Nat.mul_le_mul_right _ (roundHalfEven_le _ _)
    _ = num / den / spacing (num / den) * spacing (num / den) + spacing (num / den) := by
        rw [Nat.succ_mul, Nat.div_div_eq_div_mul]
    _ ≤ num / den + (num / den + 1) := Nat.add_le_add (Nat.div_mul_le_self _ _) hunit
    _ = 2 * (num / den) + 1 := by omega

/-- Twice the number one, and a quantum more, is finite. -/
theorem two_mul_one_lt_limit : 2 * one + 1 < limit := by decide +kernel

/-- A share of a whole is a finite double. -/
theorem isSome_divInt? {a b : Int} (ha : 0 ≤ a) (hb : 0 < b) (hle : a ≤ b) :
    (divInt? a b).isSome := by
  have hshare : a.natAbs * one / b.natAbs ≤ one := by
    rw [Nat.mul_comm]
    refine Nat.div_le_of_le_mul ?_
    rw [Nat.mul_comm]
    exact Nat.mul_le_mul_right one (by omega)
  have hround := roundQuanta_le (a.natAbs * one) b.natAbs
  have hlimit := two_mul_one_lt_limit
  have hfinite : roundQuanta (a.natAbs * one) b.natAbs < limit := by omega
  rw [divInt?, ofQuotient, if_pos hfinite]
  rfl

end Binary64

end VaultGovernance
