import VaultGovernance.Proofs.Monotonicity

/-!
# VaultGovernance.Proofs.Percentages

The percentages of an outcome.  With voting power they are all taken of it, and are those of
parts of one whole: none exceeds one hundred and neither does their sum.  Without voting power
the whole is the votes for yes and no, which the abstentions are not part of, so that their
percentage has no bound; on a ballot of abstentions alone it is one hundred times their weight.
`VoteResult.Negligible` is exactly how small abstentions have to be not to show.
-/

namespace VaultGovernance

namespace VoteResult

/-! ## Floors of shares -/

section Floors

variable {a b c whole q : Int}

/-- A whole percentage of `a` in a whole. -/
theorem fdiv_eq_iff (hwhole : 0 < whole) :
    (a * 100).fdiv whole = q ↔ q * whole ≤ a * 100 ∧ a * 100 < q * whole + whole := by
  rw [Int.fdiv_eq_ediv_of_nonneg _ hwhole.le, Int.ediv_eq_iff_of_pos hwhole]

theorem fdiv_bounds (hwhole : 0 < whole) :
    (a * 100).fdiv whole * whole ≤ a * 100 ∧
      a * 100 < (a * 100).fdiv whole * whole + whole :=
  (fdiv_eq_iff hwhole).1 rfl

theorem fdiv_nonneg (hwhole : 0 < whole) (ha : 0 ≤ a) : 0 ≤ (a * 100).fdiv whole :=
  Int.fdiv_nonneg (by omega) hwhole.le

/-- Parts of a whole have percentages of at most one hundred together. -/
theorem sum_le_hundred (hwhole : 0 < whole) (h : a + b + c ≤ whole) :
    (a * 100).fdiv whole + (b * 100).fdiv whole + (c * 100).fdiv whole ≤ 100 := by
  have ha := (fdiv_bounds (a := a) hwhole).1
  have hb := (fdiv_bounds (a := b) hwhole).1
  have hc := (fdiv_bounds (a := c) hwhole).1
  refine le_of_mul_le_mul_right ?_ hwhole
  calc ((a * 100).fdiv whole + (b * 100).fdiv whole + (c * 100).fdiv whole) * whole
      = (a * 100).fdiv whole * whole + (b * 100).fdiv whole * whole +
          (c * 100).fdiv whole * whole := by ring
    _ ≤ 100 * whole := by omega

/-- The two parts of a whole lose a percent to rounding unless their percentages are
whole. -/
theorem sum_of_parts (hwhole : 0 < a + b) :
    (a * 100).fdiv (a + b) + (b * 100).fdiv (a + b) =
      if a + b ∣ a * 100 then 100 else 99 := by
  obtain ⟨hlow, hhigh⟩ := fdiv_bounds (a := a) hwhole
  generalize hshare : (a * 100).fdiv (a + b) = k at hlow hhigh ⊢
  by_cases hdvd : a + b ∣ a * 100
  · have hexact : a * 100 = k * (a + b) := by
      rw [← hshare, Int.fdiv_eq_ediv_of_nonneg _ hwhole.le, Int.ediv_mul_cancel hdvd]
    have hrest : (b * 100).fdiv (a + b) = 100 - k := by
      have hparts : b * 100 = (100 - k) * (a + b) := by
        rw [sub_mul, ← hexact]
        ring
      exact (fdiv_eq_iff hwhole).2 ⟨hparts.ge, by omega⟩
    rw [hrest, if_pos hdvd]
    omega
  · have hne : k * (a + b) ≠ a * 100 := fun heq => hdvd ⟨k, by rw [← heq, mul_comm]⟩
    have hrest : (b * 100).fdiv (a + b) = 99 - k := by
      have hsplit : (99 - k) * (a + b) = 99 * (a + b) - k * (a + b) := sub_mul ..
      exact (fdiv_eq_iff hwhole).2 (by omega)
    rw [hrest, if_neg hdvd]
    omega

end Floors

/-! ## The whole -/

/-- Abstentions that do not show in an outcome without voting power: there is at most one if
nothing else was cast, and otherwise they are less than a hundredth of the votes for yes and
no, or less than two if yes and no lose one to rounding. -/
def Negligible (yes no abstain : Int) : Prop :=
  if yes + no = 0 then abstain ≤ 1
  else if yes + no ∣ yes * 100 then abstain * 100 < yes + no
  else abstain * 100 < 2 * (yes + no)

instance (yes no abstain : Int) : Decidable (Negligible yes no abstain) := by
  unfold Negligible
  infer_instance

/-- The three percentages are those of parts of one whole. -/
structure OfOneWhole (r : VoteResult) : Prop where
  yes : 0 ≤ r.yesVotePercent ∧ r.yesVotePercent ≤ 100
  no : 0 ≤ r.noVotePercent ∧ r.noVotePercent ≤ 100
  abstain : 0 ≤ r.abstainVotePercent ∧ r.abstainVotePercent ≤ 100
  sum : r.yesVotePercent + r.noVotePercent + r.abstainVotePercent ≤ 100

variable {execution participation : Threshold} {power : Option Int} {r : VoteResult}
  {yes no abstain : Int}

theorem percentBase_of_power {n : Int} (hn : n ∈ power) (hne : n ≠ 0) (total : Int) :
    percentBase power total = n := by
  obtain rfl : power = some n := hn
  rw [percentBase, if_pos hne]

theorem percentBase_of_powerless (h : ∀ n ∈ power, n = 0) (total : Int) :
    percentBase power total = if 0 < total then total else 1 := by
  cases power with
  | none => rfl
  | some n => rw [percentBase, if_neg (not_not.2 (h n rfl))]

/-- What an outcome says of its percentages. -/
theorem percents_of_ofWeights (hpower : ∀ n ∈ power, 0 ≤ n)
    (h : ofWeights yes no abstain execution participation power = .ok r) :
    r.yesVotePercent = (yes * 100).fdiv (percentBase power (yes + no)) ∧
    r.noVotePercent = (no * 100).fdiv (percentBase power (yes + no)) ∧
    r.abstainVotePercent = (abstain * 100).fdiv (percentBase power (yes + no)) ∧
    Proposal.participation (yes + no + abstain) power = .ok r.participationPercent := by
  by_cases hvoted : 0 < yes + no
  all_goals
    cases power with
    | none =>
        simp only [ofWeights, hvoted, ↓reduceIte, bind_eq_ok] at h
        obtain ⟨_, hcast, _, -, _, -, _, -, hr⟩ := h
        obtain rfl := Except.ok.inj hr
        exact ⟨rfl, rfl, rfl, hcast⟩
    | some n =>
        by_cases hpos : 0 < n
        · simp only [ofWeights, hvoted, hpos, ↓reduceIte, bind_eq_ok] at h
          obtain ⟨_, hcast, _, -, _, -, _, -, hr⟩ := h
          obtain rfl := Except.ok.inj hr
          refine ⟨rfl, rfl, rfl, ?_⟩
          rw [Proposal.participation, if_neg hpos.ne', hcast]
        · simp only [ofWeights, hvoted, hpos, ↓reduceIte, bind_eq_ok] at h
          obtain ⟨_, hcast, _, -, _, -, _, -, hr⟩ := h
          obtain rfl := Except.ok.inj hr
          have hzero : n = 0 := by have hn := hpower n rfl; omega
          refine ⟨rfl, rfl, rfl, ?_⟩
          rw [Proposal.participation, if_pos hzero, hcast]

/-- A voting power that is at least a weight unless it is zero is not negative. -/
theorem power_nonneg {castWeight : Nat} (hpower : ∀ n ∈ power, n ≠ 0 → (castWeight : Int) ≤ n) :
    ∀ n ∈ power, 0 ≤ n := by
  intro n hn
  by_cases hzero : n = 0
  · omega
  · have hle := hpower n hn hzero
    omega

/-- The weight cast is a percentage of the voting power if it does not exceed it. -/
theorem participation_bounded {castWeight : Nat}
    (hpower : ∀ n ∈ power, n ≠ 0 → (castWeight : Int) ≤ n) :
    ∃ x, Proposal.participation castWeight power = .ok x ∧
      Binary64.zero.le x = true ∧ x.le .hundred = true := by
  have hhundred : Binary64.zero.le .hundred = true ∧ Binary64.hundred.le .hundred = true := by
    decide +kernel
  cases power with
  | none => exact ⟨_, rfl, hhundred⟩
  | some n =>
      rw [Proposal.participation]
      by_cases hzero : n = 0
      · exact ⟨_, if_pos hzero, hhundred⟩
      · have hle := hpower n rfl hzero
        lift n to ℕ using power_nonneg hpower n rfl
        have hpos : 0 < n := by omega
        have hwhole : Share.percentQuanta 1 1 = 100 * Binary64.one := by decide +kernel
        have hbound : Share.percentQuanta castWeight n ≤ 100 * Binary64.one := by
          rw [← hwhole]
          exact Share.percentQuanta_mono hpos (by decide) (by omega)
        refine ⟨_, by rw [if_neg hzero, percent_eq hpos (by omega)], ?_, ?_⟩
        · rw [Binary64.le_finite (m := 0) rfl]
          exact decide_eq_true (Nat.zero_le _)
        · rw [Binary64.hundred, Binary64.le_finite rfl]
          exact decide_eq_true hbound

/-- Percentages that are not negative are of one whole if their sum is. -/
theorem ofOneWhole_iff (hyes : 0 ≤ r.yesVotePercent) (hno : 0 ≤ r.noVotePercent)
    (habstain : 0 ≤ r.abstainVotePercent) :
    r.OfOneWhole ↔ r.yesVotePercent + r.noVotePercent + r.abstainVotePercent ≤ 100 := by
  constructor
  · exact fun h => h.sum
  · exact fun h => ⟨⟨hyes, by omega⟩, ⟨hno, by omega⟩, ⟨habstain, by omega⟩, h⟩

/-- Without voting power, the percentages are of one whole if the abstentions are
negligible. -/
theorem sum_le_hundred_iff (hyes : 0 ≤ yes) (hno : 0 ≤ no) :
    (yes * 100).fdiv (percentBase none (yes + no)) + (no * 100).fdiv (percentBase none (yes + no)) +
        (abstain * 100).fdiv (percentBase none (yes + no)) ≤ 100 ↔
      Negligible yes no abstain := by
  rw [percentBase, Negligible]
  by_cases hvoted : 0 < yes + no
  · have hparts := sum_of_parts hvoted
    have hless (k : Int) :
        (abstain * 100).fdiv (yes + no) < k ↔ abstain * 100 < k * (yes + no) := by
      rw [Int.fdiv_eq_ediv_of_nonneg _ hvoted.le, Int.ediv_lt_iff_lt_mul hvoted]
    have hone := hless 1
    have htwo := hless 2
    rw [if_pos hvoted, if_neg hvoted.ne', hparts]
    split <;> omega
  · rw [if_neg hvoted, if_pos (by omega), Int.fdiv_one, Int.fdiv_one, Int.fdiv_one]
    omega

variable {yes no abstain : Nat}

/-- There is an outcome if both thresholds can be compared. -/
theorem exists_ofWeights {e q : Binary64}
    (hpower : ∀ n ∈ power, n ≠ 0 → ((yes + no + abstain : Nat) : Int) ≤ n)
    (he : execution.toBinary64 = .ok e) (hq : participation.toBinary64 = .ok q) :
    ∃ r, ofWeights yes no abstain execution participation power = .ok r := by
  obtain ⟨x, hcast, -⟩ := participation_bounded hpower
  rw [Nat.cast_add, Nat.cast_add] at hcast
  obtain ⟨r, hr, -⟩ := ofWeights_eq (power_nonneg hpower) hcast share_eq he hq
  exact ⟨r, hr⟩

/-- The percentages of an outcome whose voting power, if there is any, is at least the weight
cast: those of yes and no are always of one whole, and all three are if there is voting power
or the abstentions are negligible. -/
theorem percents_bounded
    (hpower : ∀ n ∈ power, n ≠ 0 → ((yes + no + abstain : Nat) : Int) ≤ n)
    (h : ofWeights yes no abstain execution participation power = .ok r) :
    (Binary64.zero.le r.participationPercent = true ∧
      r.participationPercent.le .hundred = true) ∧
    (0 ≤ r.yesVotePercent ∧ 0 ≤ r.noVotePercent ∧ r.yesVotePercent + r.noVotePercent ≤ 100 ∧
      0 ≤ r.abstainVotePercent) ∧
    (r.OfOneWhole ↔ (∃ n ∈ power, n ≠ 0) ∨ Negligible yes no abstain) := by
  have hcast : Binary64.zero.le r.participationPercent = true ∧
      r.participationPercent.le .hundred = true := by
    obtain ⟨x, hx, hbounds⟩ := participation_bounded hpower
    obtain ⟨-, -, -, hparticipation⟩ := percents_of_ofWeights (power_nonneg hpower) h
    rw [Nat.cast_add, Nat.cast_add, hparticipation] at hx
    exact Except.ok.inj hx ▸ hbounds
  obtain ⟨hyes, hno, habstain, -⟩ := percents_of_ofWeights (power_nonneg hpower) h
  have hyesNonneg : 0 ≤ (yes : Int) := by omega
  have hnoNonneg : 0 ≤ (no : Int) := by omega
  have habstainNonneg : 0 ≤ (abstain : Int) := by omega
  have hbase : 0 < percentBase power ((yes : Int) + no) ∧
      (yes : Int) + no ≤ percentBase power (yes + no) := by
    by_cases hpowered : ∃ n ∈ power, n ≠ 0
    · obtain ⟨n, hn, hne⟩ := hpowered
      have hle := hpower n hn hne
      rw [percentBase_of_power hn hne]
      omega
    · rw [percentBase_of_powerless (by simpa using hpowered)]
      split <;> omega
  obtain ⟨hpos, hvoted⟩ := hbase
  have hyes' := hyes ▸ fdiv_nonneg hpos hyesNonneg
  have hno' := hno ▸ fdiv_nonneg hpos hnoNonneg
  have habstain' := habstain ▸ fdiv_nonneg hpos habstainNonneg
  have hsum := sum_le_hundred (c := 0) hpos (by rwa [add_zero])
  rw [← hyes, ← hno, zero_mul, Int.zero_fdiv, add_zero] at hsum
  refine ⟨hcast, ⟨hyes', hno', hsum, habstain'⟩, ?_⟩
  rw [ofOneWhole_iff hyes' hno' habstain', hyes, hno, habstain]
  by_cases hpowered : ∃ n ∈ power, n ≠ 0
  · refine iff_of_true ?_ (.inl hpowered)
    obtain ⟨n, hn, hne⟩ := hpowered
    rw [percentBase_of_power hn hne] at hpos ⊢
    exact sum_le_hundred hpos (by exact_mod_cast hpower n hn hne)
  · have hnone : percentBase power ((yes : Int) + no) = percentBase none (yes + no) :=
      (percentBase_of_powerless (by simpa using hpowered) _).trans
        (percentBase_of_powerless (by simp) _).symm
    rw [hnone, sum_le_hundred_iff hyesNonneg hnoNonneg]
    exact (or_iff_right hpowered).symm

end VoteResult

/-- The percentages of an outcome are parts of one whole as long as there is one.  On a fixed
ballot with weights that are not negative, and with a voting power that is absent, zero or at
least the weight cast, there is an outcome exactly if both thresholds can be compared.  Its
participation is a percentage, and so are those of yes and no, also together.  That of the
abstentions is one as well, also together with them, if there is voting power; without, exactly
if the abstentions are negligible. -/
theorem percentages_of_one_whole {execution participation : Threshold} {power : Option Int}
    {rows : List TallyRow} (hweights : ∀ choice, 0 ≤ VoteResult.weightOf rows choice)
    (hpower : ∀ n ∈ power, n ≠ 0 → VoteResult.castBy (VoteResult.weightOf rows) ≤ n) :
    ((∃ r, VoteResult.ofRows rows execution participation power = .ok r) ↔
      (∃ e, execution.toBinary64 = .ok e) ∧ ∃ q, participation.toBinary64 = .ok q) ∧
    ∀ r, VoteResult.ofRows rows execution participation power = .ok r →
      (Binary64.zero.le r.participationPercent = true ∧
        r.participationPercent.le .hundred = true) ∧
      (0 ≤ r.yesVotePercent ∧ 0 ≤ r.noVotePercent ∧
        r.yesVotePercent + r.noVotePercent ≤ 100 ∧ 0 ≤ r.abstainVotePercent) ∧
      (r.OfOneWhole ↔ (∃ n ∈ power, n ≠ 0) ∨
        VoteResult.Negligible (VoteResult.weightOf rows .yes) (VoteResult.weightOf rows .no)
          (VoteResult.weightOf rows .abstain)) := by
  obtain ⟨yes, hyes⟩ := Int.eq_ofNat_of_zero_le (hweights .yes)
  obtain ⟨no, hno⟩ := Int.eq_ofNat_of_zero_le (hweights .no)
  obtain ⟨abstain, habstain⟩ := Int.eq_ofNat_of_zero_le (hweights .abstain)
  rw [VoteResult.castBy, hyes, hno, habstain, ← Nat.cast_add, ← Nat.cast_add] at hpower
  simp only [VoteResult.ofRows, hyes, hno, habstain]
  constructor
  · constructor
    · rintro ⟨r, hr⟩
      exact VoteResult.thresholds_of_ofWeights hr
    · rintro ⟨⟨e, he⟩, q, hq⟩
      exact VoteResult.exists_ofWeights hpower he hq
  · intro r hr
    exact VoteResult.percents_bounded hpower hr

namespace Sample

/-- A ballot with a weight for each choice. -/
def abstaining (yes no abstain : Int) : List TallyRow :=
  ballot yes no ++ [⟨"abstain", "Abstain", 1, abstain⟩]

theorem weightOf_abstaining_nonneg {yes no abstain : Int} (hyes : 0 ≤ yes) (hno : 0 ≤ no)
    (habstain : 0 ≤ abstain) (choice : VoteChoice) :
    0 ≤ VoteResult.weightOf (abstaining yes no abstain) choice := by
  cases choice
  · exact hyes
  · exact hno
  · exact habstain

end Sample

/-- Thirty for yes and seventy for no with thirty that abstain, of a voting power of two
hundred. -/
theorem percentages_of_two_hundred :
    ∃ r, VoteResult.ofRows (Sample.abstaining 30 70 30) (Sample.wholePercent 50)
        (Sample.wholePercent 51) (some 200) = .ok r ∧
      r.OfOneWhole ∧ Binary64.zero.le r.participationPercent = true ∧
      r.participationPercent.le .hundred = true := by
  have hweights : ∀ choice, 0 ≤ VoteResult.weightOf (Sample.abstaining 30 70 30) choice :=
    Sample.weightOf_abstaining_nonneg (by decide) (by decide) (by decide)
  have hpower : ∀ n ∈ some (200 : Int), n ≠ 0 →
      VoteResult.castBy (VoteResult.weightOf (Sample.abstaining 30 70 30)) ≤ n := by decide
  have hexists : ∃ r, VoteResult.ofRows (Sample.abstaining 30 70 30) (Sample.wholePercent 50)
      (Sample.wholePercent 51) (some 200) = .ok r :=
    (percentages_of_one_whole hweights hpower).1.2 ⟨⟨_, rfl⟩, _, rfl⟩
  obtain ⟨r, hr⟩ := hexists
  obtain ⟨hcast, -, hwhole⟩ := (percentages_of_one_whole hweights hpower).2 r hr
  exact ⟨r, hr, hwhole.2 (.inl ⟨200, rfl, by decide⟩), hcast.1, hcast.2⟩

/-- Without voting power, five that abstain beside one vote for yes are five hundred percent,
and so are five that abstain alone. -/
theorem abstentions_exceed_whole :
    (VoteResult.ofRows (Sample.abstaining 1 0 5) (Sample.wholePercent 50)
        (Sample.wholePercent 51) none).toOption.map (·.abstainVotePercent) = some 500 ∧
    (VoteResult.ofRows (Sample.abstaining 0 0 5) (Sample.wholePercent 50)
        (Sample.wholePercent 51) none).toOption.map (·.abstainVotePercent) = some 500 := by
  decide +kernel

end VaultGovernance
