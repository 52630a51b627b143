import VaultGovernance.Proofs.Shares

/-!
# VaultGovernance.Proofs.Monotonicity

A proposal that succeeds would have succeeded with more support.  On a fixed ballot the
outcome depends on two doubles, one for the share of yes and one for the participation,
and rounding keeps the order of what is rounded, so a larger share or participation is
never computed as a smaller double (`Share.yesQuanta_mono`, `Share.castQuanta_mono`).
Success is then kept by every change that lowers neither, whatever the thresholds are.
-/

namespace VaultGovernance

namespace Binary64

/-- What does not exceed a number does not exceed a larger one. -/
theorem le_finite_mono {x : Binary64} {m n : Nat} (h : m ≤ n)
    (hx : x.le (.finite false m) = true) : x.le (.finite false n) = true := by
  have hrank (k : Nat) : (Binary64.finite false k).rank? = some (k : Int) := rfl
  cases hr : x.rank? with
  | none => simp [le, hr] at hx
  | some i =>
      simp only [le, hr, hrank, decide_eq_true_eq] at hx ⊢
      omega

end Binary64

/-! ## The two percentages -/

namespace Share

variable {yes no yes' no' castWeight castWeight' : Nat} {power : Option Int}

/-- The share of yes among yes and no in percent, in quanta; nothing without such votes. -/
def yesQuanta (yes no : Nat) : Nat :=
  if 0 < yes + no then percentQuanta yes (yes + no) else 0

/-- The weight cast in percent of the voting power, in quanta; all of it without voting
power. -/
def castQuanta (castWeight : Nat) (power : Option Int) : Nat :=
  match power with
  | some n => if 0 < n then percentQuanta castWeight n.toNat else 100 * Binary64.one
  | none => 100 * Binary64.one

/-- The share does not fall where the balance of yes and no does not and there are no fewer
votes for either.  Fewer votes could leave none, and those without any are no share. -/
theorem yesQuanta_mono (hvoted : yes + no ≤ yes' + no') (h : yes * no' ≤ yes' * no) :
    yesQuanta yes no ≤ yesQuanta yes' no' := by
  rw [yesQuanta, yesQuanta]
  by_cases hpos : 0 < yes + no
  · rw [if_pos hpos, if_pos (by omega)]
    refine percentQuanta_mono hpos (by omega) ?_
    calc yes * (yes' + no') = yes * yes' + yes * no' := Nat.mul_add ..
      _ ≤ yes * yes' + yes' * no := Nat.add_le_add_left h _
      _ = yes' * (yes + no) := by ring
  · rw [if_neg hpos]
    exact Nat.zero_le _

/-- The participation does not fall where the weight cast does not. -/
theorem castQuanta_mono (h : castWeight ≤ castWeight') :
    castQuanta castWeight power ≤ castQuanta castWeight' power := by
  cases power with
  | none => exact Nat.le_refl _
  | some n =>
      rw [castQuanta, castQuanta]
      by_cases hpos : 0 < n
      · rw [if_pos hpos, if_pos hpos]
        have hn : 0 < n.toNat := by omega
        exact percentQuanta_mono hn hn (Nat.mul_le_mul_right _ h)
      · rw [if_neg hpos, if_neg hpos]

end Share

namespace VoteResult

open Share

variable {execution participation : Threshold} {power : Option Int} {e q : Binary64}
  {yes no abstain yes' no' abstain' : Nat} {r : VoteResult}

/-- The share of yes is computed as a finite double. -/
theorem share_eq : (if 0 < (yes : Int) + no then percent yes (yes + no) else .ok .zero) =
    .ok (.finite false (yesQuanta yes no)) := by
  rw [yesQuanta]
  by_cases hpos : 0 < yes + no
  · have hpos' : 0 < (yes : Int) + no := by omega
    rw [if_pos hpos, if_pos hpos', ← percent_eq hpos (Nat.le_add_right yes no), Nat.cast_add]
  · have hpos' : ¬ 0 < (yes : Int) + no := by omega
    rw [if_neg hpos, if_neg hpos', Binary64.zero]

/-- So is the participation, where the voting power is at least the weight cast. -/
theorem participation_eq {castWeight : Nat} (hpower : ∀ n ∈ power, (castWeight : Int) ≤ n) :
    Proposal.participation castWeight power =
      .ok (.finite false (castQuanta castWeight power)) := by
  cases power with
  | none => rfl
  | some n =>
      have hle := hpower n rfl
      rw [Proposal.participation, castQuanta]
      by_cases hzero : n = 0
      · rw [if_pos hzero, if_neg (by omega), Binary64.hundred]
      · have hpos : 0 < n := by omega
        lift n to ℕ using hpos.le
        rw [if_neg hzero, if_pos hpos, Int.toNat_natCast]
        exact percent_eq (by omega) (by omega)

/-- A ballot succeeds if neither threshold exceeds its percentage. -/
theorem isSuccessful_eq (hpower : ∀ n ∈ power, (yes : Int) + no + abstain ≤ n)
    (he : execution.toBinary64 = .ok e) (hq : participation.toBinary64 = .ok q) :
    ∃ r, ofWeights yes no abstain execution participation power = .ok r ∧
      r.isSuccessful = (q.le (.finite false (castQuanta (yes + no + abstain) power)) &&
        e.le (.finite false (yesQuanta yes no))) := by
  have hnonneg : ∀ n ∈ power, 0 ≤ n := by
    intro n hn
    have hle := hpower n hn
    omega
  have hcast : Proposal.participation ((yes : Int) + no + abstain) power =
      .ok (.finite false (castQuanta (yes + no + abstain) power)) := by
    rw [← participation_eq (by exact_mod_cast hpower)]
    push_cast
    rfl
  obtain ⟨r, hr, -, -, hsuccess⟩ := ofWeights_eq hnonneg hcast share_eq he hq
  exact ⟨r, hr, hsuccess⟩

/-- Where there is an outcome, both thresholds can be compared. -/
theorem thresholds_of_ofWeights {yes no abstain : Int}
    (h : ofWeights yes no abstain execution participation power = .ok r) :
    (∃ e, execution.toBinary64 = .ok e) ∧ ∃ q, participation.toBinary64 = .ok q := by
  by_cases hvoted : 0 < yes + no
  all_goals
    cases power with
    | none =>
        simp only [ofWeights, hvoted, ↓reduceIte, bind_eq_ok] at h
        obtain ⟨_, -, q, hq, _, -, e, he, -⟩ := h
        exact ⟨⟨e, he⟩, q, hq⟩
    | some n =>
        by_cases hpos : 0 < n
        all_goals
          simp only [ofWeights, hvoted, hpos, ↓reduceIte, bind_eq_ok] at h
          obtain ⟨_, -, q, hq, _, -, e, he, -⟩ := h
          exact ⟨⟨e, he⟩, q, hq⟩

/-- Success is kept where neither percentage falls. -/
theorem succeeds_of_le (hpower : ∀ n ∈ power, (yes : Int) + no + abstain ≤ n)
    (hpower' : ∀ n ∈ power, (yes' : Int) + no' + abstain' ≤ n)
    (hcast : yes + no + abstain ≤ yes' + no' + abstain') (hvoted : yes + no ≤ yes' + no')
    (hshare : yes * no' ≤ yes' * no)
    (h : ofWeights yes no abstain execution participation power = .ok r)
    (hsuccess : r.isSuccessful = true) :
    ∃ r', ofWeights yes' no' abstain' execution participation power = .ok r' ∧
      r'.isSuccessful = true := by
  obtain ⟨⟨e, he⟩, q, hq⟩ := thresholds_of_ofWeights h
  obtain ⟨r₁, hr₁, hmet⟩ := isSuccessful_eq hpower he hq
  obtain ⟨r', hr', hmet'⟩ := isSuccessful_eq hpower' he hq
  rw [h] at hr₁
  obtain rfl := Except.ok.inj hr₁
  rw [hsuccess, eq_comm, Bool.and_eq_true] at hmet
  refine ⟨r', hr', ?_⟩
  rw [hmet', Bool.and_eq_true]
  exact ⟨Binary64.le_finite_mono (castQuanta_mono hcast) hmet.1,
    Binary64.le_finite_mono (yesQuanta_mono hvoted hshare) hmet.2⟩

/-! ## More support -/

/-- The weights of a fixed ballot together. -/
def castBy (weights : VoteChoice → Int) : Int := weights .yes + weights .no + weights .abstain

/-- Weights that are more in favour by some weight: more for yes, more that abstains, or
weight for no that is for yes instead. -/
inductive Gains (gain : Int) (weights weights' : VoteChoice → Int) : Prop
  | yes (more : weights' .yes = weights .yes + gain) (no : weights' .no = weights .no)
      (abstain : weights' .abstain = weights .abstain)
  | abstain (yes : weights' .yes = weights .yes) (no : weights' .no = weights .no)
      (more : weights' .abstain = weights .abstain + gain)
  | turned (enough : gain ≤ weights .no) (more : weights' .yes = weights .yes + gain)
      (fewer : weights' .no = weights .no - gain) (abstain : weights' .abstain = weights .abstain)

end VoteResult

/-- On a fixed ballot with weights that are not negative, and with a voting power that is
absent or at least the weight cast, a proposal that succeeds would also succeed if there were
more votes for yes, or more that abstain, or if votes for no were for yes instead. -/
theorem success_monotone {execution participation : Threshold} {power : Option Int}
    {rows rows' : List TallyRow} {gain : Int} {r : VoteResult}
    (hweights : ∀ choice, 0 ≤ VoteResult.weightOf rows choice) (hgain : 0 ≤ gain)
    (gains : VoteResult.Gains gain (VoteResult.weightOf rows) (VoteResult.weightOf rows'))
    (hpower : ∀ n ∈ power, VoteResult.castBy (VoteResult.weightOf rows) ≤ n)
    (hpower' : ∀ n ∈ power, VoteResult.castBy (VoteResult.weightOf rows') ≤ n)
    (hr : VoteResult.ofRows rows execution participation power = .ok r)
    (hsuccess : r.isSuccessful = true) :
    ∃ r', VoteResult.ofRows rows' execution participation power = .ok r' ∧
      r'.isSuccessful = true := by
  obtain ⟨yes, hyes⟩ := Int.eq_ofNat_of_zero_le (hweights .yes)
  obtain ⟨no, hno⟩ := Int.eq_ofNat_of_zero_le (hweights .no)
  obtain ⟨abstain, habstain⟩ := Int.eq_ofNat_of_zero_le (hweights .abstain)
  lift gain to ℕ using hgain
  rw [VoteResult.castBy, hyes, hno, habstain] at hpower
  rw [VoteResult.ofRows, hyes, hno, habstain] at hr
  rw [VoteResult.castBy] at hpower'
  rw [VoteResult.ofRows]
  cases gains with
  | yes more same same' =>
      rw [more, same, same', hyes, hno, habstain] at hpower' ⊢
      refine VoteResult.succeeds_of_le hpower hpower' (by omega) (by omega) ?_ hr hsuccess
      exact Nat.mul_le_mul_right _ (by omega)
  | abstain same same' more =>
      rw [more, same, same', hyes, hno, habstain] at hpower' ⊢
      exact VoteResult.succeeds_of_le hpower hpower' (by omega) (by omega) (Nat.le_refl _) hr
        hsuccess
  | turned enough more fewer same =>
      have hle : gain ≤ no := by omega
      rw [more, fewer, same, hyes, hno, habstain, ← Nat.cast_sub hle] at hpower' ⊢
      refine VoteResult.succeeds_of_le hpower hpower' (by omega) (by omega) ?_ hr hsuccess
      exact Nat.mul_le_mul (by omega) (by omega)

/-- Thirty of a hundred votes succeed at a threshold of thirty percent, and so do five more
that were for no before. -/
theorem success_monotone_of_thirty :
    ∃ r, VoteResult.ofRows (Sample.ballot 30 70) (Sample.wholePercent 30) (Sample.wholePercent 100)
        (some 100) = .ok r ∧ r.isSuccessful = true ∧
      VoteResult.Gains 5 (VoteResult.weightOf (Sample.ballot 30 70))
        (VoteResult.weightOf (Sample.ballot 35 65)) ∧
      ∃ r', VoteResult.ofRows (Sample.ballot 35 65) (Sample.wholePercent 30)
        (Sample.wholePercent 100) (some 100) = .ok r' ∧ r'.isSuccessful = true := by
  have hsome : ((VoteResult.ofRows (Sample.ballot 30 70) (Sample.wholePercent 30)
      (Sample.wholePercent 100) (some 100)).toOption.map (·.isSuccessful)) = some true := by
    decide +kernel
  obtain ⟨r, hr, hsuccess⟩ := Option.map_eq_some_iff.1 hsome
  rw [toOption_eq_some] at hr
  have hgains : VoteResult.Gains 5 (VoteResult.weightOf (Sample.ballot 30 70))
      (VoteResult.weightOf (Sample.ballot 35 65)) :=
    .turned (by decide) (by decide) (by decide) (by decide)
  exact ⟨r, hr, hsuccess, hgains, success_monotone
    (Sample.weightOf_ballot_nonneg (by decide : (0 : Int) ≤ 30) (by decide : (0 : Int) ≤ 70))
    (by decide) hgains (by decide) (by decide) hr hsuccess⟩

end VaultGovernance
