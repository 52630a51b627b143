import VaultGovernance.Proofs.Decision
import VaultGovernance.Proofs.Magnitude

/-!
# VaultGovernance.Proofs.Shares

Shares of a whole against thresholds.  A share is divided, rounded, multiplied by one
hundred and rounded again before it is compared with the double nearest to a threshold,
so what is decided need not be what the weights say.  How far it can be off is known: a
share that differs from the threshold by more than one part in `2 ^ 51` is decided as its
weights say, and at the threshold itself the outcome depends on the threshold alone.

`Share.Clear` collects what must hold for a share to be decided as its weights say, and
`Share.Reached` which thresholds are met by a share that hits them exactly.
-/

namespace VaultGovernance

namespace Share

open Binary64

/-! ## Thresholds and shares as counts of quanta -/

/-- The double nearest to so many hundredths, in quanta. -/
def hundredths (n : Nat) : Nat := roundQuanta (n * one) 100

/-- The double that is computed for the share `a / b` in percent, in quanta. -/
def percentQuanta (a b : Nat) : Nat := roundQuanta (100 * roundQuanta (a * one) b) 1

/-- A share of exactly so many hundredths of a percent reaches the double that the
threshold is compared as. -/
def Reached (n : Nat) : Prop := hundredths n ≤ percentQuanta n 10000

instance (n : Nat) : Decidable (Reached n) := inferInstanceAs (Decidable (_ ≤ _))

/-- Larger thresholds are not compared as smaller doubles. -/
theorem hundredths_mono {m n : Nat} (h : m ≤ n) : hundredths m ≤ hundredths n :=
  roundQuanta_mono (by decide) (by decide) (Nat.mul_le_mul_right _ (Nat.mul_le_mul_right _ h))

/-- Larger shares are not computed as smaller doubles. -/
theorem percentQuanta_mono {a b a' b' : Nat} (hb : 0 < b) (hb' : 0 < b')
    (h : a * b' ≤ a' * b) : percentQuanta a b ≤ percentQuanta a' b' := by
  have hquot : roundQuanta (a * one) b ≤ roundQuanta (a' * one) b' := by
    refine roundQuanta_mono hb hb' ?_
    calc a * one * b' = a * b' * one := by ring
      _ ≤ a' * b * one := Nat.mul_le_mul_right _ h
      _ = a' * one * b := by ring
  refine roundQuanta_mono (by decide) (by decide) (Nat.mul_le_mul_right _ ?_)
  exact Nat.mul_le_mul_left _ hquot

theorem hundredths_zero : hundredths 0 = 0 := by decide +kernel

theorem hundredths_pos {n : Nat} (h : 0 < n) : 0 < hundredths n :=
  Nat.lt_of_lt_of_le (by decide +kernel : 0 < hundredths 1) (hundredths_mono h)

/-- The whole is one hundred percent. -/
theorem hundredths_max : hundredths 10000 = 100 * one := by decide +kernel

/-- Equal shares are computed as the same double. -/
theorem percentQuanta_congr {a b a' b' : Nat} (hb : 0 < b) (hb' : 0 < b')
    (h : a * b' = a' * b) : percentQuanta a b = percentQuanta a' b' :=
  Nat.le_antisymm (percentQuanta_mono hb hb' h.le) (percentQuanta_mono hb' hb h.ge)

/-! ## Where rounding cannot matter -/

section Room

variable {n a b : Nat}

/-- Thresholds are normal numbers. -/
theorem hundredths_close (hn : 0 < n) :
    (hundredths n : ℚ) ≤ (1 + roundoff) * (n * one / 100) ∧
      (1 - roundoff) * (n * one / 100) ≤ hundredths n := by
  have hone : normal * 100 ≤ one := by decide +kernel
  have hnormal : normal * 100 ≤ n * one := hone.trans (Nat.le_mul_of_pos_left one hn)
  have hclose := roundQuanta_close (by decide : 0 < 100) hnormal
  rw [Nat.cast_mul, Nat.cast_ofNat] at hclose
  exact hclose

/-- A share in the normal range is computed with two roundings. -/
theorem percentQuanta_close (hb : 0 < b) (h : normal * b ≤ a * one) :
    (percentQuanta a b : ℚ) ≤ (1 + roundoff) ^ 2 * (100 * (a * one / b)) ∧
      (1 - roundoff) ^ 2 * (100 * (a * one / b)) ≤ percentQuanta a b := by
  have hquot : normal ≤ roundQuanta (a * one) b := twoTo_le_roundQuanta hb h
  have hnormal : normal * 1 ≤ 100 * roundQuanta (a * one) b := by omega
  obtain ⟨hhigh, hlow⟩ := roundQuanta_close hb h
  obtain ⟨hhigh', hlow'⟩ := roundQuanta_close (by decide : 0 < 1) hnormal
  rw [Nat.cast_mul] at hhigh hlow
  rw [Nat.cast_mul, Nat.cast_ofNat, Nat.cast_one, div_one] at hhigh' hlow'
  have hup : (0 : ℚ) ≤ 1 + roundoff := by unfold roundoff; norm_num
  have hdown : (0 : ℚ) ≤ 1 - roundoff := by unfold roundoff; norm_num
  constructor
  · calc (percentQuanta a b : ℚ) ≤ (1 + roundoff) * (100 * roundQuanta (a * one) b) := hhigh'
      _ ≤ (1 + roundoff) * (100 * ((1 + roundoff) * (a * one / b))) := by gcongr
      _ = (1 + roundoff) ^ 2 * (100 * (a * one / b)) := by ring
  · calc (1 - roundoff) ^ 2 * (100 * (a * one / b))
        = (1 - roundoff) * (100 * ((1 - roundoff) * (a * one / b))) := by ring
      _ ≤ (1 - roundoff) * (100 * roundQuanta (a * one) b) := by gcongr
      _ ≤ percentQuanta a b := hlow'

/-- A share with enough room above a threshold is computed as reaching it. -/
theorem hundredths_le_of_room (hb : 0 < b)
    (h : (2 ^ 51 + 1) * (n * b) ≤ 2 ^ 51 * (10000 * a)) : hundredths n ≤ percentQuanta a b := by
  rcases Nat.eq_zero_or_pos n with rfl | hn
  · rw [hundredths_zero]
    exact Nat.zero_le _
  have hpos : (0 : ℚ) < b := by exact_mod_cast hb
  have hnormal : normal * b ≤ a * one := by
    have hone : 10000 * normal ≤ one := by decide +kernel
    have hle : b ≤ n * b := Nat.le_mul_of_pos_left b hn
    have hlarge : b ≤ 10000 * a := by omega
    refine Nat.le_of_mul_le_mul_left ?_ (by decide : 0 < 10000)
    calc 10000 * (normal * b) = 10000 * normal * b := by ring
      _ ≤ one * (10000 * a) := Nat.mul_le_mul hone hlarge
      _ = 10000 * (a * one) := by ring
  have hratio : (1 + 4 * roundoff) * n ≤ 10000 * (a / b) := by
    have h' : ((2 : ℚ) ^ 51 + 1) * (n * b) ≤ 2 ^ 51 * (10000 * a) := by exact_mod_cast h
    rw [mul_div_assoc', le_div_iff₀ hpos]
    unfold roundoff
    linarith
  -- Three roundings take less than the room.
  have hroundings : 1 + roundoff ≤ (1 - roundoff) ^ 2 * (1 + 4 * roundoff) := by
    unfold roundoff
    norm_num
  have hrational : (hundredths n : ℚ) ≤ percentQuanta a b := by
    have hthreshold := (hundredths_close hn).1
    have hshare := (percentQuanta_close hb hnormal).2
    have hunit : (0 : ℚ) ≤ one := Nat.cast_nonneg one
    generalize (one : ℚ) = unit at hthreshold hshare hunit
    calc (hundredths n : ℚ) ≤ (1 + roundoff) * (n * unit / 100) := hthreshold
      _ ≤ (1 - roundoff) ^ 2 * (1 + 4 * roundoff) * (n * unit / 100) := by gcongr
      _ = (1 - roundoff) ^ 2 * ((1 + 4 * roundoff) * n * (unit / 100)) := by ring
      _ ≤ (1 - roundoff) ^ 2 * (10000 * (a / b) * (unit / 100)) := by gcongr
      _ = (1 - roundoff) ^ 2 * (100 * (a * unit / b)) := by ring
      _ ≤ percentQuanta a b := hshare
  exact_mod_cast hrational

/-- A share with enough room below a threshold is computed as missing it. -/
theorem percentQuanta_lt_of_room (hn : 0 < n) (hb : 0 < b)
    (h : 2 ^ 51 * (10000 * a) + n * b ≤ 2 ^ 51 * (n * b)) :
    percentQuanta a b < hundredths n := by
  by_cases hnormal : normal * b ≤ a * one
  · have hpos : (0 : ℚ) < b := by exact_mod_cast hb
    have hratio : 10000 * (a / b) ≤ (1 - 4 * roundoff) * n := by
      have h' : (2 : ℚ) ^ 51 * (10000 * a) + n * b ≤ 2 ^ 51 * (n * b) := by exact_mod_cast h
      rw [mul_div_assoc', div_le_iff₀ hpos]
      unfold roundoff
      linarith
    have hroundings : (1 + roundoff) ^ 2 * (1 - 4 * roundoff) < 1 - roundoff := by
      unfold roundoff
      norm_num
    have hrational : (percentQuanta a b : ℚ) < hundredths n := by
      have hthreshold := (hundredths_close hn).2
      have hshare := (percentQuanta_close hb hnormal).1
      have hunit : (0 : ℚ) < one := Nat.cast_pos.2 Binary64.one_pos
      generalize (one : ℚ) = unit at hthreshold hshare hunit
      calc (percentQuanta a b : ℚ) ≤ (1 + roundoff) ^ 2 * (100 * (a * unit / b)) := hshare
        _ = (1 + roundoff) ^ 2 * (10000 * (a / b) * (unit / 100)) := by ring
        _ ≤ (1 + roundoff) ^ 2 * ((1 - 4 * roundoff) * n * (unit / 100)) := by gcongr
        _ = (1 + roundoff) ^ 2 * (1 - 4 * roundoff) * (n * unit / 100) := by ring
        _ < (1 - roundoff) * (n * unit / 100) := by gcongr
        _ ≤ hundredths n := hthreshold
    exact_mod_cast hrational
  · -- The share is next to nothing, and the smallest threshold is not.
    have hquot : roundQuanta (a * one) b ≤ twoTo 52 :=
      roundQuanta_le_twoTo hb (Nat.le_of_not_le hnormal)
    calc percentQuanta a b ≤ roundQuanta (100 * twoTo 52) 1 :=
          roundQuanta_mono (by decide) (by decide)
            (Nat.mul_le_mul_right 1 (Nat.mul_le_mul_left 100 hquot))
      _ < hundredths 1 := by decide +kernel
      _ ≤ hundredths n := hundredths_mono hn

end Room

/-- Rounding does not matter for a share `a / b` and a threshold of `n` hundredths of a
percent: a share that is not below the threshold reaches it, because one that hits it
does or because there is room, and there is room for a share that is below. -/
structure Clear (n : Nat) (a b : Int) : Prop where
  above : n * b ≤ 10000 * a → Reached n ∨ n * b ≤ 2 ^ 51 * (10000 * a - n * b)
  below : 10000 * a < n * b → n * b ≤ 2 ^ 51 * (n * b - 10000 * a)

/-- A share for which rounding does not matter is computed as reaching a threshold
exactly when it does. -/
theorem Clear.hundredths_le_iff {n a b : Nat} (h : Clear n a b) (hb : 0 < b) :
    hundredths n ≤ percentQuanta a b ↔ n * b ≤ 10000 * a := by
  obtain ⟨habove, hbelow⟩ := h
  constructor
  · intro hle
    by_contra hlt
    have hroom := hbelow (by exact_mod_cast Nat.not_le.1 hlt)
    have hn : 0 < n := Nat.pos_of_ne_zero fun hzero => by simp [hzero] at hlt
    refine Nat.not_le.2 (percentQuanta_lt_of_room hn hb ?_) hle
    push_cast at hroom
    omega
  · intro hle
    rcases habove (by exact_mod_cast hle) with hreached | hroom
    · exact Nat.le_trans hreached (percentQuanta_mono (by decide) hb (by omega))
    · refine hundredths_le_of_room hb ?_
      push_cast at hroom
      omega

/-- A share that hits a threshold is computed as reaching it exactly when the threshold
is one that is reached. -/
theorem hundredths_le_iff_reached {n a b : Nat} (hb : 0 < b) (hit : n * b = 10000 * a) :
    hundredths n ≤ percentQuanta a b ↔ Reached n := by
  have hsame : percentQuanta a b = percentQuanta n 10000 :=
    percentQuanta_congr hb (by decide) (by omega)
  rw [hsame, Reached]

/-- Rounding does not matter for wholes of ordinary size, up to exact hits. -/
theorem clear_of_le {n : Nat} {a b : Int} (hsize : n * b ≤ 2 ^ 51)
    (hhit : n * b = 10000 * a → Reached n) : Clear n a b where
  above := by
    intro hle
    rcases hle.eq_or_lt with heq | hlt
    · exact .inl (hhit heq)
    · exact .inr (by omega)
  below := by
    intro hlt
    omega

/-- Among the whole percentages, three are not reached by a share that hits them. -/
theorem reached_whole {n : Nat} (h : n ≤ 100) :
    Reached (100 * n) ↔ n ≠ 29 ∧ n ≠ 57 ∧ n ≠ 58 := by
  have hall : ∀ n ≤ 100, Reached (100 * n) ↔ n ≠ 29 ∧ n ≠ 57 ∧ n ≠ 58 := by decide +kernel
  exact hall n h

end Share

open Share

/-! ## What is compared -/

namespace Binary64

/-- The order of doubles is that of their ranks. -/
theorem le_finite {x : Binary64} {m n : Nat} (h : x.rank? = some (m : Int)) :
    x.le (.finite false n) = decide (m ≤ n) := by
  have hrank : (Binary64.finite false n).rank? = some (n : Int) := rfl
  unfold le
  rw [h, hrank]
  simp

/-- A quotient of natural numbers up to one hundred is a finite double. -/
theorem ofQuotient_of_le {num den : Nat} (hden : 0 < den) (h : num ≤ 100 * den) :
    ofQuotient false num den = .finite false (roundQuanta (num * one) den) := by
  have hlimit : roundQuanta (100 * one) 1 < limit := by decide +kernel
  have hle : roundQuanta (num * one) den ≤ roundQuanta (100 * one) 1 := by
    refine roundQuanta_mono hden (by decide) ?_
    calc num * one * 1 = num * one := Nat.mul_one _
      _ ≤ 100 * den * one := Nat.mul_le_mul_right one h
      _ = 100 * one * den := by ring
  rw [ofQuotient, if_pos (Nat.lt_of_le_of_lt hle hlimit)]

theorem mul_finite (negative negative' : Bool) (m n : Nat) :
    (Binary64.finite negative m).mul (.finite negative' n) =
      ofQuotient (negative != negative') (m * n) (one * one) := rfl

/-- Natural numbers are divided without a sign. -/
theorem divInt?_natCast {a b : Nat} {x : Binary64} (h : ofQuotient false a b = x)
    (hfinite : x.isFinite = true) : divInt? a b = some x := by
  have ha : ¬ (a : Int) < 0 := by omega
  have hb : ¬ (b : Int) < 0 := by omega
  have hsign : (decide ((a : Int) < 0) && !decide ((b : Int) < 0) ||
      !decide ((a : Int) < 0) && decide ((b : Int) < 0)) = false := by
    rw [decide_eq_false ha, decide_eq_false hb]
    rfl
  rw [divInt?, hsign, Int.natAbs_natCast, Int.natAbs_natCast, h, if_pos hfinite]

/-- A share is divided as a quotient of natural numbers. -/
theorem divInt?_of_le {a b : Nat} (hb : 0 < b) (h : a ≤ b) :
    divInt? a b = some (.finite false (roundQuanta (a * one) b)) := by
  have hle : a ≤ 100 * b := by omega
  exact divInt?_natCast (ofQuotient_of_le hb hle) rfl

end Binary64

namespace VoteResult

open Binary64

/-- The percentage of a share is computed in two roundings. -/
theorem percent_eq {a b : Nat} (hb : 0 < b) (h : a ≤ b) :
    percent a b = .ok (.finite false (percentQuanta a b)) := by
  have hshare : roundQuanta (a * one) b ≤ one := by
    have hle : a * one * 1 ≤ one * b := by
      rw [Nat.mul_one, Nat.mul_comm one b]
      exact Nat.mul_le_mul_right one h
    calc roundQuanta (a * one) b ≤ roundQuanta one 1 := roundQuanta_mono hb (by decide) hle
      _ = one := by decide +kernel
  have hproduct : (Binary64.finite false (roundQuanta (a * one) b)).mul .hundred =
      .finite false (percentQuanta a b) := by
    have hpos : 0 < one * one := Nat.mul_pos Binary64.one_pos Binary64.one_pos
    have hle : roundQuanta (a * one) b * (100 * one) ≤ 100 * (one * one) := by
      rw [Nat.mul_left_comm]
      exact Nat.mul_le_mul_left 100 (Nat.mul_le_mul_right one hshare)
    have hsame : roundQuanta (roundQuanta (a * one) b * (100 * one) * one) (one * one) =
        percentQuanta a b :=
      roundQuanta_congr hpos (by decide) (by ring)
    rw [hundred, mul_finite, bne_self_eq_false, ofQuotient_of_le hpos hle, hsame]
  rw [percent, divInt?_of_le hb h, Option.elim_some, hproduct]

end VoteResult

/-- A decimal with a value of so many hundredths is converted to the double nearest to
them; a zero may have a sign. -/
theorem Decimal.rank?_toBinary64 {negative : Bool} {c n : Nat} {x : Int}
    (hvalue : 100 * magnitude c x = n) (hsign : negative = true → c = 0) (hn : n ≤ 10000) :
    (toBinary64 (finite negative c x)).rank? = some (hundredths n : Int) := by
  have hmagnitude : magnitude c x = (n : ℚ) / (100 : Nat) := by
    rw [← hvalue]
    norm_num
  by_cases hc : c = 0
  · have hzero : (n : ℚ) = 0 := by rw [← hvalue, hc, magnitude, Nat.cast_zero, zero_mul, mul_zero]
    rw [Nat.cast_eq_zero.1 hzero, hundredths_zero, toBinary64, if_pos hc]
    cases negative <;> rfl
  · have hpos : 0 < n := by
      refine Nat.pos_of_ne_zero fun hzero => hc ?_
      rw [hzero, Nat.cast_zero, zero_div, magnitude, mul_eq_zero, Nat.cast_eq_zero] at hmagnitude
      exact hmagnitude.resolve_right (by positivity)
    obtain rfl : negative = false := by
      rw [← Bool.not_eq_true]
      exact fun h => hc (hsign h)
    have hlow : (10 : ℚ) ^ (-400 : ℤ) ≤ magnitude c x := by
      have hone : (1 : ℚ) ≤ n := by exact_mod_cast hpos
      rw [hmagnitude]
      calc (10 : ℚ) ^ (-400 : ℤ) ≤ 10 ^ (-2 : ℤ) := by
            rw [zpow_le_zpow_iff_right₀ (by norm_num)]
            norm_num
        _ = 1 / (100 : Nat) := by norm_num
        _ ≤ n / (100 : Nat) := by gcongr
    have hhigh : magnitude c x ≤ 10 ^ 400 := by
      have hmax : (n : ℚ) ≤ 10000 := by exact_mod_cast hn
      rw [hmagnitude]
      calc (n : ℚ) / (100 : Nat) ≤ 10000 / (100 : Nat) := by gcongr
        _ = 10 ^ 2 := by norm_num
        _ ≤ 10 ^ 400 := by gcongr <;> norm_num
    rw [toBinary64_of_magnitude (by decide) hlow hhigh hmagnitude,
      Binary64.ofQuotient_of_le (by decide) (Nat.le_trans hn (by decide))]
    rfl

/-- A threshold of so many hundredths of a percent: a decimal with this value, a whole
number, or the double that is nearest. -/
def Threshold.IsHundredths (n : Nat) : Threshold → Prop
  | decimal (.finite negative c x) =>
    100 * Decimal.magnitude c x = n ∧ (negative = true → c = 0)
  | whole k => 100 * k = n
  | binary x => x = .finite false (hundredths n)
  | _ => False

/-- Up to one hundred percent, a threshold is compared as the double nearest to it. -/
theorem Threshold.IsHundredths.toBinary64 {t : Threshold} {n : Nat} (h : t.IsHundredths n)
    (hn : n ≤ 10000) : ∃ x, t.toBinary64 = .ok x ∧ x.rank? = some (hundredths n : Int) := by
  have hfinite : Binary64.ofQuotient false n 100 = .finite false (hundredths n) :=
    Binary64.ofQuotient_of_le (by decide) (by omega)
  cases t with
  | binary x =>
      obtain rfl : x = _ := h
      exact ⟨_, rfl, rfl⟩
  | whole k =>
      have hk : (100 * k : Int) = n := h
      have hsign : ¬ k < 0 := by omega
      have hsame : hundredths n = Binary64.roundQuanta (k.natAbs * Binary64.one) 1 := by
        refine Binary64.roundQuanta_congr (by decide) (by decide) ?_
        have habs : n = 100 * k.natAbs := by omega
        rw [habs]
        ring
      have hwhole : Binary64.ofInt k = .finite false (hundredths n) := by
        rw [Binary64.ofInt, decide_eq_false hsign,
          Binary64.ofQuotient_of_le (by decide) (by omega), hsame]
      refine ⟨.finite false (hundredths n), ?_, rfl⟩
      rw [Threshold.toBinary64, hwhole]
      rfl
  | decimal d =>
      cases d with
      | infinite negative => exact absurd h id
      | nan negative signalling payload => exact absurd h id
      | finite negative c x =>
          obtain ⟨hvalue, hsign⟩ := h
          exact ⟨_, rfl, Decimal.rank?_toBinary64 hvalue hsign hn⟩

namespace VoteResult

variable {yes no abstain : Int} {execution participation : Threshold} {power : Option Int}
  {e q castPercent share : Binary64}

/-- The participation is complete without voting power, and a share of it otherwise. -/
theorem participation_cases {castWeight : Int} (hpower : ∀ n ∈ power, 0 ≤ n)
    (h : Proposal.participation castWeight power = .ok castPercent) :
    power = none ∧ castPercent = .hundred ∨ power = some 0 ∧ castPercent = .hundred ∨
      ∃ n, power = some n ∧ 0 < n ∧ percent castWeight n = .ok castPercent := by
  cases power with
  | none => exact .inl ⟨rfl, (Except.ok.inj h).symm⟩
  | some n =>
      have hn := hpower n rfl
      by_cases hzero : n = 0
      · rw [Proposal.participation, if_pos hzero] at h
        exact .inr (.inl ⟨by rw [hzero], (Except.ok.inj h).symm⟩)
      · rw [Proposal.participation, if_neg hzero] at h
        exact .inr (.inr ⟨n, rfl, by omega, h⟩)

/-- An outcome compares the two percentages with the thresholds; participation on a
fixed ballot is that on a ballot of one's own. -/
theorem ofWeights_eq (hpower : ∀ n ∈ power, 0 ≤ n)
    (hcast : Proposal.participation (yes + no + abstain) power = .ok castPercent)
    (hshare : (if 0 < yes + no then percent yes (yes + no) else .ok .zero) = .ok share)
    (he : execution.toBinary64 = .ok e) (hq : participation.toBinary64 = .ok q) :
    ∃ r, ofWeights yes no abstain execution participation power = .ok r ∧
      r.meetsExecutionThreshold = e.le share ∧ r.meetsParticipationThreshold = q.le castPercent ∧
      r.isSuccessful = (q.le castPercent && e.le share) := by
  have hcases := participation_cases hpower hcast
  by_cases hvoted : 0 < yes + no
  · rw [if_pos hvoted] at hshare
    rcases hcases with ⟨rfl, rfl⟩ | ⟨rfl, rfl⟩ | ⟨n, rfl, hpos, hpercent⟩
    · simp [ofWeights, hvoted, hshare, he, hq, bind_eq_ok]
    · simp [ofWeights, hvoted, hshare, he, hq, bind_eq_ok]
    · simp [ofWeights, hpos, hpercent, hvoted, hshare, he, hq, bind_eq_ok]
  · rw [if_neg hvoted] at hshare
    obtain rfl : Binary64.zero = share := Except.ok.inj hshare
    rcases hcases with ⟨rfl, rfl⟩ | ⟨rfl, rfl⟩ | ⟨n, rfl, hpos, hpercent⟩
    · simp [ofWeights, hvoted, he, hq, bind_eq_ok]
    · simp [ofWeights, hvoted, he, hq, bind_eq_ok]
    · simp [ofWeights, hpos, hpercent, hvoted, he, hq, bind_eq_ok]

end VoteResult

/-! ## What is decided -/

namespace Share

/-- A decision on the share `a / b` and a threshold of `n` hundredths of a percent: where
rounding does not matter it is what the weights say, and a share that hits the threshold
meets it exactly if the threshold is one that is reached. -/
structure Decides (n : Nat) (a b : Int) (met : Bool) : Prop where
  exact : Clear n a b → (met = true ↔ n * b ≤ 10000 * a)
  hit : n * b = 10000 * a → (met = true ↔ Reached n)

/-- A decision on the participation, which is met without voting power. -/
structure DecidesParticipation (n : Nat) (castWeight : Int) (power : Option Int) (met : Bool) :
    Prop where
  powered : ∀ p ∈ power, p ≠ 0 → Decides n castWeight p met
  powerless : (∀ p ∈ power, p = 0) → met = true

variable {n : Nat} {x : Binary64}

/-- Comparing a threshold with a percentage decides on the share. -/
theorem decides_percent {a b : Int} (hx : x.rank? = some (hundredths n : Int)) (ha : 0 ≤ a)
    (hb : 0 < b) (hle : a ≤ b) :
    ∃ y, VoteResult.percent a b = .ok y ∧ Decides n a b (x.le y) := by
  lift a to ℕ using ha
  lift b to ℕ using hb.le
  have hb' : 0 < b := by exact_mod_cast hb
  refine ⟨_, VoteResult.percent_eq hb' (by exact_mod_cast hle), ?_⟩
  rw [Binary64.le_finite hx]
  constructor
  · intro hclear
    rw [decide_eq_true_eq, hclear.hundredths_le_iff hb']
    norm_cast
  · intro hit
    rw [decide_eq_true_eq]
    exact hundredths_le_iff_reached hb' (by exact_mod_cast hit)

/-- Thresholds do not exceed one hundred percent. -/
theorem le_hundred (hx : x.rank? = some (hundredths n : Int)) (hn : n ≤ 10000) :
    x.le .hundred = true := by
  rw [Binary64.hundred, Binary64.le_finite hx, decide_eq_true_eq, ← hundredths_max]
  exact hundredths_mono hn

/-- Only a threshold of zero does not exceed zero percent. -/
theorem le_zero (hx : x.rank? = some (hundredths n : Int)) : x.le .zero = true ↔ n = 0 := by
  rw [Binary64.zero, Binary64.le_finite hx, decide_eq_true_eq, Nat.le_zero]
  constructor
  · intro h
    by_contra hne
    have hpos := hundredths_pos (Nat.pos_of_ne_zero hne)
    omega
  · intro h
    rw [h, hundredths_zero]

/-- Comparing a threshold with the participation decides on it. -/
theorem decides_participation {castWeight : Int} {power : Option Int}
    (hx : x.rank? = some (hundredths n : Int)) (hn : n ≤ 10000) (hcast : 0 ≤ castWeight)
    (hpower : ∀ p ∈ power, p ≠ 0 → castWeight ≤ p) :
    ∃ y, Proposal.participation castWeight power = .ok y ∧
      DecidesParticipation n castWeight power (x.le y) := by
  cases power with
  | none =>
      exact ⟨.hundred, rfl, fun p hp => absurd hp (by simp), fun _ => le_hundred hx hn⟩
  | some p =>
      by_cases hzero : p = 0
      · refine ⟨.hundred, by rw [Proposal.participation, if_pos hzero], ?_, fun _ =>
          le_hundred hx hn⟩
        intro q hq hne
        rw [Option.mem_some_iff] at hq
        exact absurd (hq.symm.trans hzero) hne
      · have hle := hpower p rfl hzero
        obtain ⟨y, hy, hdecides⟩ := decides_percent hx hcast (by omega) hle
        refine ⟨y, by rw [Proposal.participation, if_neg hzero, hy], ?_, fun hall =>
          absurd (hall p rfl) hzero⟩
        intro q hq hne
        rw [Option.mem_some_iff] at hq
        exact hq ▸ hdecides

end Share

/-- Decisions compare shares with thresholds exactly, as far as rounding lets them.  For
thresholds up to one hundred percent with two digits after the point, weights that are
not negative, and a voting power that is absent, zero or at least the weight cast, there
is an outcome.  It succeeds when both thresholds are met.  The execution threshold is
compared with yes among yes and no, and is met without any such votes only if it is zero;
the participation threshold is compared with the weight cast among the voting power, and
is met if there is none.  Both comparisons are exact for every share that is clear of the
threshold, and where a share hits it the threshold alone decides whether it is met.  On a
ballot of one's own, participation is decided in the same way. -/
theorem shares_decided_where_clear {execution participation : Threshold} {e p : Nat}
    {power : Option Int} {rows custom : List TallyRow}
    (he : execution.IsHundredths e) (hemax : e ≤ 10000)
    (hp : participation.IsHundredths p) (hpmax : p ≤ 10000)
    (hweights : ∀ choice, 0 ≤ VoteResult.weightOf rows choice)
    (hpower : ∀ n ∈ power, n ≠ 0 → VoteResult.weightOf rows .yes + VoteResult.weightOf rows .no +
      VoteResult.weightOf rows .abstain ≤ n)
    (hcustom : 0 ≤ TallyRow.totalWeight custom)
    (hcustomPower : ∀ n ∈ power, n ≠ 0 → TallyRow.totalWeight custom ≤ n) :
    let yes := VoteResult.weightOf rows .yes
    let no := VoteResult.weightOf rows .no
    let abstain := VoteResult.weightOf rows .abstain
    (∃ r, VoteResult.ofRows rows execution participation power = .ok r ∧
      (0 < yes + no → Share.Decides e yes (yes + no) r.meetsExecutionThreshold) ∧
      (yes + no = 0 → (r.meetsExecutionThreshold = true ↔ e = 0)) ∧
      Share.DecidesParticipation p (yes + no + abstain) power r.meetsParticipationThreshold ∧
      r.isSuccessful = (r.meetsParticipationThreshold && r.meetsExecutionThreshold)) ∧
    ∃ met, Proposal.passesCustom custom participation power =
        .ok ((TallyRow.leading? custom).isSome && met) ∧
      Share.DecidesParticipation p (TallyRow.totalWeight custom) power met := by
  intro yes no abstain
  obtain ⟨x, hx, hxrank⟩ := he.toBinary64 hemax
  obtain ⟨q, hq, hqrank⟩ := hp.toBinary64 hpmax
  have hyes : 0 ≤ yes := hweights .yes
  have hno : 0 ≤ no := hweights .no
  have habstain : 0 ≤ abstain := hweights .abstain
  constructor
  · obtain ⟨cast, hcast, hparticipation⟩ :=
      Share.decides_participation hqrank hpmax (by omega : 0 ≤ yes + no + abstain) hpower
    have hexecution : ∃ share, (if 0 < yes + no then VoteResult.percent yes (yes + no)
        else .ok .zero) = .ok share ∧
        (0 < yes + no → Share.Decides e yes (yes + no) (x.le share)) ∧
        (yes + no = 0 → (x.le share = true ↔ e = 0)) := by
      by_cases hvoted : 0 < yes + no
      · obtain ⟨share, hshare, hdecides⟩ :=
          Share.decides_percent hxrank hyes hvoted (by omega : yes ≤ yes + no)
        exact ⟨share, by rw [if_pos hvoted, hshare], fun _ => hdecides, fun hnone => by omega⟩
      · exact ⟨.zero, if_neg hvoted, fun h => absurd h hvoted, fun _ => Share.le_zero hxrank⟩
    obtain ⟨share, hshare, hdecides, hunvoted⟩ := hexecution
    have hpowerNonneg : ∀ n ∈ power, 0 ≤ n := by
      intro n hn
      by_cases hzero : n = 0
      · omega
      · have hle := hpower n hn hzero
        omega
    obtain ⟨r, hr, hmeets, hmeetsParticipation, hsuccess⟩ :=
      VoteResult.ofWeights_eq hpowerNonneg hcast hshare hx hq
    rw [← hmeets] at hdecides hunvoted
    rw [← hmeetsParticipation] at hparticipation
    rw [← hmeets, ← hmeetsParticipation] at hsuccess
    exact ⟨r, hr, hdecides, hunvoted, hparticipation, hsuccess⟩
  · obtain ⟨cast, hcast, hparticipation⟩ :=
      Share.decides_participation hqrank hpmax hcustom hcustomPower
    refine ⟨q.le cast, ?_, hparticipation⟩
    cases hleading : TallyRow.leading? custom <;>
      simp [Proposal.passesCustom, hcast, hleading, hq, bind, Except.bind, pure, Except.pure]

namespace Sample

/-- A ballot with a weight for yes and for no, and nothing for abstain. -/
def ballot (yes no : Int) : List TallyRow :=
  [⟨"yes", "Yes", 1, yes⟩, ⟨"no", "No", 1, no⟩]

/-- A threshold of a whole percentage. -/
def wholePercent (n : Nat) : Threshold := .decimal (.finite false n 0)

theorem isHundredths_wholePercent (n : Nat) : (wholePercent n).IsHundredths (100 * n) := by
  constructor
  · rw [Decimal.magnitude]
    push_cast
    norm_num
  · exact fun h => absurd h Bool.false_ne_true

theorem weightOf_ballot_nonneg {yes no : Int} (hyes : 0 ≤ yes) (hno : 0 ≤ no)
    (choice : VoteChoice) : 0 ≤ VoteResult.weightOf (ballot yes no) choice := by
  cases choice
  · exact hyes
  · exact hno
  · exact le_rfl

end Sample

/-- Thirty of a hundred votes hit a threshold of thirty percent and meet it. -/
theorem shares_decided_at_thirty :
    ∃ r, VoteResult.ofRows (Sample.ballot 30 70) (Sample.wholePercent 30)
        (Sample.wholePercent 51) (some 100) = .ok r ∧
      r.meetsExecutionThreshold = true ∧ r.meetsParticipationThreshold = true ∧
      r.isSuccessful = true := by
  obtain ⟨⟨r, hr, hexecution, -, hparticipation, hsuccess⟩, -⟩ :=
    shares_decided_where_clear (Sample.isHundredths_wholePercent 30) (by decide)
      (Sample.isHundredths_wholePercent 51) (by decide)
      (Sample.weightOf_ballot_nonneg (by decide : (0 : Int) ≤ 30) (by decide : (0 : Int) ≤ 70))
      (by decide : ∀ n ∈ some (100 : Int), n ≠ 0 → 30 + 70 + 0 ≤ n)
      (show 0 ≤ TallyRow.totalWeight (Sample.ballot 30 70) by decide)
      (by decide)
  have hexecution' := hexecution (by decide)
  have hmet : r.meetsExecutionThreshold = true :=
    (hexecution'.hit (by decide)).2 ((Share.reached_whole (by decide)).2 (by decide))
  have hclear : Share.Clear (100 * 51) (30 + 70 + 0) 100 :=
    Share.clear_of_le (by decide) (by decide)
  have hmetParticipation : r.meetsParticipationThreshold = true :=
    ((hparticipation.powered 100 rfl (by decide)).exact hclear).2 (by decide)
  refine ⟨r, hr, hmet, hmetParticipation, ?_⟩
  rw [hsuccess, hmet, hmetParticipation]
  rfl

/-- Twenty-nine of a hundred votes hit a threshold of twenty-nine percent and miss it, as
does the weight cast on a ballot of one's own. -/
theorem share_of_twenty_nine_misses :
    (100 * 29 ≥ 29 * (29 + 71) ∧
      (VoteResult.ofRows (Sample.ballot 29 71) (Sample.wholePercent 29) (Sample.wholePercent 51)
        (some 100)).toOption.map (·.meetsExecutionThreshold) = some false) ∧
    (100 * 29 ≥ 29 * 100 ∧ (TallyRow.leading? (Sample.ballot 29 0)).isSome = true ∧
      (Proposal.passesCustom (Sample.ballot 29 0) (Sample.wholePercent 29)
        (some 100)).toOption = some false) := by
  decide +kernel

end VaultGovernance
