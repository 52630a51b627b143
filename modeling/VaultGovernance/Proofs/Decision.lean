import VaultGovernance.Proofs.Counting
import VaultGovernance.Proofs.Rounding

/-!
# VaultGovernance.Proofs.Decision

When a proposal can be decided.  A decision divides weights by the voting power
and compares the shares with thresholds.  Shares are no larger than the whole, so
they are finite doubles whatever the balances are; the thresholds a vault stores
are never a signalling `nan`.  What is left is the tally, which adds weights up in
64 bits: it is returned exactly when the votes for each entry weigh less than
`2 ^ 63` together.
-/

namespace VaultGovernance

/-! ## Adding up in 64 bits -/

namespace Vote

/-- Weights that are not negative can be added to a number that fits exactly when
the result fits. -/
theorem isSome_foldlM_bounded {weights : List Int} (hnonneg : ∀ w ∈ weights, 0 ≤ w) (start : Int)
    (hstart : 0 ≤ start) (hfits : start < Column.bigintBound) :
    (weights.foldlM
        (fun sum w => if Column.fitsBigint (sum + w) then some (sum + w) else none) start).isSome ↔
      start + weights.sum < Column.bigintBound := by
  induction weights generalizing start with
  | nil => simp [hfits]
  | cons w rest ih =>
      obtain ⟨hw, hrest⟩ := List.forall_mem_cons.1 hnonneg
      have hsum : 0 ≤ rest.sum := List.sum_nonneg hrest
      have hlow : -Column.bigintBound ≤ start + w := by
        have hbound : 0 ≤ Column.bigintBound := by decide
        omega
      rw [List.foldlM_cons, List.sum_cons, ← Int.add_assoc]
      by_cases hnext : start + w < Column.bigintBound
      · have hstep : Column.fitsBigint (start + w) = true := by
          simp [Column.fitsBigint, hlow, hnext]
        rw [if_pos hstep]
        exact ih hrest _ (by omega) hnext
      · have hstep : ¬ Column.fitsBigint (start + w) = true := by
          simp [Column.fitsBigint, hnext]
        rw [if_neg hstep]
        simp only [Option.bind_eq_bind, Option.bind_none, Option.isSome_none]
        constructor
        · intro h
          cases h
        · intro h
          omega

variable {votes : List Vote}

/-- Weights of votes are not negative if the votes have none that is. -/
theorem nonneg_weights (hnonneg : ∀ v ∈ votes, 0 ≤ v.weight) :
    ∀ w ∈ votes.map (·.weight), 0 ≤ w := by
  intro w hw
  obtain ⟨v, hv, rfl⟩ := List.mem_map.1 hw
  exact hnonneg v hv

/-- The weights for an entry are some of all weights. -/
theorem sublist_weightsFor (votes : List Vote) (option : String) :
    (weightsFor votes option).Sublist (votes.map (·.weight)) :=
  List.filter_sublist.map _

theorem nonneg_weightsFor (hnonneg : ∀ v ∈ votes, 0 ≤ v.weight) (option : String) :
    ∀ w ∈ weightsFor votes option, 0 ≤ w :=
  fun w hw => nonneg_weights hnonneg w ((sublist_weightsFor votes option).subset hw)

/-- Votes with weights that are not negative can be counted exactly when those
for each entry fit 64 bits together. -/
theorem canSum_iff (hnonneg : ∀ v ∈ votes, 0 ≤ v.weight) :
    canSum votes = true ↔ ∀ option, (weightsFor votes option).sum < 2 ^ 63 := by
  have hentry (option : String) :
      (boundedSum (weightsFor votes option)).isSome ↔ (weightsFor votes option).sum < 2 ^ 63 := by
    have h := isSome_foldlM_bounded (nonneg_weightsFor hnonneg option) 0 le_rfl (by decide)
    rw [Int.zero_add] at h
    exact h
  rw [canSum, List.all_eq_true]
  constructor
  · intro h option
    by_cases hnamed : ∃ v ∈ votes, v.optionId = option
    · obtain ⟨v, hv, rfl⟩ := hnamed
      exact (hentry v.optionId).1 (h v hv)
    · -- Nobody voted for the entry.
      have hnone : weightsFor votes option = [] := by
        rw [weightsFor, List.map_eq_nil_iff, List.filter_eq_nil_iff]
        exact fun v hv => by simpa using fun h => hnamed ⟨v, hv, h⟩
      rw [hnone]
      decide
  · exact fun h v hv => (hentry v.optionId).2 (h v.optionId)

end Vote

/-! ## Shares and thresholds -/

namespace VoteResult

/-- A share of a whole has a percentage. -/
theorem percent_total {a b : Int} (ha : 0 ≤ a) (hb : 0 < b) (hle : a ≤ b) :
    ∃ x, percent a b = .ok x := by
  obtain ⟨q, hq⟩ := Option.isSome_iff_exists.1 (Binary64.isSome_divInt? ha hb hle)
  exact ⟨q.mul .hundred, by rw [percent, hq, Option.elim_some]⟩

/-- Weights within the voting power have an outcome. -/
theorem ofWeights_total {yes no abstain power : Int} {execution participation : Threshold}
    {e q : Binary64} (hyes : 0 ≤ yes) (hno : 0 ≤ no) (habstain : 0 ≤ abstain)
    (hpower : yes + no + abstain ≤ power) (he : execution.toBinary64 = .ok e)
    (hq : participation.toBinary64 = .ok q) :
    ∃ result, ofWeights yes no abstain execution participation (some power) = .ok result := by
  by_cases hpositive : 0 < power
  · obtain ⟨cast, hcast⟩ := percent_total (by omega) hpositive hpower
    by_cases hvoted : 0 < yes + no
    · obtain ⟨share, hshare⟩ := percent_total hyes hvoted (by omega)
      simp only [ofWeights, if_pos hpositive, if_pos hvoted, bind_eq_ok, pure_eq_ok, hcast, hshare,
        he, hq, Except.ok.injEq, exists_eq_left', exists_eq']
    · simp only [ofWeights, if_pos hpositive, if_neg hvoted, bind_eq_ok, pure_eq_ok, hcast, he, hq,
        Except.ok.injEq, exists_eq_left', exists_eq']
  · have hvoted : ¬ 0 < yes + no := by omega
    simp only [ofWeights, if_neg hpositive, if_neg hvoted, bind_eq_ok, pure_eq_ok, he, hq,
      Except.ok.injEq, exists_eq_left', exists_eq']

end VoteResult

/-- A threshold that is not a signalling `nan`. -/
def Decimal.IsQuiet (d : Decimal) : Prop := ∀ negative payload, d ≠ .nan negative true payload

namespace Decimal

/-- Numeric columns show no signalling `nan`. -/
theorem isQuiet_of_shownDouble {places : Nat} {x : Binary64} {d : Decimal}
    (h : Column.shownDouble places x = some d) : d.IsQuiet := by
  intro negative payload hd
  subst hd
  cases x with
  | nan => cases h
  | infinite negative => cases h
  | finite negative quanta => cases quanta <;> cases h

theorem isQuiet_of_stored {places : Nat} {given : Option Decimal} {d : Decimal}
    (h : Column.optionalNumeric places given = .ok (some d)) : d.IsQuiet := by
  cases given with
  | none => cases h
  | some x =>
      rw [Column.optionalNumeric] at h
      unfold Column.numeric at h
      split at h
      · cases h
      · exact isQuiet_of_shownDouble (Except.ok.inj h)

/-- A quiet threshold is compared as a double. -/
theorem IsQuiet.toBinary64 {d : Decimal} (h : d.IsQuiet) :
    ∃ x, (Threshold.decimal d).toBinary64 = .ok x := by
  unfold Threshold.toBinary64
  split
  · next negative payload heq =>
    cases heq
    exact absurd rfl (h negative payload)
  · exact ⟨_, rfl⟩
  · next heq => cases heq
  · next heq => cases heq

end Decimal

/-- The thresholds that a vault has of its own are quiet. -/
structure Vault.HasQuietThresholds (v : Vault) : Prop where
  execution : ∀ d, v.executionThreshold = some d → d.IsQuiet
  participation : ∀ d, v.participationThreshold = some d → d.IsQuiet

/-! ## Weights of a ballot -/

namespace Vote

variable {votes : List Vote}

/-- What a tally says of a fixed value is what its votes weigh, or nothing. -/
theorem weightOf_rowsFor_le (hnonneg : ∀ v ∈ votes, 0 ≤ v.weight)
    (ballot : List (String × String)) (choice : VoteChoice) :
    0 ≤ VoteResult.weightOf (rowsFor votes ballot) choice ∧
      VoteResult.weightOf (rowsFor votes ballot) choice ≤
        (weightsFor votes (Choice.text choice)).sum := by
  have hsum : 0 ≤ (weightsFor votes (Choice.text choice)).sum :=
    List.sum_nonneg (nonneg_weightsFor hnonneg _)
  rw [VoteResult.weightOf]
  split
  · next r hr =>
    have hname : r.optionId = Choice.text choice := by simpa using List.find?_some hr
    have hrow : r ∈ rowsFor votes ballot := List.mem_reverse.1 (List.mem_of_find?_eq_some hr)
    obtain ⟨entry, -, rfl⟩ := List.mem_map.1 hrow
    rw [← hname] at hsum ⊢
    exact ⟨hsum, le_rfl⟩
  · exact ⟨le_rfl, hsum⟩

/-- Votes on a fixed ballot are those for yes, for no and for abstain. -/
theorem sum_weight_choices (hvotes : ∀ v ∈ votes, v.optionId ∈ ["yes", "no", "abstain"]) :
    (weightsFor votes (Choice.text VoteChoice.yes)).sum +
        (weightsFor votes (Choice.text VoteChoice.no)).sum +
        (weightsFor votes (Choice.text VoteChoice.abstain)).sum = (votes.map (·.weight)).sum := by
  have hparts := sum_parts (by decide) Vote.optionId (·.weight) hvotes
  rw [← hparts]
  simp only [List.map_cons, List.map_nil, List.sum_cons, List.sum_nil, Int.add_zero]
  rw [← Int.add_assoc]
  rfl

/-- The weight of all rows is the sum of their weights. -/
theorem totalWeight_eq_sum (rows : List TallyRow) :
    TallyRow.totalWeight rows = (rows.map (·.weight)).sum := by
  induction rows with
  | nil => rfl
  | cons r rows ih =>
      rw [List.map_cons, List.sum_cons, ← ih]
      rfl

end Vote

/-! ## Decisions -/

namespace Proposal

variable {p : Proposal}

/-- A fixed ballot has no other entries than yes, no and abstain. -/
theorem mem_choices_of_fixed (hfixed : p.hasCustomOptions = false) {option : String}
    (h : option ∈ p.ballot.map (·.1)) : option ∈ ["yes", "no", "abstain"] := by
  rw [ballot, if_neg (by simp [hfixed]), List.map_map] at h
  obtain ⟨value, hvalue, rfl⟩ := List.mem_map.1 h
  rw [fixedBallot] at hvalue
  split at hvalue
  · exact hvalue
  · exact List.mem_cons.2 ((List.mem_cons.1 hvalue).imp_right fun h => List.mem_cons.2 (.inl
      (List.mem_singleton.1 h)))

/-- A ballot of one's own can be decided when the weight cast is within the voting
power. -/
theorem passesCustom_total {rows : List TallyRow} {threshold : Threshold} {x : Binary64}
    {power : Int} (hcast : 0 ≤ TallyRow.totalWeight rows) (hle : TallyRow.totalWeight rows ≤ power)
    (hx : threshold.toBinary64 = .ok x) :
    ∃ passed, passesCustom rows threshold (some power) = .ok passed := by
  have hpercent : ∃ percent, participation (TallyRow.totalWeight rows) (some power) =
      .ok percent := by
    by_cases hzero : power = 0
    · exact ⟨_, by rw [participation, if_pos hzero]⟩
    · obtain ⟨percent, hpercent⟩ := VoteResult.percent_total hcast (by omega) hle
      exact ⟨percent, by rw [participation, if_neg hzero, hpercent]⟩
  obtain ⟨percent, hpercent⟩ := hpercent
  cases hleading : TallyRow.leading? rows with
  | none =>
      simp only [passesCustom, hpercent, hleading, bind_eq_ok, pure_eq_ok, Except.ok.injEq,
        exists_eq_left', exists_eq']
  | some row =>
      simp only [passesCustom, hpercent, hleading, hx, bind_eq_ok, pure_eq_ok, Except.ok.injEq,
        exists_eq_left', exists_eq']

/-- The thresholds that a proposal is decided with can be compared. -/
theorem thresholds_total {v : Vault} (h : v.HasQuietThresholds) (c : Configuration) :
    (∃ x, (thresholds c v).1.toBinary64 = .ok x) ∧
      ∃ x, (thresholds c v).2.toBinary64 = .ok x := by
  constructor
  · cases hd : v.executionThreshold with
    | none => exact ⟨c.executionThreshold, by rw [thresholds, hd]; rfl⟩
    | some d =>
        obtain ⟨x, hx⟩ := (h.execution d hd).toBinary64
        exact ⟨x, by rw [thresholds, hd]; exact hx⟩
  · cases hd : v.participationThreshold with
    | none => exact ⟨c.participationThreshold, by rw [thresholds, hd]; rfl⟩
    | some d =>
        obtain ⟨x, hx⟩ := (h.participation d hd).toBinary64
        exact ⟨x, by rw [thresholds, hd]; exact hx⟩

/-- A proposal whose votes can be counted can be decided, if the votes weigh no
more than its snapshot holds and its vault has quiet thresholds. -/
theorem decide_total {s : Store} {v : Vault} {x : Snapshot} {amounts : OrderedMap Int}
    (hx : s.snapshotOf? p = some x) (hholds : x.Holds amounts)
    (hcounted : ∀ v ∈ s.votesOn p.id, v.Counted p x)
    (hle : ((s.votesOn p.id).map (·.weight)).sum ≤ amounts.total)
    (hoptions : (p.options.map VoteOption.id).Nodup) (hquiet : v.HasQuietThresholds)
    (hsum : Vote.canSum (s.votesOn p.id) = true) (c : Configuration) :
    ∃ passed result, p.decide c s v = .ok (passed, result) := by
  have hnonneg : ∀ v ∈ s.votesOn p.id, 0 ≤ v.weight := fun v hv => (hcounted v hv).positive.le
  have hnamed : ∀ v ∈ s.votesOn p.id, v.optionId ∈ p.ballot.map (·.1) :=
    fun v hv => (hcounted v hv).option
  have htally : Vote.tallyOf s p = .ok (Vote.rowsFor (s.votesOn p.id) p.ballot) := by
    rw [Vote.tallyOf, if_pos hsum]
  have hpower : powerBehind s p = .ok (some amounts.total) := by
    simp only [powerBehind, hx, hholds.totalVotingPower, Except.map]
  obtain ⟨⟨e, he⟩, q, hq⟩ := thresholds_total hquiet c
  cases hcustom : p.hasCustomOptions with
  | true =>
      have hcast : TallyRow.totalWeight (Vote.rowsFor (s.votesOn p.id) p.ballot) =
          ((s.votesOn p.id).map (·.weight)).sum := by
        rw [Vote.totalWeight_eq_sum, Vote.sum_weight_rowsFor (nodup_ballot hoptions) hnamed]
      have hcastNonneg : 0 ≤ ((s.votesOn p.id).map (·.weight)).sum :=
        List.sum_nonneg (Vote.nonneg_weights hnonneg)
      obtain ⟨passed, hpassed⟩ := passesCustom_total (hcast ▸ hcastNonneg) (hcast ▸ hle) hq
      refine ⟨passed, none, ?_⟩
      simp only [decide, htally, hpower, hcustom, if_true, hpassed, bind_eq_ok, pure_eq_ok,
        Except.ok.injEq, exists_eq_left']
  | false =>
      obtain ⟨hyes, hyesLe⟩ := Vote.weightOf_rowsFor_le hnonneg p.ballot .yes
      obtain ⟨hno, hnoLe⟩ := Vote.weightOf_rowsFor_le hnonneg p.ballot .no
      obtain ⟨habstain, habstainLe⟩ := Vote.weightOf_rowsFor_le hnonneg p.ballot .abstain
      have hall := Vote.sum_weight_choices fun v hv => mem_choices_of_fixed hcustom (hnamed v hv)
      have hpowerLe : VoteResult.weightOf (Vote.rowsFor (s.votesOn p.id) p.ballot) .yes +
          VoteResult.weightOf (Vote.rowsFor (s.votesOn p.id) p.ballot) .no +
          VoteResult.weightOf (Vote.rowsFor (s.votesOn p.id) p.ballot) .abstain ≤
            amounts.total := by
        omega
      obtain ⟨result, hresult⟩ := VoteResult.ofWeights_total hyes hno habstain hpowerLe he hq
      refine ⟨result.isSuccessful, some result, ?_⟩
      simp only [decide, htally, hpower, hcustom, Bool.false_eq_true, if_false, VoteResult.ofRows,
        hresult, bind_eq_ok, pure_eq_ok, Except.ok.injEq, exists_eq_left']

end Proposal

end VaultGovernance
