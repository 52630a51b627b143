import VaultGovernance.Proofs.Decision
import VaultGovernance.Proofs.References

/-!
# VaultGovernance.Proofs.Closing

When voting can be closed.  In a store that a run leads to, nothing but the tally
can keep an active proposal from being decided: its vault is there, its snapshot
can be added up, the thresholds can be compared and the shares are finite.  The
tally fails when the votes for one entry weigh `2 ^ 63` or more together.  No
operation takes votes back, so voting on such a proposal is never closed.
-/

namespace VaultGovernance

open VaultGovernance.Action

/-! ## Vaults of a run -/

/-- The thresholds that vaults store can be compared. -/
theorem storeAfter_quiet (calls : List Call) :
    ∀ v ∈ (storeAfter calls).vaults, v.HasQuietThresholds := by
  refine storeAfter_invariant (P := fun s => ∀ v ∈ s.vaults, v.HasQuietThresholds) (by simp) ?_
    calls
  intro c s s' h hc
  refine hc.vaults.forall_mem h ?_ ?_
  · rintro v ⟨name, execution, participation, ⟨e, he⟩, ⟨q, hq⟩, rfl⟩
    constructor
    · rintro d rfl
      exact Decimal.isQuiet_of_stored he
    · rintro d rfl
      exact Decimal.isQuiet_of_stored hq
  · intro v v' hstep hv
    have hf := hstep.follows
    constructor
    · rw [hf.executionThreshold]
      exact hv.execution
    · rw [hf.participationThreshold]
      exact hv.participation

/-- Every proposal has a vault. -/
theorem storeAfter_governed (calls : List Call) :
    ∀ p ∈ (storeAfter calls).proposals, ∃ v, (storeAfter calls).vault? p.vaultId = some v := by
  intro p hp
  obtain ⟨v, hv, -⟩ := (World.after_referring .empty .empty calls).2.proposals p hp
  exact ⟨v, hv⟩

namespace Proposal

/-! ## Closing -/

section Finalize

variable {c : Context} {w : World} {id : Uuid} {p : Proposal} {v : Vault}

/-- The row of a proposal that is closed. -/
def closed (p : Proposal) (passed : Bool) (time : Timestamp) : Proposal :=
  { p.entered (if passed then .passed else .rejected) time with
    endDate := p.endDate.or (some time) }

/-- A status that may follow is entered. -/
theorem enter_of_mem_next {target : ProposalStatus} {finish : Timestamp → Proposal → Proposal}
    (h : target ∈ p.status.next) :
    enter p target finish c w = (.ok (finish c.now (p.entered target c.now)),
      { w with store := w.store.putProposal (finish c.now (p.entered target c.now)) }) := by
  rw [enter, bind_eq, if_pos (List.contains_iff_mem.2 h), now_andThen, bind_eq, modify_andThen]
  rfl

/-- An active proposal is closed with its decision. -/
theorem finalize_of_decide_ok {passed : Bool} {result : Option VoteResult}
    (hp : w.store.proposal? id = some p) (hactive : p.status = .active)
    (hv : w.store.vault? p.vaultId = some v)
    (h : p.decide c.configuration w.store v = .ok (passed, result)) :
    finalize id c w = (.ok (p.closed passed c.now, result),
      { w with store := w.store.putProposal (p.closed passed c.now) }) := by
  have hedge : (if passed then .passed else .rejected) ∈ p.status.next := by
    rw [hactive]
    cases passed <;> decide
  rw [finalize, bind_eq, andThen_of_ok (find_eq_ok.2 ⟨hp, rfl⟩), if_pos hactive]
  simp only [bind_eq, store_andThen, hv, configuration_andThen, h]
  rw [andThen_of_ok (ofExcept_eq_ok.2 ⟨rfl, rfl⟩), andThen_of_ok (enter_of_mem_next hedge)]
  rfl

/-- An active proposal that cannot be decided stays as it is. -/
theorem finalize_of_decide_error {e : Fault} (hp : w.store.proposal? id = some p)
    (hactive : p.status = .active) (hv : w.store.vault? p.vaultId = some v)
    (h : p.decide c.configuration w.store v = .error e) : finalize id c w = (.error e, w) := by
  rw [finalize, bind_eq, andThen_of_ok (find_eq_ok.2 ⟨hp, rfl⟩), if_pos hactive]
  simp only [bind_eq, store_andThen, hv, configuration_andThen, h]
  exact andThen_of_error rfl

end Finalize

/-! ## Votes that weigh too much -/

/-- The votes for one entry of the ballot weigh too much to be added up in 64
bits. -/
def Overweight (p : Proposal) (s : Store) : Prop :=
  ∃ option, 2 ^ 63 ≤ (Vote.weightsFor (s.votesOn p.id) option).sum

section Overweight

variable {s s' : Store} {p q : Proposal}

/-- Votes that are not overweight can be counted. -/
theorem canSum_iff_not_overweight (hnonneg : ∀ v ∈ s.votesOn p.id, 0 ≤ v.weight) :
    Vote.canSum (s.votesOn p.id) = true ↔ ¬ p.Overweight s := by
  rw [Vote.canSum_iff hnonneg, Overweight, not_exists]
  simp only [not_le]

/-- An overweight proposal cannot be decided. -/
theorem Overweight.decide_eq_error (h : p.Overweight s)
    (hnonneg : ∀ v ∈ s.votesOn p.id, 0 ≤ v.weight) (c : Configuration) (v : Vault) :
    p.decide c s v = .error .queryFailed := by
  have hsum : ¬ Vote.canSum (s.votesOn p.id) = true := by
    rw [canSum_iff_not_overweight hnonneg, not_not]
    exact h
  have htally : Vote.tallyOf s p = .error .queryFailed := by
    rw [Vote.tallyOf, if_neg hsum]
  rw [Proposal.decide, htally]
  rfl

/-- Votes are not taken back, so what is overweight stays so. -/
theorem Overweight.later (h : p.Overweight s) (hbefore : s.Before s') (hf : p.Follows q)
    (hnonneg : ∀ v ∈ s'.votesOn p.id, 0 ≤ v.weight) : q.Overweight s' := by
  obtain ⟨option, hheavy⟩ := h
  have hsub : (s.votesOn p.id).Sublist (s'.votesOn p.id) := hbefore.votes.sublist.filter _
  have hweights : (Vote.weightsFor (s.votesOn p.id) option).Sublist
      (Vote.weightsFor (s'.votesOn p.id) option) := (hsub.filter _).map _
  refine ⟨option, ?_⟩
  rw [hf.id]
  exact hheavy.trans (hweights.sum_le_sum (Vote.nonneg_weightsFor hnonneg option))

/-- Votes that weigh less than `2 ^ 63` altogether are not overweight. -/
theorem not_overweight_of_sum_lt (hnonneg : ∀ v ∈ s.votesOn p.id, 0 ≤ v.weight)
    (h : ((s.votesOn p.id).map (·.weight)).sum < 2 ^ 63) : ¬ p.Overweight s := by
  rintro ⟨option, hheavy⟩
  have hle : (Vote.weightsFor (s.votesOn p.id) option).sum ≤
      ((s.votesOn p.id).map (·.weight)).sum :=
    (Vote.sublist_weightsFor _ option).sum_le_sum (Vote.nonneg_weights hnonneg)
  omega

end Overweight

/-! ## Runs -/

variable {calls : List Call} {p : Proposal}

/-- The votes on a proposal of a run weigh something each, and together no more
than its snapshot holds. -/
theorem weights_storeAfter (hp : p ∈ (storeAfter calls).proposals) :
    ∃ x amounts, (storeAfter calls).snapshotOf? p = some x ∧ x.Holds amounts ∧
      (∀ v ∈ (storeAfter calls).votesOn p.id, v.Counted p x) ∧
      (((storeAfter calls).votesOn p.id).map (·.weight)).sum ≤ amounts.total := by
  have hvoted := storeAfter_voted calls
  have hfound := (storeAfter_numbered calls).proposal?_of_mem hp
  obtain ⟨x, hx⟩ := hvoted.bound p hp
  obtain ⟨amounts, hholds⟩ := hvoted.holds hx
  have hcounted := hvoted.counted_votesOn hfound hx
  have hapart := (hvoted.pairwise_votesOn p.id).imp And.right
  exact ⟨x, amounts, hx, hholds, hcounted,
    hholds.sum_weight_le (fun v hv => (hcounted v hv).power) hapart⟩

theorem nonneg_storeAfter (hp : p ∈ (storeAfter calls).proposals) :
    ∀ v ∈ (storeAfter calls).votesOn p.id, 0 ≤ v.weight := by
  obtain ⟨x, amounts, -, -, hcounted, -⟩ := weights_storeAfter hp
  exact fun v hv => (hcounted v hv).positive.le

/-- An active proposal that is overweight stays active and overweight. -/
theorem active_later (hp : p ∈ (storeAfter calls).proposals) (hactive : p.status = .active)
    (hheavy : p.Overweight (storeAfter calls)) (later : List Call) :
    ∃ q, (storeAfter (calls ++ later)).proposal? p.id = some q ∧ q.status = .active ∧
      q.Overweight (storeAfter (calls ++ later)) := by
  induction later using List.reverseRecOn with
  | nil =>
      rw [List.append_nil]
      exact ⟨p, (storeAfter_numbered calls).proposal?_of_mem hp, hactive, hheavy⟩
  | append_singleton later k ih =>
      obtain ⟨q, hq, hqactive, hqheavy⟩ := ih
      rw [← List.append_assoc]
      have hdoes := does_storeAfter (calls ++ later) k
      have hqmem := List.mem_of_find?_eq_some hq
      obtain ⟨q', hq', hstep⟩ := hdoes.proposals.later (fun _ => .inl rfl) hq
      -- Only closing leads away from an active row, and it fails here.
      have hsame : q' = q := by
        rcases hstep with hsame | ⟨-, s₁, moved⟩
        · exact hsame
        · exfalso
          cases moved with
          | feePaid status => rw [hqactive] at status; cases status
          | opened status => rw [hqactive] at status; cases status
          | closed status vault decision =>
              rw [hqheavy.decide_eq_error (nonneg_storeAfter hqmem)] at decision
              cases decision
          | executed status vault effect => rw [hqactive] at status; cases status
      subst hsame
      have hq'mem := List.mem_of_find?_eq_some hq'
      exact ⟨q', hq', hqactive, hqheavy.later (Change.before ⟨_, hdoes⟩) (.refl q')
        (nonneg_storeAfter hq'mem)⟩

end Proposal

/-- Voting on an active proposal can be closed, with a decision that is stored,
unless the votes for one entry of its ballot weigh `2 ^ 63` or more together.  If
they do, closing fails and leaves everything as it is, and the proposal stays
active however the run goes on.  A snapshot that holds less than that in all rules
it out. -/
theorem voting_closes_unless_overweight (calls : List Call) (c : Context) (p : Proposal)
    (hp : p ∈ (storeAfter calls).proposals) (hactive : p.status = .active) :
    let w := World.after {} calls
    (¬ p.Overweight w.store → ∃ q result,
        Proposal.finalize p.id c w =
          (.ok (q, result), { w with store := w.store.putProposal q }) ∧
        (q.status = .passed ∨ q.status = .rejected) ∧
        (w.store.putProposal q).proposal? p.id = some q) ∧
      (p.Overweight w.store →
        Proposal.finalize p.id c w = (.error .queryFailed, w) ∧
        ∀ later, ∃ q, (storeAfter (calls ++ later)).proposal? p.id = some q ∧
          q.status = .active) ∧
      ∀ x total, w.store.snapshotOf? p = some x → x.totalVotingPower = .ok total →
        total < 2 ^ 63 → ¬ p.Overweight w.store := by
  intro w
  have hfound : w.store.proposal? p.id = some p :=
    (storeAfter_numbered calls).proposal?_of_mem hp
  have hnonneg := Proposal.nonneg_storeAfter hp
  obtain ⟨v, hv⟩ := storeAfter_governed calls p hp
  obtain ⟨x, amounts, hx, hholds, hcounted, hle⟩ := Proposal.weights_storeAfter hp
  refine ⟨fun hlight => ?_, fun hheavy => ⟨?_, fun later => ?_⟩, ?_⟩
  · obtain ⟨passed, result, hdecision⟩ :=
      Proposal.decide_total hx hholds hcounted hle ((storeAfter_numbered calls).options p hp)
        (storeAfter_quiet calls v (List.mem_of_find?_eq_some hv))
        ((Proposal.canSum_iff_not_overweight hnonneg).2 hlight) c.configuration
    refine ⟨p.closed passed c.now, result,
      Proposal.finalize_of_decide_ok hfound hactive hv hdecision, ?_, ?_⟩
    · cases passed
      · exact .inr rfl
      · exact .inl rfl
    · have hid : p.id = (p.closed passed c.now).id := rfl
      rw [Store.proposal?_putProposal, if_pos hid, hfound, Option.map_some]
  · exact Proposal.finalize_of_decide_error hfound hactive hv (hheavy.decide_eq_error hnonneg _ v)
  · obtain ⟨q, hq, hqactive, -⟩ := Proposal.active_later hp hactive hheavy later
    exact ⟨q, hq, hqactive⟩
  · intro y total hy htotal hlight
    obtain rfl : x = y := Option.some.inj (hx.symm.trans hy)
    rw [hholds.totalVotingPower] at htotal
    obtain rfl := Except.ok.inj htotal
    exact Proposal.not_overweight_of_sum_lt hnonneg (hle.trans_lt hlight)

/-- Voting that is closed. -/
theorem voting_closes_unless_overweight_of_sample :
    let w := World.after {} (Sample.opening ++ Sample.voting)
    let p := w.store.proposals.headD default
    p.status = .active ∧ ∃ q result,
      Proposal.finalize p.id default w =
        (.ok (q, result), { w with store := w.store.putProposal q }) ∧
      (q.status = .passed ∨ q.status = .rejected) ∧
      (w.store.putProposal q).proposal? p.id = some q := by
  intro w p
  have hactive : p.status = .active := by decide +kernel
  obtain ⟨hcloses, -, hsmall⟩ :=
    voting_closes_unless_overweight (Sample.opening ++ Sample.voting) default p
      (by decide +kernel) hactive
  have hx : w.store.snapshotOf? p = some (w.store.snapshots.headD default) := by decide +kernel
  exact ⟨hactive, hcloses (hsmall _ 100 hx (by decide +kernel) (by decide))⟩

namespace Sample

/-- Both members vote yes on the same proposal, with more in the snapshot than fits
64 bits. -/
def heavy : List Call :=
  opening.take 9 ++
    [call 10 (.createSnapshot vaultId (some "shares")
      [("alice", .int (2 ^ 63 - 1)), ("bob", .int 1)])] ++
    opening.drop 10 ++
    [call 14 (.castVote proposalId (some "Alice") (.str "yes") (some "alice")),
      call 15 (.castVote proposalId (some "Bob") (.str "yes") (some "bob"))]

end Sample

/-- Voting that cannot be closed: each vote fits 64 bits, and both together do
not. -/
theorem voting_not_closed_of_heavy :
    let w := World.after {} Sample.heavy
    ∃ p ∈ w.store.proposals, p.status = .active ∧
      (Proposal.finalize p.id default w).1 = .error .queryFailed := by
  decide +kernel

end VaultGovernance
