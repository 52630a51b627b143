import VaultGovernance.Proofs.Voting

/-!
# VaultGovernance.Proofs.Outcome

Outcomes can be audited.  What a proposal was decided on never changes once it
is decided: its votes, because votes are taken while voting is open only, its
snapshot and its ballot, because they are fixed, and the thresholds of its
vault.  So whoever counts again later finds the outcome that is stored.
-/

namespace VaultGovernance

namespace Proposal

/-- The outcome of a proposal is known. -/
def Decided (p : Proposal) : Prop :=
  p.status = .passed ∨ p.status = .rejected ∨ p.status = .executed

/-- What the status of a decided proposal says. -/
def saysPassed (p : Proposal) : Bool := p.status ≠ .rejected

/-- Counting a proposal again gives an outcome: the votes are tallied, the power
of the bound snapshot is added up, and the rule of the ballot's kind is applied
with thresholds for execution and participation. -/
def Recounted (p : Proposal) (s : Store) (execution participation : Threshold)
    (passed : Bool) : Prop :=
  ∃ x rows power, s.snapshotOf? p = some x ∧ Vote.tallyOf s p = .ok rows ∧
    x.totalVotingPower = .ok power ∧
    if p.hasCustomOptions then passesCustom rows participation (some power) = .ok passed
    else ∃ result, VoteResult.ofRows rows execution participation (some power) = .ok result ∧
      result.isSuccessful = passed

/-- A decision is what counting gives at that moment. -/
theorem recounted_of_decide {c : Configuration} {s : Store} {v : Vault} {p : Proposal}
    {x : Snapshot} {passed : Bool} {result : Option VoteResult} (hx : s.snapshotOf? p = some x)
    (h : p.decide c s v = .ok (passed, result)) :
    p.Recounted s (thresholds c v).1 (thresholds c v).2 passed := by
  simp only [decide, powerBehind, hx, bind_eq_ok, map_eq_ok] at h
  obtain ⟨rows, hrows, _, ⟨power, hpower, rfl⟩, h⟩ := h
  refine ⟨x, rows, power, hx, hrows, hpower, ?_⟩
  split at h
  · next hcustom =>
    rw [if_pos hcustom]
    simp only [bind_eq_ok, pure_eq_ok, Prod.mk.injEq] at h
    obtain ⟨_, hpasses, rfl, -⟩ := h
    exact hpasses
  · next hfixed =>
    rw [if_neg hfixed]
    simp only [bind_eq_ok, pure_eq_ok, Prod.mk.injEq] at h
    obtain ⟨outcome, houtcome, hsuccess, -⟩ := h
    exact ⟨outcome, houtcome, hsuccess⟩

variable {p q : Proposal}

/-- Only an active proposal becomes decided by its votes; a decided one stays
decided. -/
theorem Follows.decided (hf : p.Follows q) (h : p.Decided) : q.Decided := by
  refine hf.status.closed
    (P := fun t : ProposalStatus => t = .passed ∨ t = .rejected ∨ t = .executed)
    (fun a b ha hb => ?_) h
  rcases ha with rfl | rfl | rfl
  · exact .inr (.inr (by simpa [ProposalStatus.next] using hb))
  · simp [ProposalStatus.next] at hb
  · simp [ProposalStatus.next] at hb

theorem Decided.not_active (h : p.Decided) : p.status ≠ .active := by
  rcases h with h | h | h <;> rw [h] <;> decide

end Proposal

/-! ## What a change leaves of a count -/

section Change

variable {c : Context} {s s' : Store} {p q : Proposal}

/-- Later rows of a vault have the thresholds of the first. -/
theorem Vault.Follows.thresholds {v v' : Vault} (h : v.Follows v') (c : Configuration) :
    Proposal.thresholds c v' = Proposal.thresholds c v := by
  rw [Proposal.thresholds, Proposal.thresholds, h.executionThreshold, h.participationThreshold]

/-- The tally of a proposal depends on its votes and its ballot. -/
theorem tallyOf_eq (hf : p.Follows q) (hvotes : s'.votesOn p.id = s.votesOn p.id) :
    Vote.tallyOf s' q = Vote.tallyOf s p := by
  rw [Vote.tallyOf, Vote.tallyOf, hf.id, hf.ballot, hvotes]

/-- Counting later gives the same outcome if no vote was added. -/
theorem Proposal.Recounted.later {execution participation : Threshold} {passed : Bool}
    (h : p.Recounted s execution participation passed) (hbefore : s.Before s') (hf : p.Follows q)
    (hvotes : s'.votesOn p.id = s.votesOn p.id) :
    q.Recounted s' execution participation passed := by
  obtain ⟨x, rows, power, hx, hrows, hpower, hrule⟩ := h
  refine ⟨x, rows, power, hbefore.snapshotOf? hf hx, ?_, hpower, ?_⟩
  · rw [tallyOf_eq hf hvotes]
    exact hrows
  · rw [hf.hasCustomOptions]
    exact hrule

/-- Votes are taken on active proposals only. -/
theorem Vote.Taken.active {v : Vote} (h : Vote.Taken c s p v) : p.status = .active := by
  have hopen := h.isOpen
  unfold requireOpen at hopen
  split at hopen
  · next hactive => exact hactive
  · cases hopen

/-- No change adds votes to a proposal that is not active. -/
theorem Change.votesOn_eq (hc : Change c s s') (hp : s.proposal? p.id = some p)
    (hstatus : p.status ≠ .active) : s'.votesOn p.id = s.votesOn p.id := by
  rcases hc.votes with hsame | ⟨r, v, hr, htaken, rfl⟩
  · rw [Store.votesOn, hsame, Store.votesOn]
  · have hne : v.proposalId ≠ p.id := by
      intro hid
      rw [← htaken.proposal, hid, hp] at hr
      obtain rfl := Option.some.inj hr
      exact hstatus htaken.active
    rw [Store.votesOn_addVote, if_neg hne, List.append_nil]

/-- Moving a proposal adds no vote. -/
theorem Proposal.Moved.votesOn_eq (h : Proposal.Moved c s p q s') (id : Uuid) :
    (s'.putProposal q).votesOn id = s.votesOn id := by
  obtain ⟨vaults, assets, rfl⟩ := h.rest
  rfl

end Change

/-! ## The invariant -/

namespace Proposal

/-- A call of a run closed the voting on a proposal: votes were still taken
before the call, and after it the proposal is decided. -/
def ClosedBy (p : Proposal) (k : Call) (calls : List Call) : Prop :=
  ∃ earlier later, calls = earlier ++ k :: later ∧
    (∃ q, (storeAfter earlier).proposal? p.id = some q ∧ q.status = .active) ∧
    ∃ q, (storeAfter (earlier ++ [k])).proposal? p.id = some q ∧ q.Decided

/-- The stored outcome of a proposal is the one that counting gives with the
thresholds of its vault, where a vault without its own has those of the
configuration that the proposal was closed under. -/
def Audited (p : Proposal) (calls : List Call) : Prop :=
  ∃ v k, (storeAfter calls).vault? p.vaultId = some v ∧ p.ClosedBy k calls ∧
    p.Recounted (storeAfter calls) (thresholds k.context.configuration v).1
      (thresholds k.context.configuration v).2 p.saysPassed

variable {p q : Proposal} {calls : List Call} {k : Call}

theorem ClosedBy.later {k' : Call} (h : p.ClosedBy k' calls) (hf : p.Follows q) (k : Call) :
    q.ClosedBy k' (calls ++ [k]) := by
  obtain ⟨earlier, later, rfl, hactive, hdecided⟩ := h
  refine ⟨earlier, later ++ [k], by simp, ?_, ?_⟩
  · rw [hf.id]
    exact hactive
  · rw [hf.id]
    exact hdecided

/-- An outcome goes on to be audited where no vote is added and the status goes
on to say the same. -/
theorem Audited.later (h : p.Audited calls) (hf : p.Follows q)
    (hvotes : (storeAfter (calls ++ [k])).votesOn p.id = (storeAfter calls).votesOn p.id)
    (hverdict : q.saysPassed = p.saysPassed) : q.Audited (calls ++ [k]) := by
  obtain ⟨v, k', hv, hclosed, hrecounted⟩ := h
  have hbefore := storeAfter_before calls [k]
  obtain ⟨v', hv', hfv⟩ := hbefore.vaults hv
  refine ⟨v', k', by rw [hf.vaultId]; exact hv', hclosed.later hf k, ?_⟩
  rw [hfv.thresholds, hverdict]
  exact hrecounted.later hbefore hf hvotes

/-- Closing the voting leaves an outcome that is audited under the
configuration of the call. -/
theorem audited_of_closed {v : Vault} {x : Snapshot} {passed : Bool} {result : Option VoteResult}
    (hp : (storeAfter calls).proposal? p.id = some p) (hactive : p.status = .active)
    (hx : (storeAfter calls).snapshotOf? p = some x)
    (hv : (storeAfter calls).vault? p.vaultId = some v)
    (hdecision : p.decide k.context.configuration (storeAfter calls) v = .ok (passed, result))
    (hq : (storeAfter (calls ++ [k])).proposal? q.id = some q) (hdecided : q.Decided)
    (hf : p.Follows q)
    (hvotes : (storeAfter (calls ++ [k])).votesOn p.id = (storeAfter calls).votesOn p.id)
    (hverdict : q.saysPassed = passed) : q.Audited (calls ++ [k]) := by
  have hbefore := storeAfter_before calls [k]
  obtain ⟨v', hv', hfv⟩ := hbefore.vaults hv
  have hclosed : q.ClosedBy k (calls ++ [k]) := by
    refine ⟨calls, [], rfl, ⟨p, ?_, hactive⟩, q, hq, hdecided⟩
    rw [hf.id]
    exact hp
  refine ⟨v', k, by rw [hf.vaultId]; exact hv', hclosed, ?_⟩
  rw [hfv.thresholds, hverdict]
  exact (recounted_of_decide hx hdecision).later hbefore hf hvotes

/-- Every call keeps outcomes audited. -/
theorem audited_step (k : Call)
    (h : ∀ p ∈ (storeAfter calls).proposals, p.Decided → p.Audited calls) :
    ∀ q ∈ (storeAfter (calls ++ [k])).proposals, q.Decided → q.Audited (calls ++ [k]) := by
  intro q hq hdecided
  have hc := change_storeAfter calls k
  have hfound := (storeAfter_numbered (calls ++ [k])).proposal?_of_mem hq
  rcases hc.mem_proposals hq with hold | ⟨v, x, hrow, -⟩ | ⟨p, s, hp, hmoved, hstore⟩
  · have hsame := (storeAfter_numbered calls).proposal?_of_mem hold
    have hvotes := hc.votesOn_eq hsame hdecided.not_active
    exact (h q hold hdecided).later (.refl q) hvotes rfl
  · obtain ⟨-, -, -, hstatus, -⟩ := hrow.fields
    rcases hstatus with hstatus | hstatus <;> simp [Decided, hstatus] at hdecided
  · have hmem : p ∈ (storeAfter calls).proposals := List.mem_of_find?_eq_some hp
    have hf : p.Follows q := .of_moved hmoved
    have hvotes : (storeAfter (calls ++ [k])).votesOn p.id = (storeAfter calls).votesOn p.id := by
      rw [hstore]
      exact hmoved.votesOn_eq p.id
    cases hmoved with
    | feePaid status => simp [Decided, entered] at hdecided
    | opened status => simp [Decided, entered] at hdecided
    | @closed v passed result status vault decision =>
        obtain ⟨x, hx⟩ := (storeAfter_voted calls).bound p hmem
        refine audited_of_closed hp status hx vault decision hfound hdecided hf hvotes ?_
        cases passed <;> rfl
    | executed status vault effect =>
        refine (h p hmem (.inl status)).later hf hvotes ?_
        rw [saysPassed, saysPassed, status]
        rfl

end Proposal

/-- In every store that a run leads to, the outcomes are audited. -/
theorem storeAfter_audited (calls : List Call) :
    ∀ p ∈ (storeAfter calls).proposals, p.Decided → p.Audited calls := by
  induction calls using List.reverseRecOn with
  | nil => exact fun p hp => by cases hp
  | append_singleton calls k ih => exact Proposal.audited_step k ih

/-! ## Tallies of decided proposals -/

/-- No run adds a vote to a decided proposal. -/
theorem votesOn_after_decided {w : World} {p : Proposal} (hp : w.store.proposal? p.id = some p)
    (hdecided : p.Decided) (calls : List Call) :
    (w.after calls).store.votesOn p.id = w.store.votesOn p.id := by
  have h : (∃ q, (w.after calls).store.proposal? p.id = some q ∧ p.Follows q) ∧
      (w.after calls).store.votesOn p.id = w.store.votesOn p.id := by
    refine World.after_invariant
      (P := fun s => (∃ q, s.proposal? p.id = some q ∧ p.Follows q) ∧
        s.votesOn p.id = w.store.votesOn p.id) ⟨⟨p, hp, .refl p⟩, rfl⟩ ?_ calls
    rintro c s s' ⟨⟨q, hq, hf⟩, hvotes⟩ hc
    obtain ⟨q', hq', hf'⟩ := hc.before.proposals hq
    rw [← hf.id] at hq
    have hsame := hc.votesOn_eq hq (hf.decided hdecided).not_active
    rw [hf.id] at hsame
    exact ⟨⟨q', hq', hf.trans hf'⟩, hsame.trans hvotes⟩
  exact h.2

/-- A tally is the one of the row that is found. -/
theorem Vote.tally_run {c : Context} {w : World} {id : Uuid} {p : Proposal}
    (hp : w.store.proposal? id = some p) : (Vote.tally id c w).1 = tallyOf w.store p := by
  simp only [tally, Action.bind_eq, Proposal.find, hp, Action.andThen, Action.store, Action.done]
  cases tallyOf w.store p <;> rfl

/-- Outcomes can be audited.  Once a proposal has passed, was rejected or was
executed, counting it again, with the thresholds that its vault stores or else
those of the configuration it was closed under, gives the outcome that its
status says.  No later call changes what a tally of it returns, at whatever time
and under whatever configuration it is asked for. -/
theorem outcome_recounts (earlier later : List Call) (p : Proposal)
    (hp : p ∈ (storeAfter earlier).proposals)
    (hdecided : p.status = .passed ∨ p.status = .rejected ∨ p.status = .executed) :
    (∃ v k, (storeAfter earlier).vault? p.vaultId = some v ∧ p.ClosedBy k earlier ∧
        p.Recounted (storeAfter earlier) (Proposal.thresholds k.context.configuration v).1
          (Proposal.thresholds k.context.configuration v).2 (p.status ≠ .rejected)) ∧
      ∀ c c' : Context, (Vote.tally p.id c' (World.after {} (earlier ++ later))).1 =
        (Vote.tally p.id c (World.after {} earlier)).1 := by
  refine ⟨storeAfter_audited earlier p hp hdecided, fun c c' => ?_⟩
  have hfound := (storeAfter_numbered earlier).proposal?_of_mem hp
  rw [World.after_append]
  obtain ⟨q, hq, hf⟩ := (World.before_after _ later).proposals hfound
  rw [Vote.tally_run hq, Vote.tally_run hfound]
  exact tallyOf_eq hf (votesOn_after_decided hfound hdecided later)

/-- An executed proposal, and a vote that comes too late. -/
theorem outcome_recounts_of_sample :
    let calls := Sample.opening ++ Sample.voting ++ Sample.closing
    let late := [Sample.call 18
      (.castVote Sample.proposalId (some "Carol") (.str "no") (some "carol"))]
    let p := (storeAfter calls).proposals.headD default
    (∃ v k, (storeAfter calls).vault? p.vaultId = some v ∧ p.ClosedBy k calls ∧
        p.Recounted (storeAfter calls) (Proposal.thresholds k.context.configuration v).1
          (Proposal.thresholds k.context.configuration v).2 (p.status ≠ .rejected)) ∧
      ∀ c c' : Context, (Vote.tally p.id c' (World.after {} (calls ++ late))).1 =
        (Vote.tally p.id c (World.after {} calls)).1 :=
  outcome_recounts (Sample.opening ++ Sample.voting ++ Sample.closing) _ _
    (by decide +kernel) (by decide +kernel)

end VaultGovernance
