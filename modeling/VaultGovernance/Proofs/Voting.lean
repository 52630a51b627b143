import VaultGovernance.Proofs.Balances
import VaultGovernance.Proofs.Identifiers

/-!
# VaultGovernance.Proofs.Voting

The votes of a proposal.  Whoever votes does so once, under one address, and
the vote weighs what that address holds in the snapshot that the proposal was
bound to when it was made.  Distinct addresses hold distinct entries of the
snapshot, so all votes together never weigh more than the snapshot holds,
although no operation checks that.

`Store.Voted` is the invariant behind this.
-/

namespace VaultGovernance

/-! ## Votes that count -/

/-- A vote that counts on a proposal with a snapshot. -/
structure Vote.Counted (p : Proposal) (x : Snapshot) (v : Vote) : Prop where
  power : x.votingPower (some v.voterAddress) = .ok v.weight
  positive : 0 < v.weight
  option : v.optionId ∈ p.ballot.map (·.1)

namespace Vote

/-- What a reference names is on the ballot. -/
theorem mem_ballot_of_resolveOption {p : Proposal} {ref : Json} {optionId : String}
    (h : resolveOption p ref = .ok optionId) : optionId ∈ p.ballot.map (·.1) := by
  unfold resolveOption at h
  rw [Proposal.ballot]
  split at h
  · next hcustom =>
    rw [if_pos hcustom]
    cases hfound : p.options.find? fun o => o.id.text = ref.display with
    | none => simp [hfound] at h
    | some o =>
        simp only [hfound] at h
        obtain rfl := Except.ok.inj h
        have ho : o ∈ p.countedOptions := List.mem_mergeSort.2 (List.mem_of_find?_eq_some hfound)
        rw [List.map_map]
        exact List.mem_map_of_mem ho
  · next hfixed =>
    rw [if_neg hfixed, List.map_map]
    cases ref with
    | str s =>
        simp only at h
        split at h
        · next hmem =>
          obtain rfl := Except.ok.inj h
          exact List.mem_map.2 ⟨s, List.contains_iff_mem.1 hmem, rfl⟩
        · cases h
    | _ => cases h

/-- Voting power comes from the bound snapshot. -/
theorem snapshot_of_powerOn {s : Store} {p : Proposal} {address : Option String} {weight : Int}
    (h : powerOn s p address = .ok weight) (hpos : 0 < weight) :
    ∃ x, s.snapshotOf? p = some x ∧ x.votingPower address = .ok weight := by
  rw [powerOn] at h
  cases hx : s.snapshotOf? p with
  | none =>
      simp only [hx] at h
      obtain rfl := Except.ok.inj h
      exact absurd hpos (by decide)
  | some x =>
      simp only [hx] at h
      exact ⟨x, rfl, h⟩

/-- A vote counts on every row of its proposal or on none. -/
theorem counted_iff_of_follows {p q : Proposal} {x : Snapshot} {v : Vote} (hf : p.Follows q) :
    v.Counted q x ↔ v.Counted p x := by
  constructor
  · intro h
    exact { h with option := by rw [← hf.ballot]; exact h.option }
  · intro h
    exact { h with option := by rw [hf.ballot]; exact h.option }

/-- A vote that is taken counts. -/
theorem Taken.counted {c : Context} {s : Store} {p : Proposal} {v : Vote}
    (h : Taken c s p v) : ∃ x, s.snapshotOf? p = some x ∧ v.Counted p x := by
  obtain ⟨ref, href⟩ := h.option
  obtain ⟨x, hx, hpower⟩ := snapshot_of_powerOn h.power h.positive
  exact ⟨x, hx, hpower, h.positive, mem_ballot_of_resolveOption href⟩

/-- Two votes of one proposal are from different voters and addresses. -/
def Apart (u v : Vote) : Prop :=
  u.proposalId = v.proposalId → u.voterId ≠ v.voterId ∧ u.voterAddress ≠ v.voterAddress

/-- A vote that is taken is apart from those before it. -/
theorem Taken.apart {c : Context} {s : Store} {p : Proposal} {v : Vote} (h : Taken c s p v)
    {u : Vote} (hu : u ∈ s.votes) : u.Apart v := by
  intro hproposal
  have hmem : u ∈ s.votesOn p.id := by
    rw [Store.votesOn, List.mem_filter]
    exact ⟨hu, by rw [hproposal, h.proposal]; exact decide_eq_true rfl⟩
  have hother := List.any_eq_false.1 h.first u hmem
  simpa [isFrom] using hother

end Vote

/-! ## The latest snapshot -/

namespace Snapshot

/-- Going through snapshots ends with one of them, or with the one it began
with. -/
theorem mem_of_foldl_laterOf {xs : List Snapshot} {best : Option Snapshot} {x : Snapshot}
    (h : xs.foldl laterOf best = some x) : best = some x ∨ x ∈ xs := by
  induction xs generalizing best with
  | nil => exact .inl h
  | cons y ys ih =>
      cases ih h with
      | inl hbest =>
          have hy : best = some x ∨ x = y := by
            cases best with
            | none => exact .inr (Option.some.inj hbest).symm
            | some b =>
                rw [laterOf] at hbest
                split at hbest
                · exact .inr (Option.some.inj hbest).symm
                · exact .inl hbest
          exact hy.imp_right fun hx => by rw [hx]; exact List.mem_cons_self
      | inr hmem => exact .inr (List.mem_cons_of_mem y hmem)

/-- The latest of some snapshots is one of them. -/
theorem mem_of_latestOf {xs : List Snapshot} {x : Snapshot} (h : latestOf xs = some x) :
    x ∈ xs := by
  cases mem_of_foldl_laterOf h with
  | inl hnone => cases hnone
  | inr hmem => exact hmem

end Snapshot

/-- A new proposal is bound to a snapshot that is there. -/
theorem Proposal.Submitted.snapshot {c : Context} {s : Store} {v : Vault} {x : Snapshot}
    {p : Proposal} (h : Submitted c s v x p) (hs : s.Numbered) :
    (s.addProposal p).snapshotOf? p = some x := by
  have hx : x ∈ s.snapshots := (List.mem_filter.1 (Snapshot.mem_of_latestOf h.latest)).1
  obtain ⟨-, -, hid, -⟩ := h.fields
  rw [Store.snapshotOf?, hid]
  exact find?_of_mem Snapshot.id hs.snapshots.distinct hx

/-! ## The invariant -/

/-- Snapshots are in canonical form, every proposal is bound to one, and every
vote counts on its proposal and is apart from the others. -/
structure Store.Voted (s : Store) : Prop where
  canonical : ∀ x ∈ s.snapshots, ∃ amounts, x.Holds amounts
  bound : ∀ p ∈ s.proposals, ∃ x, s.snapshotOf? p = some x
  counted : ∀ v ∈ s.votes, ∃ p x, s.proposal? v.proposalId = some p ∧
    s.snapshotOf? p = some x ∧ v.Counted p x
  apart : s.votes.Pairwise Vote.Apart

namespace Change

variable {c : Context} {s s' : Store}

theorem canonical (hc : Change c s s') (h : ∀ x ∈ s.snapshots, ∃ amounts, x.Holds amounts) :
    ∀ x ∈ s'.snapshots, ∃ amounts, x.Holds amounts := by
  rcases hc.snapshots with hsame | ⟨v, assetId, balances, texts, -, htexts, rfl⟩
  · rw [hsame]
    exact h
  · intro x hx
    cases mem_added hx with
    | inl hold => exact h x hold
    | inr hnew =>
        rw [hnew]
        exact Snapshot.holds_of_normalized htexts

theorem bound (hc : Change c s s') (hs : s.Numbered)
    (h : ∀ p ∈ s.proposals, ∃ x, s.snapshotOf? p = some x) :
    ∀ p ∈ s'.proposals, ∃ x, s'.snapshotOf? p = some x := by
  intro q hq
  rcases hc.mem_proposals hq with hold | ⟨v, x, hrow, rfl⟩ | ⟨p, s₁, hp, hmoved, -⟩
  · obtain ⟨x, hx⟩ := h q hold
    exact ⟨x, hc.before.snapshotOf? (.refl q) hx⟩
  · exact ⟨x, hrow.snapshot hs⟩
  · obtain ⟨x, hx⟩ := h p (List.mem_of_find?_eq_some hp)
    exact ⟨x, hc.before.snapshotOf? (.of_moved hmoved) hx⟩

/-- A vote that counts goes on counting. -/
theorem counted_of_counted (hc : Change c s s') {v : Vote}
    (h : ∃ p x, s.proposal? v.proposalId = some p ∧ s.snapshotOf? p = some x ∧ v.Counted p x) :
    ∃ p x, s'.proposal? v.proposalId = some p ∧ s'.snapshotOf? p = some x ∧ v.Counted p x := by
  obtain ⟨p, x, hp, hx, hcounted⟩ := h
  obtain ⟨q, hq, hf⟩ := hc.before.proposals hp
  exact ⟨q, x, hq, hc.before.snapshotOf? hf hx, (Vote.counted_iff_of_follows hf).2 hcounted⟩

/-- Every change keeps votes fair. -/
theorem voted (hc : Change c s s') (hs : s.Numbered) (h : s.Voted) : s'.Voted where
  canonical := hc.canonical h.canonical
  bound := hc.bound hs h.bound
  counted := by
    intro v hv
    rcases hc.votes with hsame | ⟨p, u, hp, htaken, rfl⟩
    · rw [hsame] at hv
      exact hc.counted_of_counted (h.counted v hv)
    · cases mem_added hv with
      | inl hold => exact hc.counted_of_counted (h.counted v hold)
      | inr hnew =>
          subst hnew
          obtain ⟨x, hx, hcounted⟩ := htaken.counted
          exact hc.counted_of_counted ⟨p, x, by rw [htaken.proposal]; exact hp, hx, hcounted⟩
  apart := by
    rcases hc.votes with hsame | ⟨p, u, -, htaken, rfl⟩
    · rw [hsame]
      exact h.apart
    · rw [Store.addVote, List.pairwise_append]
      refine ⟨h.apart, List.pairwise_singleton _ _, fun v hv u' hu' => ?_⟩
      rw [List.mem_singleton.1 hu']
      exact htaken.apart hv

end Change

theorem storeAfter_voted (calls : List Call) : (storeAfter calls).Voted :=
  storeAfter_numbered_invariant ⟨by simp, by simp, by simp, List.Pairwise.nil⟩
    (fun _ _ _ hs h hc => hc.voted hs h) calls

/-! ## What the invariant says about one proposal -/

namespace Store.Voted

variable {s : Store} {p : Proposal}

/-- The votes on one proposal are from different voters and addresses. -/
theorem pairwise_votesOn (h : s.Voted) (id : Uuid) :
    (s.votesOn id).Pairwise fun u v =>
      u.voterId ≠ v.voterId ∧ u.voterAddress ≠ v.voterAddress := by
  have hpairwise : (s.votesOn id).Pairwise Vote.Apart :=
    h.apart.sublist List.filter_sublist
  refine hpairwise.imp_of_mem fun {u v} hu hv hapart => hapart ?_
  have hproposal (v : Vote) (hv : v ∈ s.votesOn id) : v.proposalId = id :=
    of_decide_eq_true (List.mem_filter.1 hv).2
  rw [hproposal u hu, hproposal v hv]

/-- All votes on a proposal count with its snapshot. -/
theorem counted_votesOn (h : s.Voted) (hp : s.proposal? p.id = some p) {x : Snapshot}
    (hx : s.snapshotOf? p = some x) : ∀ v ∈ s.votesOn p.id, v.Counted p x := by
  intro v hv
  obtain ⟨hmem, hproposal⟩ := List.mem_filter.1 hv
  obtain ⟨q, y, hq, hy, hcounted⟩ := h.counted v hmem
  rw [of_decide_eq_true hproposal, hp] at hq
  obtain rfl := Option.some.inj hq
  rw [hx] at hy
  obtain rfl := Option.some.inj hy
  exact hcounted

/-- The snapshot of a proposal holds amounts. -/
theorem holds (h : s.Voted) {x : Snapshot} (hx : s.snapshotOf? p = some x) :
    ∃ amounts, x.Holds amounts := by
  obtain ⟨id, -, hfound⟩ := Option.bind_eq_some_iff.1 hx
  exact h.canonical x (List.mem_of_find?_eq_some hfound)

end Store.Voted

/-- Votes from different addresses weigh at most what the snapshot holds. -/
theorem Snapshot.Holds.sum_weight_le {x : Snapshot} {amounts : OrderedMap Int}
    (h : x.Holds amounts) {votes : List Vote}
    (hpower : ∀ v ∈ votes, x.votingPower (some v.voterAddress) = .ok v.weight)
    (hapart : votes.Pairwise fun u v => u.voterAddress ≠ v.voterAddress) :
    (votes.map (·.weight)).sum ≤ amounts.total := by
  have hweights : votes.map (·.weight) = (votes.map (·.voterAddress)).map amounts.amount := by
    rw [List.map_map]
    refine List.map_congr_left fun v hv => ?_
    have hv' := hpower v hv
    rw [h.votingPower] at hv'
    exact (Except.ok.inj hv').symm
  have hdistinct : (votes.map (·.voterAddress)).Nodup := List.pairwise_map.2 hapart
  rw [hweights]
  exact OrderedMap.sum_amount_le h.nonneg hdistinct

/-- Votes are fair in every store that a run leads to.  Let a proposal be there
at some point of a run, with the snapshot it was bound to when it was made.
However the run goes on, the votes on it are from different voters and from
different addresses, each weighs what its address holds in that snapshot and
names an entry of the ballot, and together they weigh at most what the snapshot
holds. -/
theorem votes_backed_by_snapshot (earlier later : List Call) (p : Proposal)
    (hp : p ∈ (storeAfter earlier).proposals) :
    let votes := (storeAfter (earlier ++ later)).votesOn p.id
    (votes.Pairwise fun u v => u.voterId ≠ v.voterId ∧ u.voterAddress ≠ v.voterAddress) ∧
      ∃ x total, (storeAfter earlier).snapshotOf? p = some x ∧ x.totalVotingPower = .ok total ∧
        (∀ v ∈ votes, 0 < v.weight ∧ x.votingPower (some v.voterAddress) = .ok v.weight ∧
          v.optionId ∈ p.ballot.map (·.1)) ∧
        (votes.map (·.weight)).sum ≤ total := by
  intro votes
  have hvoted := storeAfter_voted (earlier ++ later)
  have hbefore := storeAfter_before earlier later
  obtain ⟨x, hx⟩ := (storeAfter_voted earlier).bound p hp
  -- The later row of the proposal, which is bound to the same snapshot.
  obtain ⟨q, hq, hf⟩ := hbefore.proposals ((storeAfter_numbered earlier).proposal?_of_mem hp)
  have hxq := hbefore.snapshotOf? hf hx
  obtain ⟨amounts, hholds⟩ := hvoted.holds hxq
  rw [← hf.id] at hq
  have hcounted : ∀ v ∈ votes, v.Counted p x := by
    intro v hv
    refine (Vote.counted_iff_of_follows hf).1 (hvoted.counted_votesOn hq hxq v ?_)
    rw [hf.id]
    exact hv
  have hapart := hvoted.pairwise_votesOn p.id
  refine ⟨hapart, x, amounts.total, hx, hholds.totalVotingPower, ?_, ?_⟩
  · intro v hv
    have h := hcounted v hv
    exact ⟨h.positive, h.power, h.option⟩
  · exact hholds.sum_weight_le (fun v hv => (hcounted v hv).power) (hapart.imp And.right)

/-- Two votes on one proposal, after the run has gone on to its execution. -/
theorem votes_backed_by_snapshot_of_sample :
    let p := (storeAfter Sample.opening).proposals.headD default
    let votes := (storeAfter (Sample.opening ++ (Sample.voting ++ Sample.closing))).votesOn p.id
    votes.map (·.weight) = [60, 40] ∧
      (votes.Pairwise fun u v => u.voterId ≠ v.voterId ∧ u.voterAddress ≠ v.voterAddress) ∧
      ∃ x total, (storeAfter Sample.opening).snapshotOf? p = some x ∧
        x.totalVotingPower = .ok total ∧
        (∀ v ∈ votes, 0 < v.weight ∧ x.votingPower (some v.voterAddress) = .ok v.weight ∧
          v.optionId ∈ p.ballot.map (·.1)) ∧
        (votes.map (·.weight)).sum ≤ total :=
  ⟨by decide +kernel,
    votes_backed_by_snapshot Sample.opening (Sample.voting ++ Sample.closing) _
      (by decide +kernel)⟩

end VaultGovernance
