import VaultGovernance.Proofs.Outcome
import VaultGovernance.Proofs.Trail

/-!
# VaultGovernance.Proofs.ProposalHistory

The life of one proposal.  It is made unpaid or upcoming, as the fee of its type
has it at that moment, and from then on each of the four steps of
`ProposalStatus.Step` is taken by one operation only.  The dates are written on
the way, everything else in the row is fixed.
-/

namespace VaultGovernance

/-! ## One operation -/

/-- Only noting the fee leads away from unpaid. -/
theorem ProposalStatus.Step.of_unpaid {id : Uuid} {op : Operation} {status : ProposalStatus}
    (h : Step id op .unpaid status) : op = .markFeePaid id := by
  cases h
  rfl

section Does

variable {c : Context} {s s' : Store} {op : Operation} {id : Uuid} {p q : Proposal}

/-- An operation adds a proposal, moves one by a step that it makes, or leaves
them alone. -/
theorem Operation.Does.proposals (h : op.Does c s s') :
    RowWrite Proposal.id
      (fun q => ∃ v x draft, op = .createProposal v.id draft ∧ Proposal.Submitted c s v x q)
      (fun p q => q = p ∨
        ProposalStatus.Step p.id op p.status q.status ∧ ∃ s₁, Proposal.Moved c s p q s₁)
      s.proposals s'.proposals := by
  cases h with
  | @vaultAdvanced op v target =>
      obtain ⟨assets, h⟩ := (s.putVault _).settleAssets_rest v.id target c.now
      rw [h]
      exact .none
  | assetsPaidOut paid =>
      obtain ⟨assets, rfl⟩ := paid.rest
      exact .none
  | proposalAdded type row => exact .added ⟨_, _, _, rfl, row⟩
  | proposalMoved found step moved =>
      obtain ⟨vaults, assets, hrest⟩ := moved.rest
      rw [hrest]
      exact .replaced found (Proposal.Follows.of_moved moved).id (.inr ⟨step, _, moved⟩)
  | _ => exact .none

/-- A proposal that is there stays there, as it was or moved by a step that the
operation makes. -/
theorem Operation.Does.proposal_later (h : op.Does c s s') (hp : s.proposal? id = some p) :
    ∃ q, s'.proposal? id = some q ∧
      (q = p ∨ ProposalStatus.Step p.id op p.status q.status) := by
  obtain ⟨q, hq, hstep⟩ := h.proposals.later (fun _ => .inl rfl) hp
  exact ⟨q, hq, hstep.imp_right And.left⟩

/-- A proposal that was not there before was made by the operation. -/
theorem Operation.Does.proposal_new (h : op.Does c s s') (hnone : s.proposal? id = none)
    (hq : s'.proposal? id = some q) :
    ∃ v x draft, op = .createProposal v.id draft ∧ Proposal.Submitted c s v x q :=
  h.proposals.new_of_none hnone hq

end Does

/-! ## Dates -/

namespace Proposal

/-- The dates that go with a status: the start once voting was opened, the end
once the outcome is known, and the execution exactly for what was executed. -/
structure Dated (p : Proposal) : Prop where
  started : p.status = .active ∨ p.Decided → p.startDate.isSome
  ended : p.Decided → p.endDate.isSome
  executed : p.executionDate.isSome ↔ p.status = .executed

variable {c : Context} {s s' : Store} {p q : Proposal}

/-- A new proposal has dates to go with its status. -/
theorem Submitted.dated {v : Vault} {x : Snapshot} (h : Submitted c s v x p) : p.Dated := by
  obtain ⟨-, -, -, hstatus, -⟩ := h.fields
  obtain ⟨draft, fee, fields, options, -, -, -, hrow⟩ := h.row
  have hdate : p.executionDate = none := by
    simp only [rowOf, bind_eq_ok, pure_eq_ok] at hrow
    obtain ⟨_, -, _, -, _, -, _, -, _, -, rfl⟩ := hrow
    rfl
  rcases hstatus with hstatus | hstatus <;> constructor <;> simp [Decided, hstatus, hdate]

/-- Moving a proposal writes the dates that the new status asks for. -/
theorem Moved.dated (h : Moved c s p q s') (hp : p.Dated) : q.Dated := by
  cases h with
  | feePaid status =>
      have hdate := hp.executed
      constructor <;> simp_all [Decided, entered]
  | opened status =>
      have hdate := hp.executed
      constructor <;> simp_all [Decided, entered]
  | @closed v passed result status vault decision =>
      have hstart := hp.started (.inl status)
      have hdate := hp.executed
      cases passed <;> constructor <;> simp_all [Decided, entered]
  | executed status vault effect =>
      have hstart := hp.started (.inr (.inl status))
      have hend := hp.ended (.inl status)
      constructor <;> simp_all [Decided, entered]

end Proposal

/-- In every store that a run leads to, the dates go with the statuses. -/
theorem storeAfter_dated (calls : List Call) : ∀ p ∈ (storeAfter calls).proposals, p.Dated := by
  refine storeAfter_invariant (P := fun s => ∀ p ∈ s.proposals, p.Dated) (by simp) ?_ calls
  rintro c s s' h ⟨op, hop⟩
  refine hop.proposals.forall_mem h ?_ ?_
  · rintro q ⟨v, x, draft, -, row⟩
    exact row.dated
  · rintro p q (rfl | ⟨-, s₁, moved⟩) hp
    · exact hp
    · exact moved.dated hp

/-! ## The trail of a proposal -/

namespace Proposal

/-- The status of a proposal in a store. -/
def statusIn (id : Uuid) (s : Store) : Option ProposalStatus := (s.proposal? id).map (·.status)

/-- A call of a run makes a proposal, which waits for its fee exactly when the
fee of its type is positive at that moment. -/
def MadeBy (id : Uuid) (k : Call) (status : ProposalStatus) (calls : List Call) : Prop :=
  ∃ earlier later vaultId draft p fee, calls = earlier ++ k :: later ∧
    k.operation = .createProposal vaultId draft ∧
    (storeAfter earlier).proposal? id = none ∧
    (storeAfter (earlier ++ [k])).proposal? id = some p ∧
    (Settings.proposalFee p.type k.context (World.after {} earlier)).1 = .ok fee ∧
    status = p.status ∧ status = if 0 < fee then .unpaid else .upcoming

/-- A call of a run noted the fee of an unpaid proposal, and succeeded. -/
def PaidIn (id : Uuid) (calls : List Call) : Prop :=
  ∃ earlier k later, calls = earlier ++ k :: later ∧ k.operation = .markFeePaid id ∧
    statusIn id (storeAfter earlier) = some .unpaid ∧
    ∃ p w, markFeePaid id k.context (World.after {} earlier) = (.ok p, w)

variable {id : Uuid}

/-- A call leaves the status of a proposal or takes a step. -/
theorem statusIn_called (w : World) (k : Call) {status : ProposalStatus}
    (h : statusIn id w.store = some status) :
    ∃ status', statusIn id (w.called k).store = some status' ∧
      (status' = status ∨ ProposalStatus.Step id k.operation status status') := by
  obtain ⟨p, hp, rfl⟩ := Option.map_eq_some_iff.1 h
  obtain rfl := Store.id_of_proposal? hp
  obtain ⟨q, hq, hstep⟩ := (World.does_called w k).proposal_later hp
  refine ⟨q.status, by rw [statusIn, hq, Option.map_some], ?_⟩
  cases hstep with
  | inl hsame => exact .inl (by rw [hsame])
  | inr hstep => exact .inr hstep

/-- The first entry of the trail of a proposal comes from the call that made
it. -/
theorem madeBy_of_head {calls : List Call} {k : Call} {status : ProposalStatus}
    (h : (World.trail (statusIn id) {} calls).head? = some (k, status)) :
    MadeBy id k status calls := by
  obtain ⟨earlier, later, p, rfl, hnone, hp, rfl⟩ := World.head?_trail_row (by rfl) h
  obtain ⟨v, x, draft, hop, row⟩ := (does_storeAfter earlier k).proposal_new hnone hp
  obtain ⟨fee, hread, hfee⟩ := row.status
  refine ⟨earlier, later, v.id, draft, p, fee, rfl, hop, hnone, hp, ?_, rfl, hfee⟩
  rw [Settings.proposalFee_eq_ok.2 ⟨hread, rfl⟩]

/-- A proposal that was unpaid and no longer is had its fee noted in between. -/
theorem paidIn_of_unpaid {earlier later : List Call} {q : Proposal}
    (h : statusIn id (storeAfter earlier) = some .unpaid)
    (hq : (storeAfter (earlier ++ later)).proposal? id = some q) (hstatus : q.status ≠ .unpaid) :
    PaidIn id (earlier ++ later) := by
  rw [storeAfter, World.after_append] at hq
  obtain ⟨before, k, after, rfl, hbefore, hafter⟩ :=
    World.exists_call (P := fun s => statusIn id s ≠ some .unpaid) (not_not.2 h)
      (by rw [statusIn, hq, Option.map_some]; simpa using hstatus)
  rw [not_not] at hbefore
  rw [World.after_append, World.after_cons, World.after_nil] at hafter
  obtain ⟨status, hnow, hstep⟩ := statusIn_called _ k hbefore
  rw [hnow] at hafter
  have hpaid : ProposalStatus.Step id k.operation .unpaid status :=
    hstep.resolve_left fun hsame => hafter (by rw [hsame])
  have hop : k.operation = .markFeePaid id := hpaid.of_unpaid
  -- The status has changed, so the call did not fail.
  obtain ⟨u, hrun⟩ := World.succeeded_of_store_ne (k := k) fun hstore => hafter (by
    rw [← hnow, hstore, hbefore])
  rw [hop, Operation.action, Action.discarded_eq_ok] at hrun
  obtain ⟨p, hrun⟩ := hrun
  rw [← World.after_append] at hbefore hrun
  exact ⟨earlier ++ before, k, after, by simp, hop, hbefore, p, _, hrun⟩

end Proposal

/-- The life of a proposal in a run.  Its status begins as the fee of its type
has it when it is made, and each later status is the one before or comes from it
by a step of the operation that was called.  A proposal that was made unpaid and
is no longer was paid for by a call that succeeded.  The dates of its row go with
its status, and the row differs from every earlier row of the proposal in the
status and the dates only. -/
theorem proposal_lifecycle (calls : List Call) (id : Uuid) :
    let trail := World.trail (Proposal.statusIn id) {} calls
    (∀ k status, trail.head? = some (k, status) → Proposal.MadeBy id k status calls) ∧
      trail.IsChain (fun x y => y.2 = x.2 ∨ ProposalStatus.Step id y.1.operation x.2 y.2) ∧
      (∀ k q, trail.head? = some (k, .unpaid) → (storeAfter calls).proposal? id = some q →
        q.status ≠ .unpaid → Proposal.PaidIn id calls) ∧
      ∀ q, (storeAfter calls).proposal? id = some q → q.Dated ∧
        ∀ earlier later p, calls = earlier ++ later → (storeAfter earlier).proposal? id = some p →
          q = { p with
            status := q.status
            startDate := q.startDate
            endDate := q.endDate
            executionDate := q.executionDate
            updatedAt := q.updatedAt } := by
  refine ⟨fun k status h => Proposal.madeBy_of_head h,
    World.isChain_trail (fun w k _ h => Proposal.statusIn_called w k h) {} calls, ?_, ?_⟩
  · intro k q hhead hq hstatus
    obtain ⟨earlier, later, hcalls, -, hunpaid⟩ := World.head?_trail (by rfl) hhead
    obtain rfl : calls = (earlier ++ [k]) ++ later := by rw [hcalls, List.append_assoc]; rfl
    exact Proposal.paidIn_of_unpaid hunpaid hq hstatus
  · intro q hq
    refine ⟨storeAfter_dated calls q (List.mem_of_find?_eq_some hq), ?_⟩
    rintro earlier later p rfl hp
    obtain ⟨q', hq', hf⟩ := (storeAfter_before earlier later).proposals hp
    obtain rfl : q = q' := Option.some.inj (hq.symm.trans hq')
    exact hf.row

/-- A proposal that was paid for, voted on and executed. -/
theorem proposal_lifecycle_of_sample :
    let calls := Sample.opening ++ Sample.voting ++ Sample.closing
    let trail := World.trail (Proposal.statusIn Sample.proposalId) {} calls
    let q := (storeAfter calls).proposals.headD default
    trail.map (·.2) = [.unpaid, .upcoming, .active, .active, .active, .passed, .executed] ∧
      Proposal.PaidIn Sample.proposalId calls ∧ q.Dated ∧ q.status = .executed := by
  intro calls trail q
  have hq : (storeAfter calls).proposal? Sample.proposalId = some q := by decide +kernel
  have hstatuses : trail.map (·.2) =
      [.unpaid, .upcoming, .active, .active, .active, .passed, .executed] := by decide +kernel
  have hfirst : trail.head?.map (·.2) = some .unpaid := by rw [← List.head?_map, hstatuses]; rfl
  obtain ⟨⟨k, status⟩, hhead, rfl⟩ := Option.map_eq_some_iff.1 hfirst
  obtain ⟨-, -, hpaid, hrow⟩ := proposal_lifecycle calls Sample.proposalId
  exact ⟨hstatuses, hpaid k q hhead hq (by decide +kernel), (hrow q hq).1, by decide +kernel⟩

end VaultGovernance
