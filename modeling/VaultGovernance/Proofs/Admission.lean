import VaultGovernance.Proofs.VoteOrder

/-!
# VaultGovernance.Proofs.Admission

Which votes are taken.  Six conditions on a vote are checked one after the other, once
its proposal is found, and the first one that fails decides the refusal.  Nothing else
can go wrong in a store that a run leads to: the balances of the bound snapshot can be
read, and every vote that meets the conditions is stored.

`Vote.Condition.Holds` says what each condition asks, without looking at how it is
checked, and `Vote.Condition.fault` how the vote is refused without it.
-/

namespace VaultGovernance

open VaultGovernance.Action

namespace Proposal

/-- What a vote may name: the identifier of an option of the proposal's own, or a value
of the fixed ballot, which has an abstention only if the proposal allows it. -/
def Offers (p : Proposal) (option : String) : Prop :=
  if p.hasCustomOptions then ∃ o ∈ p.options, o.id.text = option
  else option = "yes" ∨ option = "no" ∨ option = "abstain" ∧ p.abstain = some true

instance (p : Proposal) (option : String) : Decidable (p.Offers option) :=
  inferInstanceAs (Decidable (if p.hasCustomOptions then ∃ o ∈ p.options, o.id.text = option
    else option = "yes" ∨ option = "no" ∨ option = "abstain" ∧ p.abstain = some true))

/-- The fixed ballot has the values that it offers. -/
theorem mem_fixedBallot_iff {p : Proposal} {option : String} (h : p.hasCustomOptions = false) :
    option ∈ p.fixedBallot ↔ p.Offers option := by
  rw [Offers, if_neg (by simp [h]), fixedBallot]
  by_cases habstain : p.abstain = some true <;> simp [habstain]

end Proposal

/-- What an address holds in the snapshot that a proposal is bound to. -/
def Store.holding? (s : Store) (p : Proposal) (address : String) : Option Int :=
  (s.snapshotOf? p).bind fun x => (x.votingPower (some address)).toOption

namespace Vote

/-- A vote as it is submitted: who votes, for what, and with the balance of which
address. -/
structure Submission where
  voterId : String
  option : String
  address : String

/-- The attempt that a submission makes. -/
def Submission.attempt (a : Submission) : Attempt := ⟨some a.voterId, .str a.option, some a.address⟩

/-! ## Conditions -/

/-- What is asked of a vote on a proposal. -/
inductive Condition where
  /-- The proposal is open for voting. -/
  | active
  /-- The end of voting has not passed. -/
  | inTime
  /-- The option is on the ballot. -/
  | onBallot
  /-- The address holds something in the bound snapshot. -/
  | powered
  /-- Neither the voter nor the address has voted. -/
  | first
  /-- The weight can be stored. -/
  | fits
deriving DecidableEq

namespace Condition

/-- The conditions in the order in which they are checked. -/
def inOrder : List Condition := [active, inTime, onBallot, powered, first, fits]

/-- What a condition asks. -/
def Holds (s : Store) (now : Timestamp) (p : Proposal) (a : Submission) : Condition → Prop
  | active => p.status = .active
  | inTime => ∀ e ∈ p.endDate, now.micros ≤ e.micros
  | onBallot => p.Offers a.option
  | powered => ∃ n ∈ s.holding? p a.address, 0 < n
  | first =>
    ∀ v ∈ s.votes, v.proposalId = p.id → v.voterId ≠ a.voterId ∧ v.voterAddress ≠ a.address
  | fits => ∀ n ∈ s.holding? p a.address, n < 2 ^ 63

instance (s : Store) (now : Timestamp) (p : Proposal) (a : Submission) :
    (k : Condition) → Decidable (k.Holds s now p a)
  | active => inferInstanceAs (Decidable (p.status = .active))
  | inTime => inferInstanceAs (Decidable (∀ e ∈ p.endDate, now.micros ≤ e.micros))
  | onBallot => inferInstanceAs (Decidable (p.Offers a.option))
  | powered => inferInstanceAs (Decidable (∃ n ∈ s.holding? p a.address, 0 < n))
  | first => inferInstanceAs (Decidable (∀ v ∈ s.votes, v.proposalId = p.id →
      v.voterId ≠ a.voterId ∧ v.voterAddress ≠ a.address))
  | fits => inferInstanceAs (Decidable (∀ n ∈ s.holding? p a.address, n < 2 ^ 63))

/-- How a vote is refused that does not meet a condition. -/
def fault (p : Proposal) (a : Submission) : Condition → Fault
  | active => .refusal (.proposalNotActive p.id.toJson (Choice.toJson p.status) none)
  | inTime => .refusal (.proposalNotActive p.id.toJson (Choice.toJson p.status) p.endDate)
  | onBallot =>
    .refusal (if p.hasCustomOptions then .unknownVoteOption p.id.toJson (.str a.option)
      else .invalidVoteValue p.id.toJson (.str a.option) p.fixedBallot)
  | powered => .refusal (.noVotingPower p.id.toJson (.str a.address))
  | first => .refusal (.duplicateVote p.id.toJson (.str a.voterId) (.str a.address))
  | fits => .outOfRange

end Condition

/-! ## How the conditions are checked -/

variable {s : Store} {p : Proposal} {a : Submission} {now : Timestamp}

/-- A point in time is within the voting period of a proposal exactly when voting is not
closed then. -/
theorem inTime_iff : Condition.inTime.Holds s now p a ↔ p.votingClosed now = false := by
  rw [Condition.Holds, Proposal.votingClosed]
  cases p.endDate with
  | none => simp
  | some e => simp

/-- Voting is open under the first two conditions. -/
theorem requireOpen_of_holds (hactive : Condition.active.Holds s now p a)
    (htime : Condition.inTime.Holds s now p a) : requireOpen p now = .ok () :=
  requireOpen_of_active hactive (inTime_iff.1 htime)

theorem requireOpen_of_not_active (h : ¬ Condition.active.Holds s now p a) :
    requireOpen p now = .error (Condition.active.fault p a) := by
  have hstatus : ¬ p.status = .active := h
  rw [requireOpen, if_neg hstatus]
  rfl

theorem requireOpen_of_not_inTime (hactive : Condition.active.Holds s now p a)
    (h : ¬ Condition.inTime.Holds s now p a) :
    requireOpen p now = .error (Condition.inTime.fault p a) := by
  have hclosed : p.votingClosed now = true := by
    rw [inTime_iff, Bool.not_eq_false] at h
    exact h
  have hstatus : p.status = .active := hactive
  rw [requireOpen, if_pos hstatus, if_pos hclosed]
  rfl

/-- An option on the ballot is stored as it is named. -/
theorem resolveOption_of_offers (h : p.Offers a.option) :
    resolveOption p (.str a.option) = .ok a.option := by
  rw [resolveOption]
  cases hcustom : p.hasCustomOptions with
  | true =>
      rw [Proposal.Offers, if_pos hcustom] at h
      obtain ⟨o, ho, hname⟩ := h
      rw [if_pos rfl]
      cases hfound : p.options.find? fun o => o.id.text = (Json.str a.option).display with
      | none =>
          have hother := List.find?_eq_none.1 hfound o ho
          exact absurd (decide_eq_true hname) hother
      | some o' =>
          have hname' := List.find?_some hfound
          exact congrArg Except.ok (of_decide_eq_true hname')
  | false =>
      rw [if_neg (by decide)]
      exact if_pos (List.contains_iff_mem.2 ((Proposal.mem_fixedBallot_iff hcustom).2 h))

theorem resolveOption_of_not_offers (h : ¬ p.Offers a.option) :
    resolveOption p (.str a.option) = .error (Condition.onBallot.fault p a) := by
  rw [resolveOption, Condition.fault]
  cases hcustom : p.hasCustomOptions with
  | true =>
      rw [Proposal.Offers, if_pos hcustom] at h
      have hnone : (p.options.find? fun o => o.id.text = (Json.str a.option).display) = none := by
        rw [List.find?_eq_none]
        exact fun o ho hname => h ⟨o, ho, of_decide_eq_true hname⟩
      rw [if_pos rfl, hnone, if_pos rfl]
  | false =>
      have hout : ¬ p.fixedBallot.contains a.option = true := by
        rw [List.contains_iff_mem, Proposal.mem_fixedBallot_iff hcustom]
        exact h
      rw [if_neg Bool.false_ne_true, if_neg Bool.false_ne_true]
      exact if_neg hout

/-- No vote of the proposal is from the voter or from the address. -/
theorem first_iff :
    Condition.first.Holds s now p a ↔
      (s.votesOn p.id).any (isFrom a.attempt.voterId a.attempt.address) = false := by
  rw [Condition.Holds, List.any_eq_false]
  constructor
  · intro h v hv
    obtain ⟨hmem, hproposal⟩ := List.mem_filter.1 hv
    simpa [isFrom, Submission.attempt] using h v hmem (of_decide_eq_true hproposal)
  · intro h v hv hproposal
    simpa [isFrom, Submission.attempt] using h v (List.mem_filter.2 ⟨hv, decide_eq_true hproposal⟩)

/-! ## Votes on a proposal of a run -/

/-- The address has a balance in the snapshot of the proposal, which may be zero. -/
structure Weighs (s : Store) (p : Proposal) (address : String) (n : Int) : Prop where
  holding : s.holding? p address = some n
  nonneg : 0 ≤ n

namespace Weighs

variable {n : Int}

theorem powerOn (h : Weighs s p a.address n) :
    Vote.powerOn s p a.attempt.address = .ok n := by
  obtain ⟨x, hx, hpower⟩ := Option.bind_eq_some_iff.1 h.holding
  rw [Vote.powerOn, hx]
  exact toOption_eq_some.1 hpower

theorem powered_iff (h : Weighs s p a.address n) : Condition.powered.Holds s now p a ↔ 0 < n := by
  simp only [Condition.Holds, h.holding, Option.mem_some_iff, exists_eq_left']

theorem fits_iff (h : Weighs s p a.address n) :
    Condition.fits.Holds s now p a ↔ Column.fitsBigint n = true := by
  have hbound : Column.bigintBound = 2 ^ 63 := rfl
  have hnonneg := h.nonneg
  simp only [Condition.Holds, h.holding, Option.mem_some_iff, forall_eq', Column.fitsBigint_iff,
    hbound]
  omega

/-- What is made of a submission whose option is on the ballot. -/
theorem judge_eq (h : Weighs s p a.address n) (hballot : Condition.onBallot.Holds s now p a) :
    judge s p a.attempt =
      if n ≤ 0 then .error (Condition.powered.fault p a)
      else if (s.votesOn p.id).any (isFrom a.attempt.voterId a.attempt.address) then
        .error (Condition.first.fault p a)
      else (Column.bigint n).map fun weight => ⟨a.voterId, a.address, weight, a.option⟩ := by
  have hoption : resolveOption p a.attempt.option = .ok a.option := resolveOption_of_offers hballot
  rw [judge, hoption, h.powerOn]
  simp only [bind, Except.bind]
  split
  · rfl
  · split
    · rfl
    · cases Column.bigint n <;> rfl

end Weighs

/-- A submission whose option is not on the ballot is refused for that. -/
theorem judge_of_not_onBallot (h : ¬ Condition.onBallot.Holds s now p a) :
    judge s p a.attempt = .error (Condition.onBallot.fault p a) := by
  have hoption : resolveOption p a.attempt.option = _ := resolveOption_of_not_offers h
  rw [judge, hoption]
  rfl

/-- The vote that a submission becomes. -/
def Submission.vote (a : Submission) (s : Store) (p : Proposal) (now : Timestamp) (weight : Int) :
    Vote :=
  ⟨s.nextId, p.id, a.voterId, a.address, weight, a.option, now⟩

/-- A condition that a submission fails to meet, while it meets those that are checked
before. -/
structure FirstFailed (s : Store) (now : Timestamp) (p : Proposal) (a : Submission)
    (k : Condition) : Prop where
  earlier : ∀ j, Condition.inOrder.idxOf j < Condition.inOrder.idxOf k → j.Holds s now p a
  failed : ¬ k.Holds s now p a

/-- Once voting is open, what is made of a submission is the fault of the first condition
that fails. -/
theorem Weighs.judge_of_firstFailed {n : Int} (h : Weighs s p a.address n) {k : Condition}
    (hk : FirstFailed s now p a k)
    (hopen : Condition.inOrder.idxOf .inTime < Condition.inOrder.idxOf k) :
    judge s p a.attempt = .error (k.fault p a) := by
  obtain ⟨earlier, failed⟩ := hk
  cases k with
  | active => exact absurd hopen (by decide)
  | inTime => exact absurd hopen (by decide)
  | onBallot => exact judge_of_not_onBallot failed
  | powered =>
      have hnone : n ≤ 0 := Int.not_lt.1 fun hpos => failed (h.powered_iff.2 hpos)
      rw [h.judge_eq (earlier .onBallot (by decide)), if_pos hnone]
  | first =>
      have hpos : 0 < n := h.powered_iff.1 (earlier .powered (by decide))
      rw [first_iff, Bool.not_eq_false] at failed
      rw [h.judge_eq (earlier .onBallot (by decide)), if_neg (Int.not_le.2 hpos), if_pos failed]
  | fits =>
      have hpos : 0 < n := h.powered_iff.1 (earlier .powered (by decide))
      have hfirst := first_iff.1 (earlier .first (by decide))
      have hlarge : Column.bigint n = .error .outOfRange := by
        rw [Column.bigint, if_neg fun hfits => failed (h.fits_iff.2 hfits)]
      rw [h.judge_eq (earlier .onBallot (by decide)), if_neg (Int.not_le.2 hpos), hfirst, hlarge]
      rfl

/-- When no condition is the first to fail, all of them hold. -/
theorem holds_of_forall_not_firstFailed (h : ∀ k, ¬ FirstFailed s now p a k) (k : Condition) :
    k.Holds s now p a := by
  induction k using (measure Condition.inOrder.idxOf).wf.induction with
  | _ k ih =>
      by_contra hfailed
      exact h k ⟨ih, hfailed⟩

section Cast

variable {c : Context} {w : World} {n : Int}

/-- The action that casts the vote of a submission. -/
def Submission.cast (a : Submission) (id : Uuid) : Action Vote :=
  Vote.cast id (some a.voterId) (.str a.option) (some a.address)

/-- Without its proposal no vote is cast. -/
theorem cast_of_missing {id : Uuid} (h : w.store.proposal? id = none) :
    a.cast id c w = (.error (.refusal (.notFound "proposal" id.toJson)), w) := by
  have hfind : Proposal.find id c w = (.error (.refusal (.notFound "proposal" id.toJson)), w) := by
    simp only [Proposal.find, bind_eq, store_andThen, h]
    rfl
  exact andThen_of_error hfind

/-- While voting is not open no vote is cast. -/
theorem cast_of_not_open {e : Fault} (hp : w.store.proposal? p.id = some p)
    (h : requireOpen p c.now = .error e) : a.cast p.id c w = (.error e, w) := by
  rw [Submission.cast, cast, bind_eq, andThen_of_ok (Proposal.find_eq_ok.2 ⟨hp, rfl⟩)]
  simp only [bind_eq, now_andThen, h]
  rfl

/-- While voting is open a submission that is judged a fault is refused with it. -/
theorem cast_of_judge_error {e : Fault} (hp : w.store.proposal? p.id = some p)
    (hactive : Condition.active.Holds w.store c.now p a)
    (htime : Condition.inTime.Holds w.store c.now p a)
    (h : judge w.store p a.attempt = .error e) : a.cast p.id c w = (.error e, w) := by
  have hcast := cast_of_open (a := a.attempt) hp (requireOpen_of_holds hactive htime)
  rw [h] at hcast
  exact hcast

/-- The first condition that fails decides the refusal, and nothing is written. -/
theorem cast_of_firstFailed (hp : w.store.proposal? p.id = some p)
    (h : Weighs w.store p a.address n) {k : Condition} (hk : FirstFailed w.store c.now p a k) :
    a.cast p.id c w = (.error (k.fault p a), w) := by
  obtain ⟨earlier, failed⟩ := hk
  cases k with
  | active => exact cast_of_not_open hp (requireOpen_of_not_active failed)
  | inTime =>
      exact cast_of_not_open hp (requireOpen_of_not_inTime (earlier .active (by decide)) failed)
  | _ =>
      exact cast_of_judge_error hp (earlier .active (by decide)) (earlier .inTime (by decide))
        (h.judge_of_firstFailed ⟨earlier, failed⟩ (by decide))

/-- A submission that meets all conditions becomes a vote. -/
theorem cast_of_holds (hp : w.store.proposal? p.id = some p) (h : Weighs w.store p a.address n)
    (hall : ∀ k : Condition, k.Holds w.store c.now p a) :
    a.cast p.id c w =
      (.ok (a.vote w.store p c.now n), ⟨w.store.addVote (a.vote w.store p c.now n),
        .voteCast p.hasCustomOptions :: w.events⟩) := by
  have hpos : 0 < n := h.powered_iff.1 (hall .powered)
  have hstored : Column.bigint n = .ok n :=
    Column.bigint_eq_ok_iff.2 ⟨h.fits_iff.1 (hall .fits), rfl⟩
  have hjudge : judge w.store p a.attempt = .ok ⟨a.voterId, a.address, n, a.option⟩ := by
    rw [h.judge_eq (hall .onBallot), if_neg (Int.not_le.2 hpos), first_iff.1 (hall .first), hstored]
    rfl
  have hcast := cast_of_open (a := a.attempt) hp
    (requireOpen_of_holds (hall .active) (hall .inTime))
  rw [hjudge] at hcast
  exact hcast

end Cast

/-- In a store with votes that count, the balance of every address can be read. -/
theorem exists_weighs (hs : s.Voted) (hp : p ∈ s.proposals) (address : String) :
    ∃ n, Weighs s p address n := by
  obtain ⟨x, hx⟩ := hs.bound p hp
  obtain ⟨amounts, hholds⟩ := hs.holds hx
  refine ⟨amounts.amount address, ?_, OrderedMap.amount_nonneg hholds.nonneg address⟩
  rw [Store.holding?, hx, Option.bind_some, hholds.votingPower]
  rfl

end Vote

/-- Which votes are taken, after any run, at any time and for any voter, option and
address.  A vote is cast exactly when its proposal is there and all conditions hold.  It
is then the only row that is new, it weighs what its address holds in the bound snapshot,
and every other row is as before.  Without the proposal, and otherwise with the fault of
the first condition that fails, nothing is written. -/
theorem vote_cast_iff_conditions_hold (calls : List Call) (c : Context) (id : Uuid)
    (a : Vote.Submission) :
    let w := World.after {} calls
    let s := w.store
    let r := a.cast id c w
    ((∃ v, r.1 = .ok v) ↔
      ∃ p, s.proposal? id = some p ∧ ∀ k : Vote.Condition, k.Holds s c.now p a) ∧
    (∀ v, r.1 = .ok v →
      (∃ p weight, s.proposal? id = some p ∧ s.holding? p a.address = some weight ∧
        v = a.vote s p c.now weight) ∧
      r.2.store = { s with votes := s.votes ++ [v], serial := s.serial + 1 }) ∧
    (s.proposal? id = none → r = (.error (.refusal (.notFound "proposal" id.toJson)), w)) ∧
    ∀ p, s.proposal? id = some p → ∀ k, Vote.FirstFailed s c.now p a k →
      r = (.error (k.fault p a), w) := by
  intro w s r
  have hmissing : s.proposal? id = none →
      r = (.error (.refusal (.notFound "proposal" id.toJson)), w) := Vote.cast_of_missing
  have hweighs : ∀ p, s.proposal? id = some p → ∃ n, Vote.Weighs s p a.address n := fun p hp =>
    Vote.exists_weighs (storeAfter_voted calls) (List.mem_of_find?_eq_some hp) a.address
  have hfailed : ∀ p, s.proposal? id = some p → ∀ k, Vote.FirstFailed s c.now p a k →
      r = (.error (k.fault p a), w) := by
    intro p hp k hk
    obtain rfl := Store.id_of_proposal? hp
    obtain ⟨n, hn⟩ := hweighs p hp
    exact Vote.cast_of_firstFailed hp hn hk
  -- A vote that is cast had no condition against it.
  have hmet : ∀ v, r.1 = .ok v →
      ∃ p, s.proposal? id = some p ∧ ∀ k : Vote.Condition, k.Holds s c.now p a := by
    intro v hv
    cases hp : s.proposal? id with
    | none =>
        rw [hmissing hp] at hv
        cases hv
    | some p =>
        refine ⟨p, rfl, Vote.holds_of_forall_not_firstFailed fun k hk => ?_⟩
        rw [hfailed p hp k hk] at hv
        cases hv
  have hcast : ∀ p, s.proposal? id = some p → (∀ k : Vote.Condition, k.Holds s c.now p a) →
      ∃ n, Vote.Weighs s p a.address n ∧ r.1 = .ok (a.vote s p c.now n) ∧
        r.2.store = s.addVote (a.vote s p c.now n) := by
    intro p hp hall
    obtain rfl := Store.id_of_proposal? hp
    obtain ⟨n, hn⟩ := hweighs p hp
    have hr : r = _ := Vote.cast_of_holds hp hn hall
    exact ⟨n, hn, by rw [hr], by rw [hr]⟩
  refine ⟨⟨fun ⟨v, hv⟩ => hmet v hv, ?_⟩, ?_, hmissing, hfailed⟩
  · rintro ⟨p, hp, hall⟩
    obtain ⟨n, -, hv, -⟩ := hcast p hp hall
    exact ⟨_, hv⟩
  · intro v hv
    obtain ⟨p, hp, hall⟩ := hmet v hv
    obtain ⟨n, hn, hv', hstore⟩ := hcast p hp hall
    obtain rfl := Except.ok.inj (hv.symm.trans hv')
    exact ⟨⟨p, n, hp, hn.holding, rfl⟩, hstore⟩

/-- A vote on the proposal of the sample run is cast while it is open.  Once both members
have voted, the same vote meets every condition before that of a first vote, and is
refused. -/
theorem vote_cast_once_in_sample :
    let a : Vote.Submission := ⟨"Alice", "yes", "alice"⟩
    let c := (Sample.call 15 .getAllSettings).context
    let w := World.after {} Sample.opening
    let w' := World.after {} (Sample.opening ++ Sample.voting)
    (∃ v, (a.cast Sample.proposalId c w).1 = .ok v) ∧
      ∃ p, w'.store.proposal? Sample.proposalId = some p ∧
        Vote.FirstFailed w'.store c.now p a .first ∧
        a.cast Sample.proposalId c w' =
          (.error (.refusal (.duplicateVote p.id.toJson (.str "Alice") (.str "alice"))), w') := by
  intro a c w w'
  have hp : w'.store.proposal? Sample.proposalId = some (w'.store.proposals.headD default) := by
    decide +kernel
  have hfailed : Vote.FirstFailed w'.store c.now (w'.store.proposals.headD default) a .first := by
    constructor
    · intro j hj
      cases j with
      | first | fits => exact absurd hj (by decide)
      | _ => decide +kernel
    · decide +kernel
  refine ⟨(vote_cast_iff_conditions_hold Sample.opening c Sample.proposalId a).1.2
    ⟨w.store.proposals.headD default, by decide +kernel, fun k => ?_⟩, _, hp, hfailed,
    (vote_cast_iff_conditions_hold (Sample.opening ++ Sample.voting) c Sample.proposalId
      a).2.2.2 _ hp .first hfailed⟩
  cases k <;> decide +kernel

end VaultGovernance
