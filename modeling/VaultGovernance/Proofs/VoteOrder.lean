import VaultGovernance.Proofs.Closing

/-!
# VaultGovernance.Proofs.VoteOrder

The order of votes does not matter.  Whether an attempt to vote is accepted, and what
it then weighs, depends on the proposal, on its snapshot and on whether the same voter
or the same address has voted before.  Attempts of different voters from different
addresses do not get in each other's way, so each is judged as it would be judged alone.
What is counted afterwards is a sum over the accepted ones, the same in every order.

`Vote.judge` is what casting a vote decides, without writing anything.
-/

namespace VaultGovernance

open VaultGovernance.Action

/-- The snapshot of a proposal is read from the snapshots alone. -/
theorem Store.snapshotOf?_congr {s s' : Store} (h : s'.snapshots = s.snapshots) (p : Proposal) :
    s'.snapshotOf? p = s.snapshotOf? p := by
  have hfound : s'.snapshot? = s.snapshot? := by
    funext id
    rw [snapshot?, h, snapshot?]
  rw [snapshotOf?, snapshotOf?, hfound]

/-! ## Attempts -/

namespace Vote

/-- An attempt to vote on a proposal. -/
structure Attempt where
  voterId : Option String
  option : Json
  address : Option String

/-- What the count keeps of a vote, and who it is from. -/
structure Mark where
  voterId : String
  voterAddress : String
  weight : Int
  optionId : String

/-- The mark of a vote. -/
def mark (v : Vote) : Mark := ⟨v.voterId, v.voterAddress, v.weight, v.optionId⟩

/-- What an open proposal makes of an attempt: the mark of the vote, or why there is
none. -/
def judge (s : Store) (p : Proposal) (a : Attempt) : Except Fault Mark := do
  let duplicate : DomainError :=
    .duplicateVote p.id.toJson (optionalText a.voterId) (optionalText a.address)
  let optionId ← resolveOption p a.option
  let weight ← powerOn s p a.address
  if weight ≤ 0 then .error (.refusal (.noVotingPower p.id.toJson (optionalText a.address)))
  else if (s.votesOn p.id).any (isFrom a.voterId a.address) then .error (.refusal duplicate)
  else
    let weight ← Column.bigint weight
    match a.voterId, a.address with
    | some voterId, some voterAddress => .ok ⟨voterId, voterAddress, weight, optionId⟩
    | _, _ => .error (.refusal duplicate)

/-- The row of a vote with a mark. -/
def Mark.row (m : Mark) (s : Store) (p : Proposal) (time : Timestamp) : Vote :=
  ⟨s.nextId, p.id, m.voterId, m.voterAddress, m.weight, m.optionId, time⟩

variable {c : Context} {w w' : World} {s : Store} {p : Proposal} {a : Attempt}

/-- Casting a vote while voting is open does what was judged. -/
theorem cast_of_open (hp : w.store.proposal? p.id = some p)
    (hopen : requireOpen p c.now = .ok ()) :
    cast p.id a.voterId a.option a.address c w =
      match judge w.store p a with
      | .error e => (.error e, w)
      | .ok m =>
        (.ok (m.row w.store p c.now), ⟨w.store.addVote (m.row w.store p c.now),
          .voteCast p.hasCustomOptions :: w.events⟩) := by
  rw [cast, bind_eq, andThen_of_ok (Proposal.find_eq_ok.2 ⟨hp, rfl⟩)]
  simp only [bind_eq, now_andThen, hopen]
  rw [andThen_of_ok (ofExcept_eq_ok.2 ⟨rfl, rfl⟩), judge]
  cases resolveOption p a.option with
  | error e => rfl
  | ok optionId =>
      rw [andThen_of_ok (ofExcept_eq_ok.2 ⟨rfl, rfl⟩), store_andThen]
      cases powerOn w.store p a.address with
      | error e => rfl
      | ok weight =>
          rw [andThen_of_ok (ofExcept_eq_ok.2 ⟨rfl, rfl⟩)]
          show _ = match (if weight ≤ 0 then _ else _ : Except Fault Mark) with
            | .error e => _
            | .ok m => _
          split
          · rfl
          · split
            · rfl
            · cases Column.bigint weight with
              | error e => rfl
              | ok weight =>
                  rw [andThen_of_ok (ofExcept_eq_ok.2 ⟨rfl, rfl⟩)]
                  cases a.voterId with
                  | none => rfl
                  | some voterId => cases a.address <;> rfl

/-- A vote that is accepted is from the voter and the address of the attempt. -/
theorem judge_ok {m : Mark} (h : judge s p a = .ok m) :
    a.voterId = some m.voterId ∧ a.address = some m.voterAddress := by
  simp only [judge, bind_eq_ok] at h
  obtain ⟨optionId, -, weight, -, h⟩ := h
  split at h
  · cases h
  · split at h
    · cases h
    · obtain ⟨weight, -, h⟩ := bind_eq_ok.1 h
      split at h
      · next voterId voterAddress hvoter haddress =>
        obtain rfl := Except.ok.inj h
        exact ⟨hvoter, haddress⟩
      · cases h

/-- Judging looks at the snapshots and at whether the voter or the address has voted on
the proposal. -/
theorem judge_congr {s' : Store} (hsnapshots : s'.snapshots = s.snapshots)
    (hvoted : (s'.votesOn p.id).any (isFrom a.voterId a.address) =
      (s.votesOn p.id).any (isFrom a.voterId a.address)) : judge s' p a = judge s p a := by
  have hpower : powerOn s' p a.address = powerOn s p a.address := by
    rw [powerOn, powerOn, Store.snapshotOf?_congr hsnapshots]
  rw [judge, judge, hpower, hvoted]

/-- An attempt is from another voter and another address than an earlier one. -/
def Attempt.Apart (a b : Attempt) : Prop := a.voterId ≠ b.voterId ∧ a.address ≠ b.address

/-- A vote that was accepted does not change what is made of the attempts of others. -/
theorem judge_addVote {b : Attempt} {m : Mark} {time : Timestamp} (h : judge s p a = .ok m)
    (hapart : a.Apart b) : judge (s.addVote (m.row s p time)) p b = judge s p b := by
  refine judge_congr rfl ?_
  obtain ⟨hvoter, haddress⟩ := judge_ok h
  have hother : isFrom b.voterId b.address (m.row s p time) = false := by
    rw [isFrom, Bool.or_eq_false_iff, decide_eq_false_iff_not, decide_eq_false_iff_not]
    exact ⟨fun hsame => hapart.1 (hvoter.trans hsame), fun hsame => hapart.2 (haddress.trans hsame)⟩
  have hmine : (m.row s p time).proposalId = p.id := rfl
  rw [Store.votesOn_addVote, if_pos hmine, List.any_append, List.any_cons, hother, List.any_nil,
    Bool.or_false, Bool.or_false]

end Vote

/-! ## Runs of attempts -/

/-- How the calls of a run end, each with its operation. -/
def World.verdicts : World → List Call → List (Operation × Except Fault Unit)
  | _, [] => []
  | w, k :: calls =>
    (k.operation, (transaction k.operation.action k.context w).1) :: verdicts (w.called k) calls

namespace Vote

/-- An attempt with the moment at which it is made. -/
structure Turn where
  context : Context
  attempt : Attempt

/-- The operation of an attempt on a proposal. -/
def Attempt.operation (id : Uuid) (a : Attempt) : Operation :=
  .castVote id a.voterId a.option a.address

/-- The calls that make attempts on a proposal. -/
def callsOn (id : Uuid) (turns : List Turn) : List Call :=
  turns.map fun t => ⟨t.context, t.attempt.operation id⟩

/-- How the transaction of an attempt ends that was judged. -/
def outcome : Except Fault Mark → Except Fault Unit
  | .ok _ => .ok ()
  | .error e => .error e.atCommit

variable {w : World} {p : Proposal}

/-- Voting is open at a moment. -/
theorem requireOpen_of_active {now : Timestamp} (hactive : p.status = .active)
    (hopen : p.votingClosed now = false) : requireOpen p now = .ok () := by
  rw [requireOpen, if_pos hactive, hopen]
  rfl

/-- A transaction with an attempt ends as the attempt is judged, and writes the vote if
there is one. -/
theorem transaction_attempt (c : Context) (a : Attempt) (hp : w.store.proposal? p.id = some p)
    (hopen : requireOpen p c.now = .ok ()) :
    (transaction (a.operation p.id).action c w).1 = outcome (judge w.store p a) ∧
      (transaction (a.operation p.id).action c w).2.store =
        match judge w.store p a with
        | .ok m => w.store.addVote (m.row w.store p c.now)
        | .error _ => w.store := by
  rw [Attempt.operation, Operation.action, transaction, discarded, andThen, cast_of_open hp hopen]
  cases judge w.store p a <;> exact ⟨rfl, rfl⟩

/-- The votes of attempts, as they are judged in one store. -/
def accepted (s : Store) (p : Proposal) (attempts : List Attempt) : List Mark :=
  attempts.filterMap fun a => (judge s p a).toOption

/-- The second store is the first with votes on a proposal added. -/
def Added (p : Proposal) (marks : List Mark) (s s' : Store) : Prop :=
  ∃ votes serial, s' = { s with votes := s.votes ++ votes, serial } ∧
    (∀ v ∈ votes, v.proposalId = p.id) ∧ votes.map mark = marks

namespace Added

variable {s s' s'' : Store} {marks marks' : List Mark}

theorem refl (p : Proposal) (s : Store) : Added p [] s s :=
  ⟨[], s.serial, by rw [List.append_nil], by simp, rfl⟩

theorem addVote (s : Store) (p : Proposal) (m : Mark) (time : Timestamp) :
    Added p [m] s (s.addVote (m.row s p time)) :=
  ⟨[m.row s p time], s.serial + 1, rfl, by simp [Mark.row], rfl⟩

theorem trans (h : Added p marks s s') (h' : Added p marks' s' s'') :
    Added p (marks ++ marks') s s'' := by
  obtain ⟨votes, n, rfl, hvotes, rfl⟩ := h
  obtain ⟨votes', n', rfl, hvotes', rfl⟩ := h'
  refine ⟨votes ++ votes', n', ?_, ?_, List.map_append⟩
  · rw [List.append_assoc]
  · intro v hv
    exact (List.mem_append.1 hv).elim (hvotes v) (hvotes' v)

theorem proposals (h : Added p marks s s') : s'.proposals = s.proposals := by
  obtain ⟨votes, n, rfl, -, -⟩ := h
  rfl

theorem proposal? (h : Added p marks s s') (id : Uuid) : s'.proposal? id = s.proposal? id := by
  obtain ⟨votes, n, rfl, -, -⟩ := h
  rfl

theorem vault? (h : Added p marks s s') (id : Uuid) : s'.vault? id = s.vault? id := by
  obtain ⟨votes, n, rfl, -, -⟩ := h
  rfl

theorem snapshots (h : Added p marks s s') : s'.snapshots = s.snapshots := by
  obtain ⟨votes, n, rfl, -, -⟩ := h
  rfl

/-- The marks of the votes on the proposal. -/
theorem map_mark_votesOn (h : Added p marks s s') :
    (s'.votesOn p.id).map mark = (s.votesOn p.id).map mark ++ marks := by
  obtain ⟨votes, n, rfl, hvotes, rfl⟩ := h
  have hall : (votes.filter fun v => v.proposalId = p.id) = votes :=
    List.filter_eq_self.2 fun v hv => decide_eq_true (hvotes v hv)
  rw [Store.votesOn, List.filter_append, hall, List.map_append]
  rfl

end Added

/-- An attempt adds its vote if it is accepted, and leaves the others to be judged as
before. -/
theorem called_attempt (c : Context) (a : Attempt) (hp : w.store.proposal? p.id = some p)
    (hopen : requireOpen p c.now = .ok ()) :
    let w' := w.called ⟨c, a.operation p.id⟩
    Added p (accepted w.store p [a]) w.store w'.store ∧
      ∀ b, a.Apart b → judge w'.store p b = judge w.store p b := by
  intro w'
  have hstore : w'.store = _ := (transaction_attempt c a hp hopen).2
  cases hjudge : judge w.store p a with
  | error e =>
      have hnone : accepted w.store p [a] = [] := by
        rw [accepted, List.filterMap_cons_none (by rw [hjudge]; rfl), List.filterMap_nil]
      rw [hjudge] at hstore
      rw [hstore, hnone]
      exact ⟨.refl p _, fun _ _ => rfl⟩
  | ok m =>
      have hone : accepted w.store p [a] = [m] := by
        rw [accepted, List.filterMap_cons_some (by rw [hjudge]; rfl), List.filterMap_nil]
      rw [hjudge] at hstore
      rw [hstore, hone]
      exact ⟨.addVote _ p m c.now, fun b hapart => judge_addVote hjudge hapart⟩

/-- Attempts of different voters from different addresses are each judged as in the
store that the run starts in, and the votes that are accepted are added to it. -/
theorem after_attempts {turns : List Turn} (hp : w.store.proposal? p.id = some p)
    (hopen : ∀ t ∈ turns, requireOpen p t.context.now = .ok ())
    (hapart : (turns.map (·.attempt)).Pairwise Attempt.Apart) :
    w.verdicts (callsOn p.id turns) = (turns.map (·.attempt)).map
        (fun a => (a.operation p.id, outcome (judge w.store p a))) ∧
      Added p (accepted w.store p (turns.map (·.attempt))) w.store
        (w.after (callsOn p.id turns)).store := by
  induction turns generalizing w with
  | nil => exact ⟨rfl, .refl p _⟩
  | cons t turns ih =>
      obtain ⟨ht, hopen⟩ := List.forall_mem_cons.1 hopen
      rw [List.map_cons, List.pairwise_cons] at hapart
      obtain ⟨hfirst, hapart⟩ := hapart
      have hverdict := (transaction_attempt t.context t.attempt hp ht).1
      obtain ⟨hadded, hsame⟩ := called_attempt t.context t.attempt hp ht
      obtain ⟨hverdicts, hrest⟩ := ih ((hadded.proposal? _).trans hp) hopen hapart
      have hlater : ∀ a ∈ turns.map (·.attempt), judge _ p a = judge w.store p a :=
        fun a ha => hsame a (hfirst a ha)
      constructor
      · rw [callsOn, List.map_cons, World.verdicts, hverdict, List.map_cons, List.map_cons]
        refine congrArg _ (hverdicts.trans (List.map_congr_left fun a ha => ?_))
        rw [hlater a ha]
      · have haccepted : accepted _ p (turns.map (·.attempt)) =
            accepted w.store p (turns.map (·.attempt)) :=
          List.filterMap_congr fun a ha => by rw [hlater a ha]
        rw [haccepted] at hrest
        rw [List.map_cons, ← List.singleton_append, accepted, List.filterMap_append]
        exact hadded.trans hrest

/-! ## Counting in another order -/

section Count

variable {votes votes' : List Vote}

/-- The weights for an entry are read from the marks. -/
theorem weightsFor_eq (votes : List Vote) (option : String) :
    weightsFor votes option =
      ((votes.map mark).filter fun m => m.optionId = option).map (·.weight) := by
  rw [weightsFor, List.filter_map, List.map_map]
  rfl

theorem perm_weightsFor (h : (votes.map mark).Perm (votes'.map mark)) (option : String) :
    (weightsFor votes option).Perm (weightsFor votes' option) := by
  rw [weightsFor_eq, weightsFor_eq]
  exact (h.filter _).map _

/-- The rows do not depend on the order of the votes. -/
theorem rowsFor_perm (h : (votes.map mark).Perm (votes'.map mark))
    (ballot : List (String × String)) : rowsFor votes ballot = rowsFor votes' ballot := by
  rw [rowsFor, rowsFor]
  refine List.map_congr_left fun entry _ => ?_
  have hweights := perm_weightsFor h entry.1
  have hsum : (weightsFor votes entry.1).sum = (weightsFor votes' entry.1).sum := hweights.sum_eq
  simp only [hweights.length_eq]
  exact congrArg _ hsum

/-- Whether weights that are not negative can be added up does not depend on the order
of the votes. -/
theorem canSum_perm (h : (votes.map mark).Perm (votes'.map mark))
    (hnonneg : ∀ v ∈ votes, 0 ≤ v.weight) (hnonneg' : ∀ v ∈ votes', 0 ≤ v.weight) :
    canSum votes = canSum votes' := by
  rw [Bool.eq_iff_iff, canSum_iff hnonneg, canSum_iff hnonneg']
  exact forall_congr' fun option => by rw [(perm_weightsFor h option).sum_eq]

/-- The tally does not depend on the order of the votes. -/
theorem tallyOf_perm {s s' : Store}
    (h : ((s.votesOn p.id).map mark).Perm ((s'.votesOn p.id).map mark))
    (hnonneg : ∀ v ∈ s.votesOn p.id, 0 ≤ v.weight)
    (hnonneg' : ∀ v ∈ s'.votesOn p.id, 0 ≤ v.weight) : tallyOf s p = tallyOf s' p := by
  rw [tallyOf, tallyOf]
  simp only [canSum_perm h hnonneg hnonneg', rowsFor_perm h]

end Count

end Vote

namespace Proposal

variable {c c' : Context} {w w' : World} {p : Proposal}

/-- Where attempts go on from a run, the votes on the proposal weigh something. -/
theorem nonneg_after_added {calls later : List Call} {marks : List Vote.Mark}
    (hp : p ∈ (storeAfter calls).proposals)
    (h : Vote.Added p marks (storeAfter calls) ((World.after {} calls).after later).store) :
    ∀ v ∈ ((World.after {} calls).after later).store.votesOn p.id, 0 ≤ v.weight := by
  rw [← World.after_append] at h ⊢
  refine nonneg_storeAfter ?_
  rw [storeAfter, h.proposals]
  exact hp

/-- A decision depends on the tally, on the snapshots and on the thresholds. -/
theorem decide_congr {s s' : Store} (htally : Vote.tallyOf s' p = Vote.tallyOf s p)
    (hsnapshots : s'.snapshots = s.snapshots) (c : Configuration) (v : Vault) :
    p.decide c s' v = p.decide c s v := by
  have hpower : powerBehind s' p = powerBehind s p := by
    rw [powerBehind, powerBehind, Store.snapshotOf?_congr hsnapshots]
  rw [Proposal.decide, Proposal.decide, htally, hpower]

/-- What is known of an active proposal once closing it was tried: its status and the
outcome, or why it could not be closed. -/
def closing (r : Except Fault (Proposal × Option VoteResult)) :
    Except Fault (ProposalStatus × Option VoteResult) := r.map fun r => (r.1.status, r.2)

/-- Closing a proposal shows the decision. -/
theorem closing_finalize {v : Vault} (hp : w.store.proposal? p.id = some p)
    (hactive : p.status = .active) (hv : w.store.vault? p.vaultId = some v) :
    closing (finalize p.id c w).1 = (p.decide c.configuration w.store v).map
      fun d => (if d.1 then .passed else .rejected, d.2) := by
  cases h : p.decide c.configuration w.store v with
  | error e =>
      rw [finalize_of_decide_error hp hactive hv h]
      rfl
  | ok d =>
      rw [finalize_of_decide_ok hp hactive hv h]
      rfl

end Proposal

/-- The order of votes does not matter.  Take an active proposal in a store that a run
leads to, and attempts to vote on it by different voters from different addresses, each
made while voting is open.  Made in another order, at whatever times that are not after
the end, the same attempts end the same way, and afterwards the tally has the same
rows, and closing the proposal leads to the same status and outcome or fails the same
way. -/
theorem vote_order_irrelevant (calls : List Call) (p : Proposal) (turns turns' : List Vote.Turn)
    (hp : p ∈ (storeAfter calls).proposals) (hactive : p.status = .active)
    (hperm : (turns.map (·.attempt)).Perm (turns'.map (·.attempt)))
    (hvoters : (turns.map (·.attempt.voterId)).Nodup)
    (haddresses : (turns.map (·.attempt.address)).Nodup)
    (hopen : ∀ t ∈ turns ++ turns', p.votingClosed t.context.now = false) :
    let w := World.after {} calls
    let votes := Vote.callsOn p.id turns
    let votes' := Vote.callsOn p.id turns'
    (w.verdicts votes).Perm (w.verdicts votes') ∧
      (∀ c c', (Vote.tally p.id c (w.after votes)).1 =
        (Vote.tally p.id c' (w.after votes')).1) ∧
      ∀ c c', c.configuration = c'.configuration →
        Proposal.closing (Proposal.finalize p.id c (w.after votes)).1 =
          Proposal.closing (Proposal.finalize p.id c' (w.after votes')).1 := by
  intro w votes votes'
  have hfound : w.store.proposal? p.id = some p :=
    (storeAfter_numbered calls).proposal?_of_mem hp
  have hapart : (turns.map (·.attempt)).Pairwise Vote.Attempt.Apart :=
    List.pairwise_map.2 ((List.pairwise_map.1 hvoters).and (List.pairwise_map.1 haddresses))
  have hapart' : (turns'.map (·.attempt)).Pairwise Vote.Attempt.Apart :=
    (hperm.pairwise_iff fun h => ⟨h.1.symm, h.2.symm⟩).1 hapart
  have hrequired (t : Vote.Turn) (ht : t ∈ turns ++ turns') :
      Vote.requireOpen p t.context.now = .ok () := Vote.requireOpen_of_active hactive (hopen t ht)
  obtain ⟨hverdicts, hadded⟩ := Vote.after_attempts hfound
    (fun t ht => hrequired t (List.mem_append_left _ ht)) hapart
  obtain ⟨hverdicts', hadded'⟩ := Vote.after_attempts hfound
    (fun t ht => hrequired t (List.mem_append_right _ ht)) hapart'
  have hmarks : (((w.after votes).store.votesOn p.id).map Vote.mark).Perm
      (((w.after votes').store.votesOn p.id).map Vote.mark) := by
    rw [hadded.map_mark_votesOn, hadded'.map_mark_votesOn]
    exact (hperm.filterMap _).append_left _
  have htally : Vote.tallyOf (w.after votes).store p = Vote.tallyOf (w.after votes').store p :=
    Vote.tallyOf_perm hmarks (Proposal.nonneg_after_added hp hadded)
      (Proposal.nonneg_after_added hp hadded')
  have hlater {marks : List Vote.Mark} {s : Store} (h : Vote.Added p marks w.store s) :
      s.proposal? p.id = some p := (h.proposal? _).trans hfound
  refine ⟨?_, ?_, ?_⟩
  · rw [hverdicts, hverdicts']
    exact hperm.map _
  · intro c c'
    rw [Vote.tally_run (hlater hadded), Vote.tally_run (hlater hadded'), htally]
  · intro c c' hconfiguration
    obtain ⟨v, hv⟩ := storeAfter_governed calls p hp
    rw [Proposal.closing_finalize (hlater hadded) hactive ((hadded.vault? _).trans hv),
      Proposal.closing_finalize (hlater hadded') hactive ((hadded'.vault? _).trans hv),
      hconfiguration,
      Proposal.decide_congr htally (hadded.snapshots.trans hadded'.snapshots.symm)]

namespace Sample

/-- Both members vote, and someone who holds nothing tries to. -/
def turns : List Vote.Turn :=
  [⟨⟨⟨14 * Timestamp.second⟩, {}⟩, ⟨some "Alice", .str "yes", some "alice"⟩⟩,
    ⟨⟨⟨15 * Timestamp.second⟩, {}⟩, ⟨some "Bob", .str "no", some "bob"⟩⟩,
    ⟨⟨⟨16 * Timestamp.second⟩, {}⟩, ⟨some "Carol", .str "no", some "carol"⟩⟩]

end Sample

/-- Two votes and an attempt that is refused, in one order and in the other. -/
theorem vote_order_irrelevant_of_sample :
    let w := World.after {} Sample.opening
    let p := w.store.proposals.headD default
    let votes := Vote.callsOn p.id Sample.turns
    let votes' := Vote.callsOn p.id Sample.turns.reverse
    (w.after votes).store.votes.map (·.voterId) = ["Alice", "Bob"] ∧
      (w.after votes').store.votes.map (·.voterId) = ["Bob", "Alice"] ∧
      (w.verdicts votes).Perm (w.verdicts votes') ∧
      (Vote.tally p.id default (w.after votes)).1 =
        (Vote.tally p.id default (w.after votes')).1 ∧
      Proposal.closing (Proposal.finalize p.id default (w.after votes)).1 =
        Proposal.closing (Proposal.finalize p.id default (w.after votes')).1 := by
  intro w p votes votes'
  obtain ⟨hverdicts, htally, hclosing⟩ :=
    vote_order_irrelevant Sample.opening p Sample.turns Sample.turns.reverse (by decide +kernel)
      (by decide +kernel) ((List.reverse_perm _).symm.map _) (by decide) (by decide)
      (by decide +kernel)
  exact ⟨by decide +kernel, by decide +kernel, hverdicts, htally default default,
    hclosing default default rfl⟩

end VaultGovernance
