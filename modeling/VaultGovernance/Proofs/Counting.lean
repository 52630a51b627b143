import VaultGovernance.Proofs.Voting

/-!
# VaultGovernance.Proofs.Counting

Counting votes loses none.  A vote keeps a text, and a tally joins it back to a
ballot that is built anew from the proposal.  The entries of that ballot have
distinct texts, and every vote names one of them, so each vote falls into
exactly one row.
-/

namespace VaultGovernance

/-! ## Sums over parts -/

section Parts

variable {α κ : Type} [DecidableEq κ]

/-- Of distinct keys just one is a given one of them. -/
theorem sum_single {keys : List κ} (hkeys : keys.Nodup) {key : κ} (hkey : key ∈ keys) (n : Int) :
    (keys.map fun k => if k = key then n else 0).sum = n := by
  have hcount : keys.count key = 1 := List.count_eq_one_of_mem hkeys hkey
  rw [List.sum_map_ite_eq, hcount]
  simp

/-- What is added up by distinct keys is what is added up at once, as long as
every summand has one of the keys. -/
theorem sum_parts {keys : List κ} (hkeys : keys.Nodup) (key : α → κ) (f : α → Int)
    {xs : List α} (hxs : ∀ x ∈ xs, key x ∈ keys) :
    (keys.map fun k => ((xs.filter fun x => key x = k).map f).sum).sum = (xs.map f).sum := by
  induction xs with
  | nil => simp
  | cons x xs ih =>
      obtain ⟨hx, hxs⟩ := List.forall_mem_cons.1 hxs
      have hrow (k : κ) : (((x :: xs).filter fun x => key x = k).map f).sum =
          (if k = key x then f x else 0) + ((xs.filter fun x => key x = k).map f).sum := by
        by_cases hk : key x = k
        · rw [List.filter_cons_of_pos (by simpa using hk), List.map_cons, List.sum_cons,
            if_pos hk.symm]
        · rw [List.filter_cons_of_neg (by simpa using hk), if_neg (Ne.symm hk), Int.zero_add]
      simp only [hrow]
      rw [List.sum_map_add, sum_single hkeys hx, ih hxs, List.map_cons, List.sum_cons]

end Parts

/-! ## The ballot -/

namespace Proposal

theorem optionLe_iff {a b : VoteOption} :
    optionLe a b = true ↔ a.order < b.order ∨ a.order = b.order ∧ a.id.value ≤ b.id.value := by
  rw [optionLe, Bool.or_eq_true, Bool.and_eq_true, decide_eq_true_iff, decide_eq_true_iff, Uuid.le,
    decide_eq_true_iff]

theorem optionLe_trans (a b c : VoteOption) (hab : optionLe a b = true)
    (hbc : optionLe b c = true) : optionLe a c = true := by
  rw [optionLe_iff] at *
  omega

theorem optionLe_total (a b : VoteOption) : (optionLe a b || optionLe b a) = true := by
  rw [Bool.or_eq_true, optionLe_iff, optionLe_iff]
  omega

variable {p : Proposal}

/-- Options that are told apart are counted in a strict order. -/
theorem pairwise_countedOptions (h : (p.options.map VoteOption.id).Nodup) :
    p.countedOptions.Pairwise fun a b =>
      a.order < b.order ∨ a.order = b.order ∧ a.id.value < b.id.value := by
  have hsorted : p.countedOptions.Pairwise fun a b => optionLe a b = true :=
    List.pairwise_mergeSort optionLe_trans optionLe_total p.options
  have hperm : p.countedOptions.Perm p.options := List.mergeSort_perm p.options optionLe
  have hdistinct : p.countedOptions.Pairwise fun a b => a.id ≠ b.id :=
    List.pairwise_map.1 ((hperm.map VoteOption.id).nodup_iff.2 h)
  refine (hsorted.and hdistinct).imp ?_
  rintro a b ⟨hle, hne⟩
  have hvalue : a.id.value ≠ b.id.value := fun h => hne (congrArg Uuid.mk h)
  rw [optionLe_iff] at hle
  omega

/-- The entries that the ballot of a proposal must have: the options of its own,
each once, by order and identifier, or else yes, no and, where it is allowed,
abstain. -/
structure HasBallot (p : Proposal) (entries : List (String × String)) : Prop where
  custom : p.hasCustomOptions = true → ∃ options : List VoteOption, options.Perm p.options ∧
    (options.Pairwise fun a b =>
      a.order < b.order ∨ a.order = b.order ∧ a.id.value < b.id.value) ∧
    entries = options.map fun o => (o.id.text, o.label)
  fixed : p.hasCustomOptions = false → entries =
    [("yes", "yes"), ("no", "no")] ++
      if p.abstain = some true then [("abstain", "abstain")] else []

/-- The ballot that is counted is the one a proposal must have. -/
theorem hasBallot (h : (p.options.map VoteOption.id).Nodup) : p.HasBallot p.ballot where
  custom := by
    intro hcustom
    refine ⟨p.countedOptions, List.mergeSort_perm _ _, pairwise_countedOptions h, ?_⟩
    rw [ballot, if_pos hcustom]
  fixed := by
    intro hfixed
    rw [ballot, if_neg (by simp [hfixed]), fixedBallot]
    split <;> rfl

/-- The entries of a ballot have distinct texts. -/
theorem nodup_ballot (h : (p.options.map VoteOption.id).Nodup) :
    (p.ballot.map (·.1)).Nodup := by
  rw [ballot]
  split
  · have hperm : p.countedOptions.Perm p.options := List.mergeSort_perm p.options optionLe
    have hdistinct : (p.countedOptions.map VoteOption.id).Nodup :=
      (hperm.map VoteOption.id).nodup_iff.2 h
    have htexts : ((p.countedOptions.map VoteOption.id).map Uuid.text).Nodup := by
      refine List.pairwise_map.2 (hdistinct.imp ?_)
      exact fun hne htext => hne (Uuid.text_inj htext)
    rw [List.map_map] at htexts ⊢
    exact htexts
  · rw [List.map_map, fixedBallot]
    split <;> decide

end Proposal

/-! ## The rows -/

namespace Vote

variable {votes : List Vote} {ballot : List (String × String)}

/-- Tally rows split votes: every row has the number and the weight of the votes
that name it, every vote names one row, and so the rows together have the number
and the weight of all votes. -/
structure Split (votes : List Vote) (rows : List TallyRow) : Prop where
  distinct : (rows.map (·.optionId)).Nodup
  named : ∀ v ∈ votes, ∃ r ∈ rows, r.optionId = v.optionId
  count : ∀ r ∈ rows, r.count = ((votes.filter fun v => v.optionId = r.optionId).length : Nat)
  weight : ∀ r ∈ rows,
    r.weight = ((votes.filter fun v => v.optionId = r.optionId).map (·.weight)).sum
  totalCount : (rows.map (·.count)).sum = votes.length
  totalWeight : (rows.map (·.weight)).sum = (votes.map (·.weight)).sum

/-- The rows of a tally are the ballot, entry by entry. -/
theorem map_rowsFor_entry :
    (rowsFor votes ballot).map (fun r => (r.optionId, r.label)) = ballot := by
  rw [rowsFor, List.map_map]
  exact List.map_id _

theorem map_rowsFor_optionId :
    (rowsFor votes ballot).map (·.optionId) = ballot.map (·.1) := by
  rw [rowsFor, List.map_map]
  rfl

/-- The numbers of the rows add up to the number of votes. -/
theorem sum_count_rowsFor (hballot : (ballot.map (·.1)).Nodup)
    (hvotes : ∀ v ∈ votes, v.optionId ∈ ballot.map (·.1)) :
    ((rowsFor votes ballot).map (·.count)).sum = votes.length := by
  have hparts := sum_parts hballot Vote.optionId (fun _ => 1) hvotes
  have hones (xs : List Vote) : (xs.map fun _ => (1 : Int)).sum = xs.length := by simp
  simp only [hones] at hparts
  rw [← hparts, rowsFor, List.map_map, List.map_map]
  simp only [Function.comp_def, weightsFor, List.length_map]

/-- The weights of the rows add up to the weight of the votes. -/
theorem sum_weight_rowsFor (hballot : (ballot.map (·.1)).Nodup)
    (hvotes : ∀ v ∈ votes, v.optionId ∈ ballot.map (·.1)) :
    ((rowsFor votes ballot).map (·.weight)).sum = (votes.map (·.weight)).sum := by
  have hparts := sum_parts hballot Vote.optionId (·.weight) hvotes
  rw [← hparts, rowsFor, List.map_map, List.map_map]
  rfl

/-- Votes that name entries of a ballot are split by its rows. -/
theorem split_rowsFor (hballot : (ballot.map (·.1)).Nodup)
    (hvotes : ∀ v ∈ votes, v.optionId ∈ ballot.map (·.1)) :
    Split votes (rowsFor votes ballot) where
  distinct := by
    rw [map_rowsFor_optionId]
    exact hballot
  named := by
    intro v hv
    have hkeys : (rowsFor votes ballot).map (·.optionId) = ballot.map (·.1) :=
      map_rowsFor_optionId
    have hmem := hvotes v hv
    rw [← hkeys] at hmem
    exact List.mem_map.1 hmem
  count := by
    intro r hr
    obtain ⟨entry, -, rfl⟩ := List.mem_map.1 hr
    show ((weightsFor votes entry.1).length : Int) = _
    rw [weightsFor, List.length_map]
  weight := by
    intro r hr
    obtain ⟨entry, -, rfl⟩ := List.mem_map.1 hr
    rfl
  totalCount := sum_count_rowsFor hballot hvotes
  totalWeight := sum_weight_rowsFor hballot hvotes

/-- A tally that is returned consists of the rows of the ballot. -/
theorem rows_of_tally {s : Store} {p : Proposal} {rows : List TallyRow}
    (h : tallyOf s p = .ok rows) : rows = rowsFor (s.votesOn p.id) p.ballot := by
  rw [tallyOf] at h
  split at h
  · exact (Except.ok.inj h).symm
  · cases h

end Vote

/-- A tally loses and invents nothing, in every store that a run leads to.
Whenever it is returned, its rows are the ballot, and they split the votes on
the proposal. -/
theorem tally_splits_votes (calls : List Call) (c : Context) (p : Proposal)
    (rows : List TallyRow) (hp : p ∈ (storeAfter calls).proposals)
    (h : (Vote.tally p.id c (World.after {} calls)).1 = .ok rows) :
    p.HasBallot (rows.map fun r => (r.optionId, r.label)) ∧
      Vote.Split ((storeAfter calls).votesOn p.id) rows := by
  have hoptions := (storeAfter_numbered calls).options p hp
  have hfound := (storeAfter_numbered calls).proposal?_of_mem hp
  obtain ⟨x, hx⟩ := (storeAfter_voted calls).bound p hp
  -- The tally reads the row that the identifier finds, which is the given one.
  obtain ⟨q, hq, htally, -⟩ := Vote.tally_ok (Prod.ext h rfl)
  obtain rfl : p = q := Option.some.inj (hfound.symm.trans hq)
  have hvotes : ∀ v ∈ (storeAfter calls).votesOn p.id, v.optionId ∈ p.ballot.map (·.1) :=
    fun v hv => ((storeAfter_voted calls).counted_votesOn hfound hx v hv).option
  rw [Vote.rows_of_tally htally]
  constructor
  · rw [Vote.map_rowsFor_entry]
    exact Proposal.hasBallot hoptions
  · exact Vote.split_rowsFor (Proposal.nodup_ballot hoptions) hvotes

/-- The tally of two votes. -/
theorem tally_splits_votes_of_sample :
    let calls := Sample.opening ++ Sample.voting
    let p := (storeAfter calls).proposals.headD default
    let rows : List TallyRow := [⟨"yes", "yes", 1, 60⟩, ⟨"no", "no", 1, 40⟩]
    (Vote.tally p.id default (World.after {} calls)).1 = .ok rows ∧
      p.HasBallot (rows.map fun r => (r.optionId, r.label)) ∧
      Vote.Split ((storeAfter calls).votesOn p.id) rows :=
  ⟨by decide +kernel,
    tally_splits_votes (Sample.opening ++ Sample.voting) default _ _
      (by decide +kernel) (by decide +kernel)⟩

end VaultGovernance
