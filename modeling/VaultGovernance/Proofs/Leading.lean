import VaultGovernance.Proofs.Closing

/-!
# VaultGovernance.Proofs.Leading

Who leads a tally.  A row leads if it has a positive weight and every other row, repeated ones
included, has less (`TallyRow.Leads`); the search finds just such a row.  The rows of a ballot
of one's own are its options, so such a proposal passes only if one of its options leads
(`Proposal.LedBy`), and is rejected on a tie or an empty ballot.
-/

namespace VaultGovernance

/-! ## The search -/

namespace TallyRow

variable {rows rows' : List TallyRow} {r : TallyRow}

/-- A row leads: it has a positive weight, and the rows at all other positions weigh less. -/
def Leads (rows : List TallyRow) (r : TallyRow) : Prop :=
  ∃ i, rows[i]? = some r ∧ 0 < r.weight ∧ ∀ other ∈ rows.eraseIdx i, other.weight < r.weight

/-- The largest weight is the least bound of all weights that is not negative. -/
theorem topWeight_le_iff {bound : Int} :
    topWeight rows ≤ bound ↔ 0 ≤ bound ∧ ∀ r ∈ rows, r.weight ≤ bound := by
  have hfrom (start : Int) : rows.foldl (fun top r => max top r.weight) start ≤ bound ↔
      start ≤ bound ∧ ∀ r ∈ rows, r.weight ≤ bound := by
    induction rows generalizing start with
    | nil => simp
    | cons r rows ih => rw [List.foldl_cons, ih, max_le_iff, List.forall_mem_cons, and_assoc]
  exact hfrom 0

theorem weight_le_topWeight (h : r ∈ rows) : r.weight ≤ topWeight rows :=
  (topWeight_le_iff.1 le_rfl).2 r h

/-- The rows that share the largest weight, if it is positive. -/
theorem filter_voted : ((voted rows).filter fun r => r.weight = topWeight rows) =
    rows.filter fun r => r.weight = topWeight rows ∧ 0 < r.weight := by
  rw [voted, List.filter_filter]
  refine List.filter_congr fun r _ => ?_
  rw [Bool.decide_and]

/-- A row is found if it is the only one of the largest weight. -/
theorem leading?_eq_some_iff : leading? rows = some r ↔
    (rows.filter fun r => r.weight = topWeight rows ∧ 0 < r.weight) = [r] := by
  rw [leading?, ← filter_voted]
  split <;> simp_all

/-- Of rows around one that leads, it is found. -/
theorem leading?_of_split {before after : List TallyRow} (hpos : 0 < r.weight)
    (hless : ∀ other ∈ before ++ after, other.weight < r.weight) :
    leading? (before ++ r :: after) = some r := by
  have htop : topWeight (before ++ r :: after) = r.weight := by
    refine le_antisymm (topWeight_le_iff.2 ⟨hpos.le, ?_⟩) (weight_le_topWeight (by simp))
    intro other hother
    rcases List.mem_append.1 hother with h | h
    · exact (hless other (List.mem_append_left _ h)).le
    · rcases List.mem_cons.1 h with rfl | h
      · exact le_rfl
      · exact (hless other (List.mem_append_right _ h)).le
  have hnone (part : List TallyRow) (hpart : ∀ other ∈ part, other.weight < r.weight) :
      (part.filter fun other => other.weight = r.weight ∧ 0 < other.weight) = [] := by
    rw [List.filter_eq_nil_iff]
    intro other hother
    simp [(hpart other hother).ne]
  rw [leading?_eq_some_iff, htop, List.filter_append, List.filter_cons_of_pos (by simpa using hpos),
    hnone before fun other h => hless other (List.mem_append_left _ h),
    hnone after fun other h => hless other (List.mem_append_right _ h), List.nil_append]

/-- What is found splits the rows into those before it and those after it, which all weigh
less. -/
theorem split_of_leading? (h : leading? rows = some r) :
    ∃ before after, rows = before ++ r :: after ∧ 0 < r.weight ∧
      ∀ other ∈ before ++ after, other.weight < r.weight := by
  obtain ⟨before, after, hrows, hbefore, hr, hafter⟩ :=
    List.filter_eq_cons_iff.1 (leading?_eq_some_iff.1 h)
  obtain ⟨htop, hpos⟩ := of_decide_eq_true hr
  refine ⟨before, after, hrows, hpos, fun other hother => ?_⟩
  have hmem : other ∈ rows := by
    rw [hrows]
    rcases List.mem_append.1 hother with h | h <;> simp [h]
  have hle : other.weight ≤ r.weight := htop ▸ weight_le_topWeight hmem
  refine lt_of_le_of_ne hle fun heq => ?_
  -- A second row of this weight would have been kept as well.
  have hkept : other.weight = topWeight rows ∧ 0 < other.weight := by
    rw [heq]
    exact ⟨htop, hpos⟩
  rcases List.mem_append.1 hother with h | h
  · exact hbefore other h (decide_eq_true hkept)
  · rw [List.filter_eq_nil_iff] at hafter
    exact hafter other h (decide_eq_true hkept)

/-- The row that is found is the one that leads. -/
theorem leading?_eq_some_iff_leads : leading? rows = some r ↔ Leads rows r := by
  constructor
  · intro h
    obtain ⟨before, after, rfl, hpos, hless⟩ := split_of_leading? h
    refine ⟨before.length, by simp, hpos, ?_⟩
    rw [List.eraseIdx_append_of_length_le (Nat.le_refl _), Nat.sub_self]
    exact hless
  · rintro ⟨i, hi, hpos, hless⟩
    obtain ⟨hlt, hget⟩ := List.getElem?_eq_some_iff.1 hi
    rw [List.eraseIdx_eq_take_drop_succ] at hless
    have hrows : rows = rows.take i ++ r :: rows.drop (i + 1) := by
      rw [← hget, List.getElem_cons_drop, List.take_append_drop]
    rw [hrows]
    exact leading?_of_split hpos hless

/-- Whether a row leads does not depend on the order of the rows. -/
theorem leads_iff_perm : Leads rows r ↔ ∃ rest, rows.Perm (r :: rest) ∧ 0 < r.weight ∧
    ∀ other ∈ rest, other.weight < r.weight := by
  constructor
  · rintro ⟨i, hi, hpos, hless⟩
    obtain ⟨hlt, rfl⟩ := List.getElem?_eq_some_iff.1 hi
    exact ⟨rows.eraseIdx i, (List.getElem_cons_eraseIdx_perm hlt).symm, hpos, hless⟩
  · rintro ⟨rest, hperm, hpos, hless⟩
    obtain ⟨i, hlt, rfl⟩ := List.getElem_of_mem (hperm.mem_iff.2 List.mem_cons_self)
    have hrest : (rows.eraseIdx i).Perm rest :=
      ((List.getElem_cons_eraseIdx_perm hlt).trans hperm).cons_inv
    exact ⟨i, List.getElem?_eq_getElem hlt, hpos, fun other h => hless other (hrest.mem_iff.1 h)⟩

/-- The search finds the same row in any order. -/
theorem leading?_perm (h : rows.Perm rows') : leading? rows = leading? rows' := by
  refine Option.ext fun r => ?_
  rw [leading?_eq_some_iff_leads, leading?_eq_some_iff_leads, leads_iff_perm, leads_iff_perm]
  constructor
  · rintro ⟨rest, hperm, hless⟩
    exact ⟨rest, h.symm.trans hperm, hless⟩
  · rintro ⟨rest, hperm, hless⟩
    exact ⟨rest, h.trans hperm, hless⟩

end TallyRow

/-! ## The options of a proposal -/

namespace Proposal

variable {s : Store} {p : Proposal}

/-- The weight of the votes for an option. -/
def optionWeight (p : Proposal) (s : Store) (o : VoteOption) : Int :=
  (Vote.weightsFor (s.votesOn p.id) o.id.text).sum

/-- An option leads the votes on a proposal: the votes for it weigh something, and more than
those for every other option. -/
structure LedBy (p : Proposal) (s : Store) (o : VoteOption) : Prop where
  option : o ∈ p.options
  positive : 0 < p.optionWeight s o
  ahead : ∀ other ∈ p.options, other ≠ o → p.optionWeight s other < p.optionWeight s o

/-- A row that leads is that of an option that leads. -/
theorem ledBy_of_leads {r : TallyRow} (hcustom : p.hasCustomOptions = true)
    (h : TallyRow.Leads (Vote.rowsFor (s.votesOn p.id) p.ballot) r) : ∃ o, p.LedBy s o := by
  have hperm : p.countedOptions.Perm p.options := List.mergeSort_perm p.options optionLe
  rw [ballot, if_pos hcustom, Vote.rowsFor, List.map_map] at h
  obtain ⟨i, hi, hpos, hless⟩ := h
  rw [List.getElem?_map] at hi
  obtain ⟨o, ho, rfl⟩ := Option.map_eq_some_iff.1 hi
  refine ⟨o, hperm.mem_iff.1 (List.mem_of_getElem? ho), hpos, fun other hother hne => ?_⟩
  have hrest : other ∈ p.countedOptions.eraseIdx i := by
    obtain ⟨j, hj, rfl⟩ := List.getElem_of_mem (hperm.mem_iff.2 hother)
    refine List.mem_eraseIdx_iff_getElem.2 ⟨j, hj, fun hsame => hne ?_, rfl⟩
    subst hsame
    exact Option.some.inj ((List.getElem?_eq_getElem hj).symm.trans ho)
  rw [List.eraseIdx_map] at hless
  exact hless _ (List.mem_map_of_mem hrest)

/-- A ballot of one's own passes only if a row leads. -/
theorem leads_of_passesCustom {rows : List TallyRow} {threshold : Threshold} {power : Option Int}
    (h : passesCustom rows threshold power = .ok true) : ∃ r, TallyRow.Leads rows r := by
  rw [passesCustom] at h
  obtain ⟨_, -, h⟩ := bind_eq_ok.1 h
  cases hleading : TallyRow.leading? rows with
  | none => simp [hleading, pure_eq_ok] at h
  | some r => exact ⟨r, TallyRow.leading?_eq_some_iff_leads.1 hleading⟩

/-- A proposal with options of its own passes only if one of them leads. -/
theorem ledBy_of_decide {c : Configuration} {v : Vault} {result : Option VoteResult}
    (hcustom : p.hasCustomOptions = true) (h : p.decide c s v = .ok (true, result)) :
    ∃ o, p.LedBy s o := by
  rw [decide] at h
  obtain ⟨rows, htally, h⟩ := bind_eq_ok.1 h
  obtain ⟨power, -, h⟩ := bind_eq_ok.1 h
  rw [if_pos hcustom] at h
  obtain ⟨passed, hpasses, h⟩ := bind_eq_ok.1 h
  rw [pure_eq_ok, Prod.mk.injEq] at h
  obtain ⟨r, hr⟩ := leads_of_passesCustom (h.1 ▸ hpasses)
  rw [Vote.rows_of_tally htally] at hr
  exact ledBy_of_leads hcustom hr

/-- No option leads an empty ballot. -/
theorem not_ledBy_of_no_votes (h : s.votesOn p.id = []) (o : VoteOption) : ¬ p.LedBy s o := by
  intro hled
  have hpos := hled.positive
  rw [optionWeight, h] at hpos
  exact lt_irrefl _ hpos

/-- No option leads if two others share the lead. -/
theorem not_ledBy_of_tie {a b : VoteOption} (ha : a ∈ p.options) (hb : b ∈ p.options)
    (hne : a ≠ b) (htie : p.optionWeight s a = p.optionWeight s b)
    (htop : ∀ o ∈ p.options, p.optionWeight s o ≤ p.optionWeight s a) (o : VoteOption) :
    ¬ p.LedBy s o := by
  intro hled
  have hle := htop o hled.option
  by_cases hsame : a = o
  · have hlt := hled.ahead b hb (hsame ▸ hne.symm)
    rw [← htie, ← hsame] at hlt
    exact lt_irrefl _ hlt
  · exact (hled.ahead a ha hsame).not_ge hle

/-- Closing the voting on an active proposal with options of its own stores it as passed, and
then one of them leads, or as rejected. -/
theorem ledBy_of_finalize {c : Context} {w w' : World} {v : Vault} {q : Proposal}
    {result : Option VoteResult} (hp : w.store.proposal? p.id = some p)
    (hactive : p.status = .active) (hcustom : p.hasCustomOptions = true)
    (hv : w.store.vault? p.vaultId = some v)
    (h : finalize p.id c w = (.ok (q, result), w')) :
    w'.store.proposal? p.id = some q ∧
      (q.status = .passed ∧ (∃ o, p.LedBy w.store o) ∨ q.status = .rejected) := by
  cases hdecision : p.decide c.configuration w.store v with
  | error e =>
      rw [finalize_of_decide_error hp hactive hv hdecision] at h
      cases h
  | ok decision =>
      obtain ⟨passed, result'⟩ := decision
      rw [finalize_of_decide_ok hp hactive hv hdecision] at h
      obtain ⟨hr, rfl⟩ := Prod.mk.inj h
      obtain ⟨rfl, rfl⟩ := Prod.mk.inj (Except.ok.inj hr)
      have hid : p.id = (p.closed passed c.now).id := rfl
      refine ⟨by rw [Store.proposal?_putProposal, if_pos hid, hp, Option.map_some], ?_⟩
      cases passed with
      | true => exact .inl ⟨rfl, ledBy_of_decide hcustom hdecision⟩
      | false => exact .inr rfl

end Proposal

/-- The leading row is the one with more weight than all others, and a ballot of one's own
passes only with an option that leads.  The search returns a row exactly if it has a positive
weight and the rows at all other positions have less, returns none exactly if there is no such
row, and does not depend on the order of the rows.  An active proposal with options of its own
whose voting is closed after any run passes only if the votes for one option weigh something
and more than those for every other; so it is rejected if nobody voted and if options share the
lead. -/
theorem leading_decides :
    (∀ rows r, TallyRow.leading? rows = some r ↔ TallyRow.Leads rows r) ∧
    (∀ rows, TallyRow.leading? rows = none ↔ ∀ r, ¬ TallyRow.Leads rows r) ∧
    (∀ rows rows', rows.Perm rows' → TallyRow.leading? rows = TallyRow.leading? rows') ∧
    ∀ (calls : List Call) (c : Context) (p : Proposal) (w' : World) (q : Proposal)
      (result : Option VoteResult), p ∈ (storeAfter calls).proposals → p.status = .active →
      p.hasCustomOptions = true →
      Proposal.finalize p.id c (World.after {} calls) = (.ok (q, result), w') →
      w'.store.proposal? p.id = some q ∧
      (q.status = .passed → ∃ o, p.LedBy (storeAfter calls) o) ∧
      ((∀ o, ¬ p.LedBy (storeAfter calls) o) → q.status = .rejected) ∧
      ((storeAfter calls).votesOn p.id = [] → q.status = .rejected) ∧
      ∀ a ∈ p.options, ∀ b ∈ p.options, a ≠ b →
        p.optionWeight (storeAfter calls) a = p.optionWeight (storeAfter calls) b →
        (∀ o ∈ p.options,
          p.optionWeight (storeAfter calls) o ≤ p.optionWeight (storeAfter calls) a) →
        q.status = .rejected := by
  refine ⟨fun rows r => TallyRow.leading?_eq_some_iff_leads, fun rows => ?_,
    fun rows rows' => TallyRow.leading?_perm, ?_⟩
  · simp only [Option.eq_none_iff_forall_ne_some, ne_eq, TallyRow.leading?_eq_some_iff_leads]
  · intro calls c p w' q result hp hactive hcustom hfinalize
    obtain ⟨v, hv⟩ := storeAfter_governed calls p hp
    obtain ⟨hstored, hstatus⟩ := Proposal.ledBy_of_finalize
      ((storeAfter_numbered calls).proposal?_of_mem hp) hactive hcustom hv hfinalize
    have hpassed : q.status = .passed → ∃ o, p.LedBy (storeAfter calls) o := by
      intro h
      rcases hstatus with ⟨-, hled⟩ | hrejected
      · exact hled
      · cases h.symm.trans hrejected
    have hrejected : (∀ o, ¬ p.LedBy (storeAfter calls) o) → q.status = .rejected := by
      intro hnone
      rcases hstatus with ⟨-, o, hled⟩ | hrejected
      · exact absurd hled (hnone o)
      · exact hrejected
    refine ⟨hstored, hpassed, hrejected, fun hempty => ?_, fun a ha b hb hne htie htop => ?_⟩
    · exact hrejected (Proposal.not_ledBy_of_no_votes hempty)
    · exact hrejected (Proposal.not_ledBy_of_tie ha hb hne htie htop)

namespace Sample

/-- A vault is locked and a proposal with two options of its own is opened for voting. -/
def contest : List Call :=
  opening.take 10 ++
    [call 11 (.createProposal vaultId
      { draft with options := .arr [.str "Keep", .str "Sell"] })] ++
    opening.drop 11

/-- Each member votes for an option. -/
def contested (alice bob : Nat) : List Call :=
  [call 14 (.castVote proposalId (some "Alice") (.str (Uuid.ofSerial alice).text) (some "alice")),
    call 15 (.castVote proposalId (some "Bob") (.str (Uuid.ofSerial bob).text) (some "bob"))]

end Sample

/-- An option with sixty votes against forty leads, and the proposal passes. -/
theorem leading_decides_of_contest :
    let calls := Sample.contest ++ Sample.contested 5 6
    let p := (storeAfter calls).proposals.headD default
    ∃ q result w', Proposal.finalize p.id default (World.after {} calls) = (.ok (q, result), w') ∧
      q.status = .passed ∧ ∃ o, p.LedBy (storeAfter calls) o := by
  intro calls p
  have hmem : p ∈ (storeAfter calls).proposals := by decide +kernel
  have hactive : p.status = .active := by decide +kernel
  have hcustom : p.hasCustomOptions = true := by decide +kernel
  have hsorted : p.countedOptions = p.options := List.mergeSort_of_pairwise (by decide +kernel)
  have hdecision : p.decide (default : Context).configuration (storeAfter calls)
      ((storeAfter calls).vaults.headD default) = .ok (true, none) := by
    have hsum : Vote.canSum ((storeAfter calls).votesOn p.id) = true := by decide +kernel
    rw [Proposal.decide, Vote.tallyOf, if_pos hsum, Proposal.ballot, if_pos hcustom, hsorted]
    decide +kernel
  have hfinalize := Proposal.finalize_of_decide_ok
    ((storeAfter_numbered calls).proposal?_of_mem hmem) hactive
    (by decide +kernel) hdecision
  obtain ⟨-, -, -, hcloses⟩ := leading_decides
  obtain ⟨-, hled, -⟩ := hcloses calls default p _ _ _ hmem hactive hcustom hfinalize
  exact ⟨_, _, _, hfinalize, rfl, hled rfl⟩

end VaultGovernance
