import VaultGovernance.Http.Representation
import VaultGovernance.Proofs.Counting
import VaultGovernance.Proofs.DistributionCheck
import VaultGovernance.Proofs.Outcome

/-!
# VaultGovernance.Proofs.BallotOrder

The order of a ballot.  A proposal with options of its own keeps every option with the
order that was given for it, or else with its position in the list.  It is shown with
its options by order, and where orders repeat, as they were given.  A tally lists them
by order too, but where orders repeat, by identifier.  So there is one order of the
ballot only where no order repeats, or where the identifiers happen to grow with the
positions.
-/

namespace VaultGovernance

/-! ## What is kept of a submitted option -/

namespace Ballot

/-- An option has the label and the order that the value at a position gives: a plain label
has the order of its position, and so has an object without an order. -/
inductive Given (position : Nat) : Json → VoteOption → Prop
  | plain {o : VoteOption} (order : o.order = position) : Given position (.str o.label) o
  | placed {o : VoteOption} {es : OrderedMap Json} {label : Json}
      (labelled : OrderedMap.get? es "label" = some label)
      (text : Column.textOfJson label = .ok (some o.label))
      (unordered : (OrderedMap.get? es "order").getD .null = .null)
      (order : o.order = position) : Given position (.obj es) o
  | ordered {o : VoteOption} {es : OrderedMap Json} {label order : Json}
      (labelled : OrderedMap.get? es "label" = some label)
      (text : Column.textOfJson label = .ok (some o.label))
      (ordered : OrderedMap.get? es "order" = some order)
      (same : Json.same order (.int o.order) = true) : Given position (.obj es) o

theorem same_int {m n : Int} : Json.same (.int m) (.int n) = true ↔ m = n := by
  simp [Json.same, Json.sameNumber, Json.sameNumber.sameInt]

/-- An integer column keeps nothing of null, and of any other value an integer that is equal
to it. -/
theorem kept_of_integerOfJson {j : Json} {kept : Option Int}
    (h : Column.integerOfJson j = .ok kept) :
    j = .null ∧ kept = none ∨ ∃ n, kept = some n ∧ Json.same j (.int n) = true := by
  have hfits {m : Int} (h : (Column.bigint m).map some = .ok kept) : kept = some m := by
    obtain ⟨k, hk, rfl⟩ := map_eq_ok.1 h
    rw [(Column.bigint_eq_ok_iff.1 hk).2]
  cases j with
  | null => exact .inl ⟨rfl, (Except.ok.inj h).symm⟩
  | bool b =>
      refine .inr ⟨_, (Except.ok.inj h).symm, ?_⟩
      simp [Json.same, Json.sameNumber, Json.sameNumber.sameInt]
  | int m => exact .inr ⟨m, hfits h, same_int.2 rfl⟩
  | float x =>
      rw [Column.integerOfJson] at h
      cases hx : x.toInt? with
      | none => simp [hx] at h
      | some m =>
          simp only [hx] at h
          exact .inr ⟨m, hfits h, by simpa [Json.same, Json.sameNumber] using hx⟩
  | _ => cases h

/-- The store keeps an option as its value says. -/
theorem given_of_readOption {position : Nat} {j : Json} {d : OptionDraft} {order : Option Int}
    {o : VoteOption} (hread : readOption position j = .ok d)
    (horder : Column.integerOfJson d.order = .ok order) (ho : o.order = order.getD 0)
    (hlabel : Column.textOfJson d.label = .ok (some o.label)) : Given position j o := by
  have hposition (h : Column.integerOfJson (.int position) = .ok order) : o.order = position := by
    obtain ⟨hnull, -⟩ | ⟨n, rfl, hn⟩ := kept_of_integerOfJson h
    · cases hnull
    · rw [ho, Option.getD_some, same_int.1 hn]
  cases j with
  | str label =>
      obtain rfl := Except.ok.inj hread
      obtain rfl := Option.some.inj (Except.ok.inj hlabel)
      exact .plain (hposition horder)
  | obj es =>
      rw [readOption] at hread
      cases hfound : OrderedMap.get? es "label" with
      | none => simp [hfound] at hread
      | some label =>
          simp only [hfound] at hread
          obtain rfl := Except.ok.inj hread
          by_cases hnull : ((OrderedMap.get? es "order").getD .null).isNull = true
          · rw [if_pos hnull] at horder
            exact .placed hfound hlabel (Json.isNull_iff.1 hnull) (hposition horder)
          · rw [if_neg hnull] at horder
            obtain ⟨hnone, -⟩ | ⟨n, rfl, hn⟩ := kept_of_integerOfJson horder
            · exact absurd (Json.isNull_iff.2 hnone) hnull
            · cases hgiven : OrderedMap.get? es "order" with
              | none =>
                  rw [hgiven] at hnull
                  exact absurd rfl hnull
              | some given =>
                  rw [hgiven, Option.getD_some] at hn
                  exact .ordered hfound hlabel hgiven (by rw [ho, Option.getD_some, hn])
  | _ => cases hread

/-- Storing options stores the first one and then the others. -/
theorem store_cons_eq_ok {serial : Nat} {d : OptionDraft} {rest : List OptionDraft}
    {options : List VoteOption} (h : store serial (d :: rest) = .ok options) :
    ∃ o tail order, options = o :: tail ∧ store (serial + 1) rest = .ok tail ∧
      Column.integerOfJson d.order = .ok order ∧ o.order = order.getD 0 ∧
      Column.textOfJson d.label = .ok (some o.label) := by
  simp only [store, orders, labels, bind_eq_ok, pure_eq_ok] at h
  obtain ⟨numbers, ⟨order, horder, hnumbers⟩, texts, ⟨text, htext, texts', htexts, rfl⟩,
    required, hrequired, rfl⟩ := h
  simp only [requireLabels, bind_eq_ok, pure_eq_ok, Column.required_eq_ok] at hrequired
  obtain ⟨label, rfl, required', hrequired, rfl⟩ := hrequired
  obtain ⟨numbers', hrest, rfl⟩ : ∃ numbers', orders rest = .ok numbers' ∧
      numbers = order.getD 0 :: numbers' := by
    cases order <;>
      · simp only [bind_eq_ok, pure_eq_ok] at hnumbers
        obtain ⟨numbers', hrest, rfl⟩ := hnumbers
        exact ⟨numbers', hrest, rfl⟩
  refine ⟨⟨.ofSerial serial, label, order.getD 0⟩, rows (serial + 1) required' numbers', order,
    rfl, ?_, horder, rfl, htext⟩
  simp only [store, bind_eq_ok, pure_eq_ok]
  exact ⟨numbers', hrest, texts', htexts, required', hrequired, rfl⟩

/-- The store keeps every option as the value at its position says. -/
theorem given_of_readOptions {position serial : Nat} {items : List Json}
    {drafts : List OptionDraft} {options : List VoteOption}
    (hread : readOptions position items = .ok drafts) (hstore : store serial drafts = .ok options) :
    List.Forall₂ (fun e o => Given e.2 e.1 o) (items.zipIdx position) options := by
  induction items generalizing position serial drafts options with
  | nil =>
      obtain rfl := Except.ok.inj hread
      obtain rfl := Except.ok.inj hstore
      exact .nil
  | cons j rest ih =>
      simp only [readOptions, bind_eq_ok, pure_eq_ok] at hread
      obtain ⟨d, hd, drafts, hdrafts, rfl⟩ := hread
      obtain ⟨o, tail, order, rfl, htail, horder, ho, hlabel⟩ := store_cons_eq_ok hstore
      rw [List.zipIdx_cons]
      exact .cons (given_of_readOption hd horder ho hlabel) (ih hdrafts htail)

/-! ## Two orders -/

/-- A list shows options: each once, by order, and where orders repeat as they were given. -/
structure Shows (options shown : List VoteOption) : Prop where
  perm : shown.Perm options
  sorted : shown.Pairwise fun a b => a.order ≤ b.order
  given : ∀ n, (shown.filter fun o => o.order = n) = options.filter fun o => o.order = n

/-- Where orders repeat, the identifiers grow with the positions. -/
def Ascending (options : List VoteOption) : Prop :=
  options.Pairwise fun a b => a.order = b.order → a.id.value < b.id.value

instance (options : List VoteOption) : Decidable (Ascending options) :=
  inferInstanceAs (Decidable (options.Pairwise _))

/-- What a vote keeps of an option, and its label. -/
def entry (o : VoteOption) : String × String := (o.id.text, o.label)

section Orders

variable {options shown xs ys : List VoteOption}

/-- No condition is left where no order repeats. -/
theorem ascending_of_nodup (h : (options.map VoteOption.order).Nodup) : Ascending options :=
  (List.pairwise_map.1 h).imp fun hne heq => absurd heq hne

/-- What is shown has growing identifiers where the options have them. -/
theorem Shows.ascending_iff (h : Shows options shown) : Ascending shown ↔ Ascending options := by
  -- Two options with one order are in the sublist of that order.
  have hties (xs : List VoteOption) : Ascending xs ↔
      ∀ n, (xs.filter fun o => o.order = n).Pairwise fun a b => a.id.value < b.id.value := by
    simp only [Ascending, List.pairwise_filter, decide_eq_true_eq]
    constructor
    · intro h n
      exact h.imp fun hlt ha hb => hlt (ha.trans hb.symm)
    · intro h
      refine List.pairwise_iff_forall_sublist.2 fun {a b} hab heq => ?_
      exact List.pairwise_iff_forall_sublist.1 (h b.order) hab heq rfl
  rw [hties, hties]
  simp only [h.given]

/-- Options that are told apart are the same in two lists with the same entries. -/
theorem eq_of_map_entry (hnodup : (ys.map VoteOption.id).Nodup) (hperm : xs.Perm ys)
    (h : xs.map entry = ys.map entry) : xs = ys := by
  refine List.ext_getElem hperm.length_eq fun i hi hj => ?_
  have hentry := List.getElem_of_eq h (by rwa [List.length_map])
  rw [List.getElem_map, List.getElem_map] at hentry
  have hid : xs[i].id = ys[i].id := Uuid.text_inj (Prod.mk.inj hentry).1
  exact List.inj_on_of_nodup_map hnodup (hperm.subset (List.getElem_mem hi))
    (List.getElem_mem hj) hid

end Orders

/-- What a proposal shows are its options. -/
theorem shows_shownOptions (p : Proposal) : Shows p.options p.shownOptions := by
  have htrans (a b c : VoteOption) (hab : decide (a.order ≤ b.order) = true)
      (hbc : decide (b.order ≤ c.order) = true) : decide (a.order ≤ c.order) = true := by
    rw [decide_eq_true_iff] at *
    omega
  have htotal (a b : VoteOption) :
      (decide (a.order ≤ b.order) || decide (b.order ≤ a.order)) = true := by
    rw [Bool.or_eq_true, decide_eq_true_iff, decide_eq_true_iff]
    omega
  have hperm : p.shownOptions.Perm p.options := List.mergeSort_perm _ _
  refine ⟨hperm, ?_, fun n => ?_⟩
  · exact (List.pairwise_mergeSort htrans htotal p.options).imp of_decide_eq_true
  · -- The sort is stable, so the options of one order are a sublist of its result.
    have hsame : (p.options.filter fun o => o.order = n).Pairwise fun a b =>
        decide (a.order ≤ b.order) = true := by
      refine List.pairwise_filter.2 (List.pairwise_of_forall fun a b => ?_)
      simp only [decide_eq_true_eq]
      omega
    have hsub : (p.options.filter fun o => o.order = n).Sublist p.shownOptions :=
      List.sublist_mergeSort htrans htotal hsame List.filter_sublist
    have hfilter := hsub.filter fun o => o.order = n
    rw [List.filter_filter] at hfilter
    simp only [Bool.and_self] at hfilter
    exact (hfilter.eq_of_length ((hperm.filter _).length_eq).symm).symm

end Ballot

namespace Proposal

/-- The entries of the ballot in the order in which the options are shown. -/
def shownBallot (p : Proposal) : List (String × String) := p.shownOptions.map Ballot.entry

/-- A proposal whose options have other identifiers. -/
def renamed (p : Proposal) (ids : List Uuid) : Proposal :=
  { p with options := (p.options.zip ids).map fun e => { e.1 with id := e.2 } }

variable {p : Proposal} {ids : List Uuid}

/-- The options are counted in the one order in which they are sorted. -/
theorem countedOptions_eq {options : List VoteOption} (h : (p.options.map VoteOption.id).Nodup)
    (hperm : options.Perm p.options)
    (hsorted : options.Pairwise fun a b => optionLe a b = true) : p.countedOptions = options := by
  have hcounted : p.countedOptions.Perm p.options := List.mergeSort_perm p.options optionLe
  refine List.Perm.eq_of_pairwise ?_ (List.pairwise_mergeSort optionLe_trans optionLe_total _)
    hsorted (hcounted.trans hperm.symm)
  intro a b ha hb hab hba
  rw [optionLe_iff] at hab hba
  have hvalue : a.id.value = b.id.value := by omega
  have hid : a.id = b.id := congrArg Uuid.mk hvalue
  exact List.inj_on_of_nodup_map h (hcounted.subset ha) (hperm.subset hb) hid

/-- The options are counted as they are shown exactly if identifiers grow where orders
repeat. -/
theorem countedOptions_eq_shownOptions_iff (h : (p.options.map VoteOption.id).Nodup) :
    p.countedOptions = p.shownOptions ↔ Ballot.Ascending p.options := by
  have hshows := Ballot.shows_shownOptions p
  rw [← hshows.ascending_iff]
  constructor
  · intro hsame
    rw [← hsame]
    refine (pairwise_countedOptions h).imp fun hlt heq => ?_
    omega
  · intro hascending
    refine countedOptions_eq h hshows.perm ((hshows.sorted.and hascending).imp ?_)
    rintro a b ⟨hle, hlt⟩
    rw [optionLe_iff]
    by_cases heq : a.order = b.order
    · exact .inr ⟨heq, Nat.le_of_lt (hlt heq)⟩
    · exact .inl (by omega)

/-- The ballot is counted as it is shown exactly if identifiers grow where orders repeat. -/
theorem ballot_eq_shownBallot_iff (hcustom : p.hasCustomOptions = true)
    (h : (p.options.map VoteOption.id).Nodup) :
    p.ballot = p.shownBallot ↔ Ballot.Ascending p.options := by
  have hcounted : p.countedOptions.Perm p.options := List.mergeSort_perm p.options optionLe
  have hshown := (Ballot.shows_shownOptions p).perm
  rw [← countedOptions_eq_shownOptions_iff h, ballot, if_pos hcustom, shownBallot]
  constructor
  · exact Ballot.eq_of_map_entry ((hshown.map VoteOption.id).nodup_iff.2 h)
      (hcounted.trans hshown.symm)
  · intro hsame
    rw [hsame]
    rfl

/-- Whatever identifiers the options have, they are counted as they are shown, exactly if no
order repeats. -/
theorem forall_renamed_iff :
    (∀ ids : List Uuid, ids.Nodup → ids.length = p.options.length →
      (p.renamed ids).countedOptions = (p.renamed ids).shownOptions) ↔
    (p.options.map VoteOption.order).Nodup := by
  have hids {ids : List Uuid} (hlength : ids.length = p.options.length) :
      (p.renamed ids).options.map VoteOption.id = ids := by
    rw [renamed, List.map_map]
    exact List.map_snd_zip hlength.le
  have horders {ids : List Uuid} (hlength : ids.length = p.options.length) :
      (p.renamed ids).options.map VoteOption.order = p.options.map VoteOption.order := by
    rw [renamed, List.map_map]
    conv_rhs => rw [← List.map_fst_zip hlength.ge, List.map_map]
    rfl
  constructor
  · -- Under identifiers that fall with the positions, no order may repeat.
    intro h
    let ids := (List.range p.options.length).reverse.map Uuid.mk
    have hlength : ids.length = p.options.length := by simp [ids]
    have hfalling : ids.Pairwise fun a b => b.value < a.value :=
      List.pairwise_map.2 (List.pairwise_reverse.2 List.pairwise_lt_range)
    have hnodup : ids.Nodup := hfalling.imp fun hlt heq => by
      rw [heq] at hlt
      omega
    have hascending := (countedOptions_eq_shownOptions_iff (by rwa [hids hlength])).1
      (h ids hnodup hlength)
    rw [← hids hlength, List.pairwise_map] at hfalling
    rw [← horders hlength]
    refine List.pairwise_map.2 ((hascending.and hfalling).imp ?_)
    rintro a b ⟨hlt, hgt⟩ heq
    have := hlt heq
    omega
  · intro h ids hnodup hlength
    refine (countedOptions_eq_shownOptions_iff (by rwa [hids hlength])).2 ?_
    exact Ballot.ascending_of_nodup (by rwa [horders hlength])

/-! ## From the list to the ballot -/

section Made

variable {c : Context} {w w' : World} {vaultId : Uuid} {draft : Draft} {items : List Json}

/-- The options of a proposal are those of the list that it is made with. -/
theorem given_of_create (given : draft.options = .arr items)
    (made : create vaultId draft c w = (.ok p, w')) :
    List.Forall₂ (fun e o => Ballot.Given e.2 e.1 o) items.zipIdx p.options ∧
      (p.hasCustomOptions = true ↔ items ≠ []) := by
  obtain ⟨-, _, _, _, _, drafts, -, -, -, -, -, -, hread, hrow, -⟩ := create_eq_ok_iff.1 made
  have hitems : Ballot.readOptions 0 items = .ok drafts := by
    rw [given] at hread
    cases items <;> exact hread
  simp only [rowOf, bind_eq_ok, pure_eq_ok] at hrow
  obtain ⟨_, -, _, -, _, -, _, -, rows, hrows, rfl⟩ := hrow
  have hgiven := Ballot.given_of_readOptions hitems hrows
  have hlength : items.length = drafts.length := by
    rw [← Ballot.length_of_store hrows, ← hgiven.length_eq, List.length_zipIdx]
  refine ⟨hgiven, ?_⟩
  rw [← List.length_pos_iff, hlength, List.length_pos_iff]
  simp

/-- A representation lists the options as they are shown. -/
theorem voteOptions_of_representation {es : OrderedMap Json}
    (h : Representation.proposal p = .ok (.obj es)) :
    OrderedMap.get? es "vote_options" =
      some (.arr (p.shownOptions.map Representation.voteOption)) := by
  simp only [Representation.proposal, bind_eq_ok, pure_eq_ok, Json.obj.injEq] at h
  obtain ⟨_, -, _, -, _, -, _, -, _, -, rfl⟩ := h
  rfl

/-- A tally whose weights can be added up lists the ballot. -/
theorem exists_tally {q : Proposal} (hq : w.store.proposal? p.id = some q) (hf : p.Follows q)
    (hsum : Vote.canSum (w.store.votesOn p.id) = true) (c : Context) :
    ∃ rows, (Vote.tally p.id c w).1 = .ok rows ∧
      (rows.map fun r => (r.optionId, r.label)) = p.ballot := by
  refine ⟨Vote.rowsFor (w.store.votesOn p.id) p.ballot, ?_, Vote.map_rowsFor_entry⟩
  rw [Vote.tally_run hq, Vote.tallyOf, hf.id, hf.ballot]
  exact if_pos hsum

end Made

end Proposal

/-- A proposal that is made with a list of options has one option for every value of the list,
in order, with the label of the value and with the order that was given, or else with the
position in the list.  Under every choice of identifiers the options are counted as they are
shown exactly if no order repeats.  After any later calls the proposal is found with the same
options and shown with them by order, and where orders repeat, as they were given.  A tally,
as long as the weights can be added up, lists the same ballot by order and identifier; if the
list is not empty, this is how it is shown exactly if identifiers grow where orders repeat. -/
theorem ballot_shown_and_counted {calls : List Call} {c : Context} {vaultId : Uuid}
    {draft : Proposal.Draft} {items : List Json} {p : Proposal} {w : World}
    (given : draft.options = .arr items)
    (made : Proposal.create vaultId draft c (World.after {} calls) = (.ok p, w)) :
    List.Forall₂ (fun e o => Ballot.Given e.2 e.1 o) items.zipIdx p.options ∧
    ((∀ ids : List Uuid, ids.Nodup → ids.length = p.options.length →
        (p.renamed ids).countedOptions = (p.renamed ids).shownOptions) ↔
      (p.options.map VoteOption.order).Nodup) ∧
    ∀ later : List Call, ∃ q, (w.after later).store.proposal? p.id = some q ∧
      q.options = p.options ∧ Ballot.Shows p.options q.shownOptions ∧
      (∀ es, Representation.proposal q = .ok (.obj es) → OrderedMap.get? es "vote_options" =
        some (.arr (q.shownOptions.map Representation.voteOption))) ∧
      ∀ c' : Context, Vote.canSum ((w.after later).store.votesOn p.id) = true →
        ∃ rows, (Vote.tally p.id c' (w.after later)).1 = .ok rows ∧
          p.HasBallot (rows.map fun r => (r.optionId, r.label)) ∧
          (items ≠ [] → ((rows.map fun r => (r.optionId, r.label)) = q.shownBallot ↔
            Ballot.Ascending p.options)) := by
  obtain ⟨hgiven, hcustom⟩ := Proposal.given_of_create given made
  refine ⟨hgiven, Proposal.forall_renamed_iff, fun later => ?_⟩
  obtain ⟨hnodup, q, hq, hf⟩ := Proposal.follows_of_create made later
  have hoptions : q.options = p.options := by rw [hf.row]
  have hshown : q.shownOptions = p.shownOptions := by
    rw [Proposal.shownOptions, hoptions, Proposal.shownOptions]
  refine ⟨q, hq, hoptions, hshown ▸ Ballot.shows_shownOptions p,
    fun es => Proposal.voteOptions_of_representation, fun c' hsum => ?_⟩
  obtain ⟨rows, htally, hrows⟩ := Proposal.exists_tally hq hf hsum c'
  refine ⟨rows, htally, ?_, fun hitems => ?_⟩
  · rw [hrows]
    exact Proposal.hasBallot hnodup
  · rw [hrows, Proposal.shownBallot, hshown, ← Proposal.shownBallot]
    exact Proposal.ballot_eq_shownBallot_iff (hcustom.2 hitems) hnodup

namespace Sample

/-- A proposal to choose between options. -/
def polling (items : List Json) : Proposal.Draft := { draft with options := .arr items }

/-- Plain labels around an option with an order of its own. -/
def spaced : List Json :=
  [.str "Keep", .obj [("label", .str "Sell"), ("order", .int 5)], .str "Hold"]

/-- The order that is given for the last option is the position of the one before. -/
def colliding : List Json :=
  [.str "Keep", .str "Sell", .obj [("label", .str "Hold"), ("order", .int 1)]]

/-- What making the proposal with a list in the governed vault leads to. -/
def poll (items : List Json) : Except Fault Proposal × World :=
  Proposal.create vaultId (polling items) default (World.after {} governing)

/-- The proposal that was made. -/
def polled (items : List Json) : Proposal := (poll items).2.store.proposals.headD default

theorem poll_of_ok {items : List Json} {p : Proposal} (h : (poll items).1 = .ok p) :
    Proposal.create vaultId (polling items) default (World.after {} governing) =
      (.ok p, (poll items).2) := by
  rw [← h, poll]

end Sample

/-- Of the spaced list the option in the middle is shown and counted last. -/
theorem ballot_shown_and_counted_of_spaced :
    ∃ p w, Proposal.create Sample.vaultId (Sample.polling Sample.spaced) default
        (World.after {} Sample.governing) = (.ok p, w) ∧
      (p.options.map fun o => (o.label, o.order)) = [("Keep", 0), ("Sell", 5), ("Hold", 2)] ∧
      ∃ q rows, w.store.proposal? p.id = some q ∧ (Vote.tally p.id default w).1 = .ok rows ∧
        (rows.map fun r => (r.optionId, r.label)) = q.shownBallot := by
  have hok : (Sample.poll Sample.spaced).1 = .ok (Sample.polled Sample.spaced) := by
    decide +kernel
  have made := Sample.poll_of_ok hok
  obtain ⟨-, -, hlater⟩ := ballot_shown_and_counted rfl made
  obtain ⟨q, hq, -, -, -, htally⟩ := hlater []
  rw [World.after_nil] at hq htally
  obtain ⟨rows, hrows, -, hsame⟩ := htally default (by decide +kernel)
  exact ⟨_, _, made, by decide +kernel, q, rows, hq, hrows,
    (hsame (by decide)).2 (by decide +kernel)⟩

/-- The last two options of the colliding list are shown as they were given, and counted the
other way round. -/
theorem ballot_shown_otherwise_of_collision :
    ∃ p w, Proposal.create Sample.vaultId (Sample.polling Sample.colliding) default
        (World.after {} Sample.governing) = (.ok p, w) ∧
      w.store.proposal? p.id = some p ∧
      p.shownOptions.map VoteOption.label = ["Keep", "Sell", "Hold"] ∧
      ∃ rows, (Vote.tally p.id default w).1 = .ok rows ∧
        rows.map (·.label) = ["Keep", "Hold", "Sell"] := by
  have hok : (Sample.poll Sample.colliding).1 = .ok (Sample.polled Sample.colliding) := by
    decide +kernel
  have hfound : (Sample.poll Sample.colliding).2.store.proposal?
      (Sample.polled Sample.colliding).id = some (Sample.polled Sample.colliding) := by
    decide +kernel
  refine ⟨_, _, Sample.poll_of_ok hok, hfound, ?_, ?_⟩
  · have hshown : (Sample.polled Sample.colliding).shownOptions =
        (Sample.polled Sample.colliding).options :=
      List.mergeSort_of_pairwise (by decide +kernel)
    rw [hshown]
    decide +kernel
  · obtain ⟨rows, htally, hrows⟩ :=
      Proposal.exists_tally hfound (.refl _) (by decide +kernel) default
    refine ⟨rows, htally, ?_⟩
    have hcounted : (Sample.polled Sample.colliding).countedOptions =
        (Sample.polled Sample.colliding).options.take 1 ++
          ((Sample.polled Sample.colliding).options.drop 1).reverse :=
      Proposal.countedOptions_eq (by decide +kernel) (by decide +kernel) (by decide +kernel)
    have hlabels : rows.map (·.label) = (rows.map fun r => (r.optionId, r.label)).map (·.2) := by
      rw [List.map_map]
      rfl
    rw [hlabels, hrows, Proposal.ballot, if_pos (by decide +kernel), hcounted]
    decide +kernel

end VaultGovernance
