import VaultGovernance.Proofs.AssetHistory
import VaultGovernance.Proofs.ProposalHistory
import VaultGovernance.Proofs.StoredPayload
import VaultGovernance.Proofs.VaultHistory

/-!
# VaultGovernance.Proofs.References

What rows refer to.  The store enforces no foreign keys, so an identifier in a row
could name nothing.  The operations look up what a row refers to before they write
it, no row is ever deleted, and stages and statuses lead forward only; so what was
found once is found from then on, in a stage or status that it may have reached by
then.

`Store.Referring` is the invariant that says so for all tables at once.
-/

namespace VaultGovernance

/-! ## Ballots -/

namespace Ballot

theorem length_orders {drafts : List OptionDraft} {numbers : List Int}
    (h : orders drafts = .ok numbers) : numbers.length = drafts.length := by
  induction drafts generalizing numbers with
  | nil =>
      obtain rfl := Except.ok.inj h
      rfl
  | cons d rest ih =>
      rw [orders, bind_eq_ok] at h
      obtain ⟨n, -, h⟩ := h
      cases n <;>
        · simp only [bind_eq_ok, pure_eq_ok] at h
          obtain ⟨tail, htail, rfl⟩ := h
          rw [List.length_cons, List.length_cons, ih htail]

theorem length_labels {drafts : List OptionDraft} {texts : List (Option String)}
    (h : labels drafts = .ok texts) : texts.length = drafts.length := by
  induction drafts generalizing texts with
  | nil =>
      obtain rfl := Except.ok.inj h
      rfl
  | cons d rest ih =>
      simp only [labels, bind_eq_ok, pure_eq_ok] at h
      obtain ⟨t, -, tail, htail, rfl⟩ := h
      rw [List.length_cons, List.length_cons, ih htail]

theorem length_requireLabels {texts : List (Option String)} {required : List String}
    (h : requireLabels texts = .ok required) : required.length = texts.length := by
  induction texts generalizing required with
  | nil =>
      obtain rfl := Except.ok.inj h
      rfl
  | cons t rest ih =>
      simp only [requireLabels, bind_eq_ok, pure_eq_ok] at h
      obtain ⟨l, -, tail, htail, rfl⟩ := h
      rw [List.length_cons, List.length_cons, ih htail]

theorem length_rows {serial : Nat} {labels : List String} {orders : List Int}
    (h : labels.length = orders.length) : (rows serial labels orders).length = labels.length := by
  induction labels generalizing serial orders with
  | nil => rfl
  | cons label labels ih =>
      cases orders with
      | nil => cases h
      | cons order orders =>
          rw [rows, List.length_cons, List.length_cons, ih (Nat.succ.inj h)]

/-- The store keeps a row of every option that was submitted. -/
theorem length_of_store {serial : Nat} {drafts : List OptionDraft} {options : List VoteOption}
    (h : store serial drafts = .ok options) : options.length = drafts.length := by
  simp only [store, bind_eq_ok, pure_eq_ok] at h
  obtain ⟨numbers, hnumbers, texts, htexts, required, hrequired, rfl⟩ := h
  have hlabels : required.length = drafts.length :=
    (length_requireLabels hrequired).trans (length_labels htexts)
  rw [length_rows (hlabels.trans (length_orders hnumbers).symm), hlabels]

end Ballot

/-- A proposal that is made has option rows exactly when its ballot is its own. -/
theorem Proposal.Submitted.options_ne_nil_iff {c : Context} {s : Store} {v : Vault}
    {x : Snapshot} {p : Proposal} (h : Submitted c s v x p) :
    p.options ≠ [] ↔ p.hasCustomOptions = true := by
  obtain ⟨-, -, -, -, drafts, hoptions, hcustom⟩ := h.fields
  rw [hcustom, ← List.length_pos_iff, Ballot.length_of_store hoptions, List.length_pos_iff]
  simp

/-! ## Stages and statuses from some point on -/

/-- The stages of a vault that is or was governed. -/
def VaultStage.governed : List VaultStage := [locked, terminating, terminated]

theorem VaultStage.governed_of_mem_next (a b : VaultStage) (ha : a ∈ governed)
    (h : b ∈ a.next) : b ∈ governed := by
  cases a <;> cases b <;> revert ha h <;> decide

/-- The statuses of a proposal on which votes were possible. -/
def ProposalStatus.opened : List ProposalStatus := [active, passed, rejected, executed]

theorem ProposalStatus.opened_of_mem_next (a b : ProposalStatus) (ha : a ∈ opened)
    (h : b ∈ a.next) : b ∈ opened := by
  cases a <;> cases b <;> revert ha h <;> decide

/-! ## The invariant -/

/-- What every row refers to is there.  The vault of a proposal has been locked, the
snapshot of a proposal belongs to the same vault, and voting was opened on a proposal
that has votes.  A proposal has the payload columns of its type, and option rows
exactly for a ballot of its own. -/
structure Store.Referring (s : Store) : Prop where
  assets : ∀ a ∈ s.assets, ∃ v, s.vault? a.vaultId = some v
  snapshots : ∀ x ∈ s.snapshots, ∃ v, s.vault? x.vaultId = some v
  proposals : ∀ p ∈ s.proposals, ∃ v, s.vault? p.vaultId = some v ∧ v.stage ∈ VaultStage.governed
  bound : ∀ p ∈ s.proposals, ∃ x, s.snapshotOf? p = some x ∧ x.vaultId = p.vaultId
  payload : ∀ p ∈ s.proposals, p.FitsType
  options : ∀ p ∈ s.proposals, p.options ≠ [] ↔ p.hasCustomOptions = true
  votes : ∀ v ∈ s.votes, ∃ p, s.proposal? v.proposalId = some p ∧
    p.status ∈ ProposalStatus.opened

theorem Store.Referring.empty : Referring {} := by
  constructor <;> simp

namespace Store.Before

variable {s s' : Store} {id : Uuid}

/-- A vault that is found is found later. -/
theorem found (h : s.Before s') (hv : ∃ v, s.vault? id = some v) :
    ∃ v, s'.vault? id = some v := by
  obtain ⟨v, hv⟩ := hv
  obtain ⟨v', hv', -⟩ := h.vaults hv
  exact ⟨v', hv'⟩

/-- A vault that has been locked remains one that has been. -/
theorem governed (h : s.Before s')
    (hv : ∃ v, s.vault? id = some v ∧ v.stage ∈ VaultStage.governed) :
    ∃ v, s'.vault? id = some v ∧ v.stage ∈ VaultStage.governed := by
  obtain ⟨v, hv, hstage⟩ := hv
  obtain ⟨v', hv', hf⟩ := h.vaults hv
  exact ⟨v', hv', hf.stage.closed VaultStage.governed_of_mem_next hstage⟩

/-- A proposal on which voting was opened remains one. -/
theorem opened (h : s.Before s')
    (hp : ∃ p, s.proposal? id = some p ∧ p.status ∈ ProposalStatus.opened) :
    ∃ p, s'.proposal? id = some p ∧ p.status ∈ ProposalStatus.opened := by
  obtain ⟨p, hp, hstatus⟩ := hp
  obtain ⟨q, hq, hf⟩ := h.proposals hp
  exact ⟨q, hq, hf.status.closed ProposalStatus.opened_of_mem_next hstatus⟩

end Store.Before

namespace Change

variable {c : Context} {s s' : Store}

/-- What new proposals have, and what later rows of a proposal keep, all proposals
have. -/
theorem forall_proposals {P : Proposal → Prop} (hc : Change c s s')
    (hold : ∀ p ∈ s.proposals, P p) (hnew : ∀ v x p, Proposal.Submitted c s v x p → P p)
    (hkept : ∀ p q, p.Follows q → P p → P q) : ∀ p ∈ s'.proposals, P p := by
  obtain ⟨op, hop⟩ := hc
  refine hop.proposals.forall_mem hold ?_ ?_
  · rintro p ⟨v, x, draft, -, row⟩
    exact hnew v x p row
  · rintro p q (rfl | ⟨-, s₁, moved⟩) hp
    · exact hp
    · exact hkept p q (.of_moved moved) hp

/-- Every change keeps what rows refer to. -/
theorem referring (hc : Change c s s') (hs : s.Numbered) (h : s.Referring) : s'.Referring where
  assets := by
    intro a' ha'
    rcases hc.assets.mem (hc.numbered hs) ha' with hnew | ⟨a, ha, hstep⟩
    · exact hc.before.found hnew.vault
    · rw [hstep.follows.vaultId]
      exact hc.before.found (h.assets a ha)
  snapshots := by
    rcases hc.snapshots with hsame | ⟨v, assetId, balances, texts, hv, -, rfl⟩
    · rw [hsame]
      exact fun x hx => hc.before.found (h.snapshots x hx)
    · intro x hx
      cases mem_added hx with
      | inl hold => exact hc.before.found (h.snapshots x hold)
      | inr hnew =>
          rw [hnew]
          exact ⟨v, hv⟩
  proposals := by
    refine hc.forall_proposals (fun p hp => hc.before.governed (h.proposals p hp)) ?_ ?_
    · intro v x p row
      obtain ⟨-, howner, -⟩ := row.fields
      rw [howner]
      exact hc.before.governed ⟨v, row.vault, by rw [row.governed]; decide⟩
    · intro p q hf hp
      rw [hf.vaultId]
      exact hp
  bound := by
    refine hc.forall_proposals ?_ ?_ ?_
    · intro p hp
      obtain ⟨x, hx, howner⟩ := h.bound p hp
      exact ⟨x, hc.before.snapshotOf? (.refl p) hx, howner⟩
    · intro v x p row
      obtain ⟨-, howner, -⟩ := row.fields
      have hx := List.mem_filter.1 (Snapshot.mem_of_latestOf row.latest)
      have hfound : s.snapshotOf? p = some x := row.snapshot hs
      exact ⟨x, hc.before.snapshotOf? (.refl p) hfound,
        (of_decide_eq_true hx.2).trans howner.symm⟩
    · intro p q hf hp
      obtain ⟨x, hx, howner⟩ := hp
      refine ⟨x, ?_, by rw [howner, hf.vaultId]⟩
      rw [Store.snapshotOf?, hf.snapshotId]
      exact hx
  payload := hc.forall_proposals h.payload (fun _ _ _ row => row.fitsType)
    fun _ _ hf hp => hf.fitsType hp
  options := by
    refine hc.forall_proposals h.options (fun _ _ _ row => row.options_ne_nil_iff) ?_
    intro p q hf hp
    rw [hf.row]
    exact hp
  votes := by
    rcases hc.votes with hsame | ⟨p, u, hp, htaken, rfl⟩
    · rw [hsame]
      exact fun v hv => hc.before.opened (h.votes v hv)
    · intro v hv
      cases mem_added hv with
      | inl hold => exact hc.before.opened (h.votes v hold)
      | inr hnew =>
          rw [hnew, htaken.proposal]
          exact hc.before.opened ⟨p, hp, by rw [htaken.active]; decide⟩

end Change

/-- References stay intact in every world that calls lead to from one where they
are. -/
theorem World.after_referring {w : World} (hnumbered : w.store.Numbered)
    (hreferring : w.store.Referring) (calls : List Call) :
    (w.after calls).store.Numbered ∧ (w.after calls).store.Referring :=
  after_numbered_invariant hnumbered hreferring (fun _ _ _ hs h hc => hc.referring hs h) calls

/-- References are intact in every store that a run leads to, although the store does
not enforce them.  The vault of every asset and of every snapshot is there.  The vault
of every proposal is there and is locked, terminating or terminated, and the proposal
is bound to a snapshot of that vault.  Its populated payload columns include those
that its type requires and no others than its type allows, and it has option rows
exactly when its ballot is its own.  Every vote is on a proposal that is there and is
active, passed, rejected or executed. -/
theorem references_intact (calls : List Call) : (storeAfter calls).Referring :=
  (World.after_referring .empty .empty calls).2

/-- A run that leaves rows in every table that refers to another. -/
theorem references_intact_of_sample :
    let s := storeAfter (Sample.opening ++ Sample.voting)
    s.assets ≠ [] ∧ s.snapshots ≠ [] ∧ s.proposals ≠ [] ∧ s.votes ≠ [] ∧ s.Referring :=
  ⟨by decide +kernel, by decide +kernel, by decide +kernel, by decide +kernel,
    references_intact (Sample.opening ++ Sample.voting)⟩

end VaultGovernance
