import VaultGovernance.Proofs.Entries
import VaultGovernance.Proofs.References

/-!
# VaultGovernance.Proofs.Listing

The list of assets that a distribution pays out.  It is read twice: when the proposal
is made, by a reader that says what is wrong with each entry, and when the proposal is
executed, by a reader that fails.  What the first one accepts goes through its column
unchanged and is read by the second one: distinct identifiers, each of an asset that
was locked in the vault.

`Proposal.Readable` is what remains of this for as long as the proposal is there.
-/

namespace VaultGovernance

/-! ## One list, read twice -/

namespace Distribution

/-- A list that was checked is read from its column on execution, as distinct locked
assets of the vault. -/
theorem check_ok {s : Store} {vaultId : Uuid} {assets : Json}
    (h : check s vaultId assets = .ok ()) :
    ∃ ids, identifiers (Column.document assets) = .ok ids ∧ ids.Nodup ∧
      ∀ id ∈ ids, s.AssetIn vaultId .locked id := by
  obtain ⟨entries, hentries, -⟩ := bind_eq_ok.1 h
  rw [check_eq hentries] at h
  have hempty : badEntries s vaultId entries = [] := by
    by_contra hsome
    rw [if_neg hsome] at h
    cases h
  obtain ⟨ids, hpays⟩ := badEntries_eq_nil_iff.1 hempty
  exact ⟨ids, hpays.identifiers hentries, hpays.nodup, hpays.locked⟩

end Distribution

/-! ## The list of a proposal -/

/-- A new row keeps the list as its column does. -/
theorem Proposal.distributionAssets_of_rowOf {s : Store} {vaultId snapshotId : Uuid} {fee : Int}
    {draft : Draft} {fields : OrderedMap Json} {options : List Ballot.OptionDraft}
    {time : Timestamp} {p : Proposal}
    (h : rowOf s vaultId snapshotId fee draft fields options time = .ok p) :
    p.distributionAssets = Column.document (Payload.value fields Distribution.field) := by
  simp only [rowOf, bind_eq_ok, pure_eq_ok] at h
  obtain ⟨_, -, _, -, _, -, _, -, _, -, rfl⟩ := h
  rfl

/-- What a proposal lists for distribution. -/
def Proposal.listed (p : Proposal) : List Uuid :=
  (Distribution.identifiers p.distributionAssets).toOption.getD []

theorem Proposal.listed_of_identifiers {p : Proposal} {ids : List Uuid}
    (h : Distribution.identifiers p.distributionAssets = .ok ids) : p.listed = ids := by
  rw [listed, h]
  rfl

/-- The list of a proposal is read without failure, as distinct assets of its vault. -/
structure Proposal.Readable (s : Store) (p : Proposal) : Prop where
  read : Distribution.identifiers p.distributionAssets = .ok p.listed
  nodup : p.listed.Nodup
  owned : ∀ id ∈ p.listed, ∃ a, s.asset? id = some a ∧ a.vaultId = p.vaultId

namespace Proposal.Readable

variable {s s' : Store} {p q : Proposal}

/-- A list that was read is read from then on. -/
theorem later (h : p.Readable s) (hbefore : s.Before s') : p.Readable s' where
  read := h.read
  nodup := h.nodup
  owned := by
    intro id hid
    obtain ⟨a, ha, howner⟩ := h.owned id hid
    obtain ⟨a', ha', hf⟩ := hbefore.assets ha
    exact ⟨a', ha', hf.vaultId.trans howner⟩

/-- Later rows of a proposal have the same list. -/
theorem of_follows (h : p.Readable s) (hf : p.Follows q) : q.Readable s := by
  have hlisted : q.listed = p.listed := by rw [listed, listed, hf.distributionAssets]
  constructor
  · rw [hf.distributionAssets, hlisted]
    exact h.read
  · rw [hlisted]
    exact h.nodup
  · rw [hlisted, hf.vaultId]
    exact h.owned

/-- The list of a distribution that is made was checked. -/
theorem of_submitted {c : Context} {v : Vault} {x : Snapshot}
    (h : Proposal.Submitted c s v x p) (htype : p.type = .distribution) : p.Readable s := by
  obtain ⟨draft, fee, fields, options, -, hcheck, -, hrow⟩ := h.row
  obtain ⟨-, howner, -⟩ := h.fields
  obtain ⟨hsame, -⟩ := Proposal.type_status_of_rowOf hrow
  have hcolumn := Proposal.distributionAssets_of_rowOf hrow
  obtain ⟨ids, hread, hnodup, hlocked⟩ := Distribution.check_ok (hcheck (hsame ▸ htype))
  rw [← hcolumn] at hread
  have hlisted := listed_of_identifiers hread
  refine ⟨by rw [hlisted, hread], by rw [hlisted]; exact hnodup, ?_⟩
  rw [hlisted]
  intro id hid
  obtain ⟨a, ha, hvault, -⟩ := hlocked id hid
  exact ⟨a, ha, hvault.trans howner.symm⟩

end Proposal.Readable

/-- Every distribution has a list that can be read. -/
def Store.Listed (s : Store) : Prop :=
  ∀ p ∈ s.proposals, p.type = .distribution → p.Readable s

theorem Change.listed {c : Context} {s s' : Store} (hc : Change c s s') (h : s.Listed) :
    s'.Listed := by
  refine hc.forall_proposals (fun p hp htype => (h p hp htype).later hc.before) ?_ ?_
  · exact fun v x p row htype => (Proposal.Readable.of_submitted row htype).later hc.before
  · intro p q hf hp htype
    exact (hp (hf.type ▸ htype)).of_follows hf

theorem storeAfter_listed (calls : List Call) : (storeAfter calls).Listed :=
  storeAfter_invariant (P := Store.Listed) (by simp [Store.Listed]) (fun _ _ _ h hc => hc.listed h)
    calls

end VaultGovernance
