import VaultGovernance.Proofs.Change.Ledger

/-!
# VaultGovernance.Proofs.Change.Governance

Operations on snapshots, proposals and votes, read off their results.
-/

namespace VaultGovernance

open VaultGovernance.Action

variable {c : Context} {w w' : World}

/-! ## Snapshots -/

namespace Snapshot

/-- Only a vault in the locked stage is governed. -/
theorem governedVault_andThen_eq_ok {α : Type} {vaultId : Uuid} {reason : String}
    {f : Vault → Action α} {b : α} :
    (governedVault vaultId reason).andThen f c w = (.ok b, w') ↔
      ∃ v, w.store.vault? vaultId = some v ∧ v.stage = .locked ∧ f v c w = (.ok b, w') := by
  rw [governedVault, bind_eq, andThen_assoc, Vault.find_andThen_eq_ok]
  constructor
  · rintro ⟨v, hv, h⟩
    by_cases hs : v.stage = .locked
    · rw [if_pos hs] at h
      exact ⟨v, hv, hs, h⟩
    · rw [if_neg hs] at h
      simp [Vault.refuseStage, andThen] at h
  · rintro ⟨v, hv, hs, h⟩
    refine ⟨v, hv, ?_⟩
    rw [if_pos hs]
    exact h

theorem governedVault_run {v : Vault} (hv : w.store.vault? v.id = some v)
    (governed : v.stage = .locked) (reason : String) :
    governedVault v.id reason c w = (.ok v, w) := by
  rw [← andThen_done (governedVault v.id reason)]
  exact governedVault_andThen_eq_ok.2 ⟨v, hv, governed, rfl⟩

/-- A recorded snapshot holds the balances in canonical form. -/
theorem create_ok {vaultId : Uuid} {assetId : Option String} {balances : OrderedMap Json}
    {x : Snapshot} (h : create vaultId assetId balances c w = (.ok x, w')) :
    ∃ v texts assetId, w.store.vault? vaultId = some v ∧ v.stage = .locked ∧
      normalizeBalances balances = .ok texts ∧
      w'.store = w.store.addSnapshot
        ⟨w.store.nextId, v.id, assetId, balanceDocument texts, c.now⟩ := by
  simp only [create, bind_eq, governedVault_andThen_eq_ok, ofExcept_andThen_eq_ok, store_andThen,
    now_andThen, modify_andThen, done_eq_ok] at h
  obtain ⟨v, hv, hs, texts, htexts, assetId, -, -, rfl⟩ := h
  exact ⟨v, texts, assetId, hv, hs, htexts, rfl⟩

theorem latest_andThen {α : Type} {vaultId : Uuid} {f : Option Snapshot → Action α} :
    (latest vaultId).andThen f c w = f (latestOf (w.store.snapshotsOf vaultId)) c w := rfl

theorem latest_ok {vaultId : Uuid} {x : Option Snapshot}
    (h : latest vaultId c w = (.ok x, w')) : w = w' := by
  simp only [latest, bind_eq, store_andThen, done_eq_ok] at h
  exact h.2

theorem list_ok {vaultId : Uuid} {xs : List Snapshot}
    (h : list vaultId c w = (.ok xs, w')) : w = w' := by
  simp only [list, bind_eq, Vault.find_andThen_eq_ok, store_andThen, done_eq_ok] at h
  obtain ⟨_, -, -, hw⟩ := h
  exact hw

end Snapshot

/-! ## Settings, as far as proposals read them -/

namespace Settings

theorem stored_andThen {α : Type} {f : OrderedMap Json → Action α} :
    stored.andThen f c w = f (match w.store.settings with
      | some row => row.data.entries
      | none => []) c w := by
  simp only [stored, bind_eq, andThen_assoc, store_andThen]
  cases w.store.settings <;> rfl

theorem get_ok {key : String} {default value : Json}
    (h : get key default c w = (.ok value, w')) : w = w' := by
  simp only [get, bind_eq, stored_andThen, done_eq_ok] at h
  exact h.2

/-- The fee is read from the settings of the store, which stay as they are. -/
theorem proposalFee_run (type : ProposalType) : proposalFee type c w = (feeIn w.store type, w) := by
  simp only [proposalFee, get, bind_eq, andThen_assoc, stored_andThen]
  exact ofExcept_run _

theorem proposalFee_eq_ok {type : ProposalType} {fee : Int} :
    proposalFee type c w = (.ok fee, w') ↔ feeIn w.store type = .ok fee ∧ w = w' := by
  rw [proposalFee_run, Prod.mk.injEq]

theorem votingFee_ok {fee : Int} (h : votingFee c w = (.ok fee, w')) : w = w' := by
  simp only [votingFee, bind_eq, andThen_eq_ok, ofExcept_eq_ok] at h
  obtain ⟨_, _, hget, -, rfl⟩ := h
  exact get_ok hget

end Settings

/-! ## Proposals -/

namespace Proposal

theorem find_eq_ok {id : Uuid} {p : Proposal} :
    find id c w = (.ok p, w') ↔ w.store.proposal? id = some p ∧ w = w' := by
  simp only [find, bind_eq, store_andThen]
  cases h : w.store.proposal? id <;> simp

/-- After finding a row the sequence goes on with it in the same world. -/
theorem find_andThen_eq_ok {α : Type} {id : Uuid} {f : Proposal → Action α} {b : α} :
    (find id).andThen f c w = (.ok b, w') ↔
      ∃ p, w.store.proposal? id = some p ∧ f p c w = (.ok b, w') := by
  simp only [find, bind_eq, andThen_assoc, store_andThen]
  cases h : w.store.proposal? id <;> simp [andThen]

/-- A new row has the type that was submitted, and waits for its fee if there is
one. -/
theorem type_status_of_rowOf {s : Store} {vaultId snapshotId : Uuid} {fee : Int} {draft : Draft}
    {fields : OrderedMap Json} {options : List Ballot.OptionDraft} {time : Timestamp}
    {p : Proposal} (h : rowOf s vaultId snapshotId fee draft fields options time = .ok p) :
    p.type = draft.type ∧ p.status = if 0 < fee then .unpaid else .upcoming := by
  simp only [rowOf, bind_eq_ok, pure_eq_ok] at h
  obtain ⟨_, -, _, -, _, -, _, -, _, -, rfl⟩ := h
  exact ⟨rfl, rfl⟩

/-- What has to succeed for a proposal to be made, which is one more row. -/
theorem create_eq_ok_iff {vaultId : Uuid} {draft : Draft} {p : Proposal} :
    create vaultId draft c w = (.ok p, w') ↔
      checkDate draft.payload = .ok () ∧ ∃ v fields x fee options,
        w.store.vault? vaultId = some v ∧ v.stage = .locked ∧
        Payload.validate draft.type draft.payload = .ok fields ∧
        (draft.type = .distribution →
          Distribution.check w.store v.id (Payload.value fields Distribution.field) = .ok ()) ∧
        Snapshot.latestOf (w.store.snapshotsOf v.id) = some x ∧
        Settings.feeIn w.store draft.type = .ok fee ∧ Ballot.read draft.options = .ok options ∧
        rowOf w.store v.id x.id fee draft fields options c.now = .ok p ∧
        w' = { w with store := w.store.addProposal p } := by
  simp only [create, bind_eq, ofExcept_andThen_eq_ok, Snapshot.governedVault_andThen_eq_ok]
  constructor
  · intro h
    obtain ⟨_, hdate, v, hv, hs, fields, hfields, h⟩ := h
    rw [checkIf_eq_ok, Snapshot.latest_andThen] at h
    obtain ⟨hcheck, h⟩ := h
    cases hx : Snapshot.latestOf (w.store.snapshotsOf v.id) with
    | none => simp [hx] at h
    | some x =>
        simp only [hx] at h
        rw [andThen_eq_ok] at h
        obtain ⟨fee, w₁, hfee, h⟩ := h
        obtain ⟨hread, rfl⟩ := Settings.proposalFee_eq_ok.1 hfee
        simp only [ofExcept_andThen_eq_ok, store_andThen, now_andThen, modify_andThen,
          done_eq_ok] at h
        obtain ⟨options, hoptions, _, hrow, rfl, rfl⟩ := h
        exact ⟨hdate, v, fields, x, fee, options, hv, hs, hfields, hcheck, hx, hread, hoptions,
          hrow, rfl⟩
  · intro h
    obtain ⟨hdate, v, fields, x, fee, options, hv, hs, hfields, hcheck, hx, hread, hoptions,
      hrow, rfl⟩ := h
    refine ⟨(), hdate, v, hv, hs, fields, hfields, ?_⟩
    rw [checkIf_eq_ok, Snapshot.latest_andThen]
    refine ⟨hcheck, ?_⟩
    simp only [hx]
    rw [andThen_of_ok (Settings.proposalFee_eq_ok.2 ⟨hread, rfl⟩)]
    simp only [ofExcept_andThen_eq_ok, store_andThen, now_andThen, modify_andThen, done_eq_ok]
    exact ⟨options, hoptions, p, hrow, rfl, rfl⟩

/-- A proposal that is made was checked against its vault, its payload and the
vault's latest snapshot. -/
theorem create_ok {vaultId : Uuid} {draft : Draft} {p : Proposal}
    (h : create vaultId draft c w = (.ok p, w')) :
    ∃ v x, v.id = vaultId ∧ draft.type = p.type ∧ Submitted c w.store v x p ∧
      w'.store = w.store.addProposal p := by
  obtain ⟨-, v, fields, x, fee, options, hv, hs, hfields, hcheck, hx, hread, hoptions, hrow, rfl⟩ :=
    create_eq_ok_iff.1 h
  obtain rfl : v.id = vaultId := Store.id_of_vault? hv
  obtain ⟨htype, hstatus⟩ := type_status_of_rowOf hrow
  rw [← htype] at hread
  exact ⟨v, x, rfl, htype.symm, ⟨hv, hs, hx, ⟨fee, hread, hstatus⟩, draft, fee, fields, options,
    hfields, hcheck, hoptions, hrow⟩, rfl⟩

/-- What the row of a submitted proposal holds, as far as it does not come from
its payload. -/
theorem Submitted.fields {s : Store} {v : Vault} {x : Snapshot} {p : Proposal}
    (h : Submitted c s v x p) :
    p.id = s.nextId ∧ p.vaultId = v.id ∧ p.snapshotId = some x.id ∧
      (p.status = .unpaid ∨ p.status = .upcoming) ∧
      ∃ options, Ballot.store (s.serial + 2) options = .ok p.options ∧
        p.hasCustomOptions = !options.isEmpty := by
  obtain ⟨draft, fee, fields, options, -, -, -, hrow⟩ := h.row
  simp only [rowOf, bind_eq_ok, pure_eq_ok] at hrow
  obtain ⟨_, -, _, -, _, -, _, -, rows, hrows, rfl⟩ := hrow
  refine ⟨rfl, rfl, rfl, ?_, options, hrows, rfl⟩
  by_cases hfee : 0 < fee
  · exact .inl (if_pos hfee)
  · exact .inr (if_neg hfee)

/-- A status is entered along an edge, and the new row is written. -/
theorem enter_ok {p p' : Proposal} {target : ProposalStatus}
    {finish : Timestamp → Proposal → Proposal}
    (h : enter p target finish c w = (.ok p', w')) :
    target ∈ p.status.next ∧ p' = finish c.now (p.entered target c.now) ∧
      w'.store = w.store.putProposal p' := by
  simp only [enter, bind_eq] at h
  split at h
  · next hedge =>
    simp only [now_andThen, modify_andThen, done_eq_ok] at h
    obtain ⟨rfl, rfl⟩ := h
    exact ⟨by simpa using hedge, rfl, rfl⟩
  · simp at h

theorem markFeePaid_ok {id : Uuid} {p' : Proposal}
    (h : markFeePaid id c w = (.ok p', w')) :
    ∃ p, w.store.proposal? id = some p ∧
      ProposalStatus.Step id (.markFeePaid id) p.status p'.status ∧
      Moved c w.store p p' w.store ∧ w'.store = w.store.putProposal p' := by
  simp only [markFeePaid, bind_eq, find_andThen_eq_ok] at h
  obtain ⟨p, hp, h⟩ := h
  obtain ⟨hedge, rfl, hw⟩ := enter_ok h
  have hstatus : p.status = .unpaid := by
    cases hs : p.status <;> simp [hs, ProposalStatus.next] at hedge ⊢
  exact ⟨p, hp, by rw [hstatus]; exact .feePaid, .feePaid hstatus, hw⟩

theorem openVoting_ok {id : Uuid} {p' : Proposal}
    (h : openVoting id c w = (.ok p', w')) :
    ∃ p, w.store.proposal? id = some p ∧
      ProposalStatus.Step id (.openVoting id) p.status p'.status ∧
      Moved c w.store p p' w.store ∧ w'.store = w.store.putProposal p' := by
  simp only [openVoting, bind_eq, find_andThen_eq_ok] at h
  obtain ⟨p, hp, h⟩ := h
  obtain ⟨hedge, rfl, hw⟩ := enter_ok h
  have hstatus : p.status = .upcoming := by
    cases hs : p.status <;> simp [hs, ProposalStatus.next] at hedge ⊢
  exact ⟨p, hp, by rw [hstatus]; exact .opened, .opened hstatus, hw⟩

/-- Voting is closed with the decision that the store gives at that moment. -/
theorem finalize_ok {id : Uuid} {r : Proposal × Option VoteResult}
    (h : finalize id c w = (.ok r, w')) :
    ∃ p, w.store.proposal? id = some p ∧
      ProposalStatus.Step id (.finalizeProposal id) p.status r.1.status ∧
      Moved c w.store p r.1 w.store ∧ w'.store = w.store.putProposal r.1 := by
  simp only [finalize, bind_eq, find_andThen_eq_ok] at h
  obtain ⟨p, hp, h⟩ := h
  split at h
  · next hstatus =>
    simp only [store_andThen] at h
    cases hv : w.store.vault? p.vaultId with
    | none => simp [hv] at h
    | some v =>
        simp only [hv, configuration_andThen, ofExcept_andThen_eq_ok] at h
        obtain ⟨⟨passed, result⟩, hdecision, h⟩ := h
        rw [andThen_eq_ok] at h
        obtain ⟨p', w₁, henter, h⟩ := h
        obtain ⟨-, rfl, hw₁⟩ := enter_ok henter
        obtain ⟨rfl, rfl⟩ := done_eq_ok.1 h
        refine ⟨p, hp, ?_, .closed hstatus hv hdecision, hw₁⟩
        rw [hstatus]
        cases passed
        · exact .rejected
        · exact .passed
  · simp at h

/-- Effects that succeed are those of the proposal's type. -/
theorem applyEffects_ok {p : Proposal} {v : Vault} {u : Unit}
    (hv : w.store.vault? v.id = some v) (h : applyEffects p v c w = (.ok u, w')) :
    Effect c.now p v w.store w'.store := by
  rw [applyEffects] at h
  cases htype : p.type with
  | distribution =>
      simp only [htype] at h
      split at h
      · simp at h
      · next hscript =>
        simp only [bind_eq, ofExcept_andThen_eq_ok] at h
        obtain ⟨ids, hids, h⟩ := h
        rw [andThen_eq_ok] at h
        obtain ⟨as, w₁, hpaid, h⟩ := h
        obtain ⟨-, rfl⟩ := done_eq_ok.1 h
        exact .distribution htype (by simpa using hscript) hids (Asset.distribute_ok hpaid)
  | termination =>
      simp only [htype, bind_eq, andThen_eq_ok, done_eq_ok] at h
      obtain ⟨v', w₁, hadvance, -, rfl⟩ := h
      obtain ⟨u, hu, hedge, -, hw⟩ := Vault.advance_ok hadvance
      obtain rfl : v = u := by simpa [hv] using hu
      have hstage : v.stage = .locked := by
        cases hs : v.stage <;> simp [hs, VaultStage.next] at hedge ⊢
      rw [hw]
      exact .termination htype hstage
  | staking | burning | marketplaceAction | expansion =>
      simp only [htype, done_eq_ok] at h
      obtain ⟨-, rfl⟩ := h
      exact .none (by simp [htype])

/-- An executed proposal had passed, and had its effects. -/
theorem execute_ok {id : Uuid} {p' : Proposal} (h : execute id c w = (.ok p', w')) :
    ∃ p s', w.store.proposal? id = some p ∧
      ProposalStatus.Step id (.executeProposal id) p.status p'.status ∧
      Moved c w.store p p' s' ∧ w'.store = s'.putProposal p' := by
  simp only [execute, bind_eq, find_andThen_eq_ok] at h
  obtain ⟨p, hp, h⟩ := h
  split at h
  · next hstatus =>
    rw [Vault.find_andThen_eq_ok] at h
    obtain ⟨v, hv, h⟩ := h
    have hid : v.id = p.vaultId := Store.id_of_vault? hv
    rw [andThen_eq_ok] at h
    obtain ⟨_, w₁, heffects, h⟩ := h
    obtain ⟨-, rfl, hw⟩ := enter_ok h
    exact ⟨p, w₁.store, hp, by rw [hstatus]; exact .executed,
      .executed hstatus hv (applyEffects_ok (hid ▸ hv) heffects), hw⟩
  · simp at h

end Proposal

/-! ## Votes -/

namespace Vote

/-- A vote that is cast was taken on a proposal that exists. -/
theorem cast_ok {proposalId : Uuid} {voterId : Option String} {optionRef : Json}
    {address : Option String} {v : Vote}
    (h : cast proposalId voterId optionRef address c w = (.ok v, w')) :
    ∃ p, w.store.proposal? proposalId = some p ∧ Taken c w.store p v ∧
      w'.store = w.store.addVote v := by
  simp only [cast, bind_eq, Proposal.find_andThen_eq_ok, now_andThen, ofExcept_andThen_eq_ok,
    store_andThen] at h
  obtain ⟨p, hp, _, hopen, optionId, hoption, weight, hweight, h⟩ := h
  split at h
  · simp at h
  · next hpositive =>
    split at h
    · simp at h
    · next hfirst =>
      simp only [ofExcept_andThen_eq_ok, Column.bigint_eq_ok_iff] at h
      obtain ⟨_, ⟨hfits, rfl⟩, h⟩ := h
      cases voterId with
      | none => simp at h
      | some voterId =>
          cases address with
          | none => simp at h
          | some address =>
              simp only [now_andThen, modify_andThen, record_andThen, done_eq_ok] at h
              obtain ⟨rfl, rfl⟩ := h
              exact ⟨p, hp, ⟨rfl, rfl, rfl, hopen, ⟨optionRef, hoption⟩, hweight,
                by simpa using hpositive, hfits, by simpa using hfirst⟩, rfl⟩

theorem tally_ok {proposalId : Uuid} {rows : List TallyRow}
    (h : tally proposalId c w = (.ok rows, w')) :
    ∃ p, w.store.proposal? proposalId = some p ∧ tallyOf w.store p = .ok rows ∧ w = w' := by
  simp only [tally, bind_eq, Proposal.find_andThen_eq_ok, store_andThen, ofExcept_eq_ok] at h
  exact h

end Vote

end VaultGovernance
