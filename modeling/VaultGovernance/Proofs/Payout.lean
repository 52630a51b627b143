import VaultGovernance.Proofs.Execution
import VaultGovernance.Proofs.Trail

/-!
# VaultGovernance.Proofs.Payout

Where distributed assets come from.  An asset becomes distributed by one of three
operations: executing a distribution proposal that lists it, moving the asset
itself, and paying out a list of assets directly.  The first leaves an executed
proposal behind; the other two ask for no proposal.
-/

namespace VaultGovernance

/-! ## Assets that an operation leaves in a status -/

namespace Store.AssetIn

variable {s s' : Store} {vaultId id : Uuid} {status : AssetStatus} {time : Timestamp}

/-- Moving many assets brings none into another status than the one they move
to. -/
theorem of_moveHeld {owner : Uuid} {source target : AssetStatus} (hne : target ≠ status)
    (h : (s.moveHeld owner source target time).AssetIn vaultId status id) :
    s.AssetIn vaultId status id := by
  obtain ⟨a', ha', howner, hstatus⟩ := h
  rw [asset?_moveHeld] at ha'
  obtain ⟨a, ha, rfl⟩ := Option.map_eq_some_iff.1 ha'
  split at hstatus
  · exact absurd hstatus hne
  · next hfree =>
    rw [if_neg hfree] at howner
    exact ⟨a, ha, howner, hstatus⟩

theorem of_settleAssets {owner : Uuid} {target : VaultStage}
    (h : (s.settleAssets owner target time).AssetIn vaultId .distributed id) :
    s.AssetIn vaultId .distributed id := by
  rw [Store.settleAssets] at h
  split at h
  · exact h.of_moveHeld (by decide)
  · split at h
    · exact h.of_moveHeld (by decide)
    · exact h

theorem of_addAsset {a : Asset} (hne : a.status ≠ status)
    (h : (s.addAsset a).AssetIn vaultId status id) : s.AssetIn vaultId status id := by
  obtain ⟨b, hb, howner, hstatus⟩ := h
  cases hold : s.asset? id with
  | some x =>
      obtain rfl := Option.some.inj ((asset?_addAsset hold).symm.trans hb)
      exact ⟨x, hold, howner, hstatus⟩
  | none =>
      have hwrite : RowWrite Asset.id (fun x => x = a) Eq s.assets (s.addAsset a).assets :=
        .added rfl
      have hnew : b = a := hwrite.new_of_none hold hb
      exact absurd (hnew ▸ hstatus) hne

/-- Writing a row changes the status of no asset but its own. -/
theorem of_putAsset {a a' : Asset} (found : s.asset? a.id = some a) (hf : a.Follows a')
    (h : (s.putAsset a').AssetIn vaultId status id) :
    s.AssetIn vaultId status id ∨
      id = a.id ∧ s.AssetIn vaultId a.status id ∧ a'.status = status := by
  by_cases hid : id = a'.id
  · obtain ⟨b, hb, howner, hstatus⟩ := h
    rw [asset?_putAsset, if_pos hid, hid, hf.id, found, Option.map_some] at hb
    obtain rfl := Option.some.inj hb
    have hid' : id = a.id := hid.trans hf.id
    exact .inr ⟨hid', ⟨a, hid' ▸ found, hf.vaultId.symm.trans howner, rfl⟩, hstatus⟩
  · exact .inl (assetIn_of_putAsset hid h)

end Store.AssetIn

/-- What is distributed after a payout was so before, or is on the list and was
locked. -/
theorem PaidOut.origin {time : Timestamp} {owner vaultId id : Uuid} {ids : List Uuid}
    {s s' : Store} (h : PaidOut time owner ids s s') (hd : s'.AssetIn vaultId .distributed id) :
    s.AssetIn vaultId .distributed id ∨
      owner = vaultId ∧ id ∈ ids ∧ s.AssetIn vaultId .locked id := by
  by_cases hid : id ∈ ids
  · have hlocked := h.locked id hid
    obtain ⟨a, ha, howner, -⟩ := h.distributed id hid
    obtain ⟨a', ha', howner', -⟩ := hd
    obtain rfl := Option.some.inj (ha.symm.trans ha')
    obtain rfl : owner = vaultId := howner.symm.trans howner'
    exact .inr ⟨rfl, hid, hlocked⟩
  · -- Rows that are not on the list are found as before.
    left
    induction h with
    | nil s => exact hd
    | cons found owner locked others ih =>
        rw [List.mem_cons, not_or] at hid
        refine Store.assetIn_of_putAsset ?_ (ih hd hid.2)
        rw [Asset.id_moved]
        exact hid.1

/-! ## One operation -/

/-- An executed distribution proposal of a vault lists an asset. -/
def Store.DecidedPayout (s : Store) (vaultId id : Uuid) : Prop :=
  ∃ p ∈ s.proposals, p.IsPayout ∧ p.vaultId = vaultId ∧
    ∃ ids, Distribution.identifiers p.distributionAssets = .ok ids ∧ id ∈ ids

/-- An operation that pays an asset of a vault out without a proposal. -/
def Operation.PaysDirectly (vaultId id : Uuid) (op : Operation) : Prop :=
  op = .transitionAsset id .distributed ∨ ∃ ids, op = .distributeAssets vaultId ids ∧ id ∈ ids

section Does

variable {c : Context} {s s' : Store} {op : Operation} {vaultId id : Uuid}

/-- Executed proposals stay. -/
theorem Store.DecidedPayout.later (h : s.DecidedPayout vaultId id) (hn : s.Numbered)
    (hbefore : s.Before s') : s'.DecidedPayout vaultId id := by
  obtain ⟨p, hp, ⟨hstatus, htype⟩, howner, ids, hids, hid⟩ := h
  obtain ⟨q, hq, hf⟩ := hbefore.proposals (hn.proposal?_of_mem hp)
  have hlead := hf.status
  rw [hstatus] at hlead
  refine ⟨q, List.mem_of_find?_eq_some hq, ⟨hlead.eq_of_final rfl, hf.type.trans htype⟩,
    hf.vaultId.trans howner, ids, ?_, hid⟩
  rw [hf.distributionAssets]
  exact hids

/-- Moving a proposal makes an asset distributed by executing a distribution that
lists it. -/
theorem Proposal.Moved.payout {p q : Proposal} {s₁ : Store} (found : s.proposal? p.id = some p)
    (h : Proposal.Moved c s p q s₁) (hd : s₁.AssetIn vaultId .distributed id) :
    s.AssetIn vaultId .distributed id ∨
      s.AssetIn vaultId .locked id ∧ (s₁.putProposal q).DecidedPayout vaultId id := by
  have hf : p.Follows q := .of_moved h
  cases h with
  | @executed v s₁ status vault effect =>
      cases effect with
      | @distribution ids s₁ type script read paid =>
          rcases paid.origin hd with hold | ⟨howner, hid, hlocked⟩
          · exact .inl hold
          · obtain ⟨assets, rfl⟩ := paid.rest
            exact .inr ⟨hlocked, _, Store.mem_putProposal_self found hf.id, ⟨rfl, type⟩,
              (Store.id_of_vault? vault).symm.trans howner, ids, read, hid⟩
      | termination type stage => exact .inl hd
      | none type => exact .inl hd
  | _ => exact .inl hd

/-- An asset is distributed after an operation if it was so before, or if it was
locked and the operation paid it out, directly or by executing a proposal. -/
theorem Operation.Does.payout (h : op.Does c s s')
    (hd : s'.AssetIn vaultId .distributed id) :
    s.AssetIn vaultId .distributed id ∨
      s.AssetIn vaultId .locked id ∧
        (op.PaysDirectly vaultId id ∨ s'.DecidedPayout vaultId id) := by
  cases h with
  | vaultAdvanced reason found edge ready => exact .inl hd.of_settleAssets
  | assetAdded row => exact .inl (hd.of_addAsset (by rw [row.status]; decide))
  | @assetMoved a target found edge =>
      rcases hd.of_putAsset found (.of_moved c.now edge) with hold | ⟨rfl, hfrom, rfl⟩
      · exact .inl hold
      · rw [Asset.distributed_mem_next.1 edge] at hfrom
        exact .inr ⟨hfrom, .inl (.inl rfl)⟩
  | assetsMoved owner step =>
      refine .inl (hd.of_moveHeld ?_)
      cases step <;> decide
  | assetsPaidOut paid =>
      rcases paid.origin hd with hold | ⟨rfl, hid, hlocked⟩
      · exact .inl hold
      · exact .inr ⟨hlocked, .inl (.inr ⟨_, rfl, hid⟩)⟩
  | @assetEdited op a a' found row =>
      have hsame : a'.status = a.status := by rw [row]
      rcases hd.of_putAsset found (.of_edited row) with hold | ⟨-, hfrom, hstatus⟩
      · exact .inl hold
      · rw [← hsame, hstatus] at hfrom
        exact .inl hfrom
  | proposalMoved found step moved =>
      rcases moved.payout found hd with hold | ⟨hlocked, hdecided⟩
      · exact .inl hold
      · exact .inr ⟨hlocked, .inr hdecided⟩
  | _ => exact .inl hd

end Does

/-! ## Runs -/

/-- A call of a run found an asset of a vault locked, and paid it out without a
proposal. -/
def PaidDirectly (vaultId id : Uuid) (calls : List Call) : Prop :=
  ∃ earlier k later, calls = earlier ++ k :: later ∧ k.operation.PaysDirectly vaultId id ∧
    (storeAfter earlier).AssetIn vaultId .locked id ∧
    (storeAfter (earlier ++ [k])).AssetIn vaultId .distributed id

/-- Every distributed asset was paid out by an executed distribution proposal of
its vault that lists it, or by a call that moved it from locked to distributed
directly: as a single asset, or in a list of assets of its vault. -/
theorem distributed_assets_explained (calls : List Call) (a : Asset)
    (ha : a ∈ (storeAfter calls).assets) (hd : a.status = .distributed) :
    (storeAfter calls).DecidedPayout a.vaultId a.id ∨ PaidDirectly a.vaultId a.id calls := by
  have hfound := (storeAfter_numbered calls).asset?_of_mem ha
  obtain ⟨earlier, k, later, rfl, hbefore, hafter⟩ :=
    World.exists_call (P := fun s => s.AssetIn a.vaultId .distributed a.id) (w := {})
      (by rintro ⟨b, hb, -⟩; cases hb) ⟨a, hfound, rfl, hd⟩
  rcases (does_storeAfter earlier k).payout hafter with hold | ⟨hlocked, hdirect | hdecided⟩
  · exact absurd hold hbefore
  · exact .inr ⟨earlier, k, later, rfl, hdirect, hlocked, hafter⟩
  · left
    have hlater := storeAfter_before (earlier ++ [k]) later
    rw [List.append_assoc] at hlater
    exact hdecided.later (storeAfter_numbered _) hlater

/-- The asset of an executed distribution. -/
theorem distributed_assets_explained_of_sample :
    let calls := Sample.opening ++ Sample.voting ++ Sample.closing
    let a := (storeAfter calls).assets.headD default
    a.status = .distributed ∧
      ((storeAfter calls).DecidedPayout a.vaultId a.id ∨ PaidDirectly a.vaultId a.id calls) :=
  ⟨by decide +kernel, distributed_assets_explained (Sample.opening ++ Sample.voting ++
    Sample.closing) _ (by decide +kernel) (by decide +kernel)⟩

/-- What is distributed in a store without proposals was not decided. -/
theorem undecided_of_empty {s : Store} (hempty : s.proposals = [])
    (hpaid : ∃ a ∈ s.assets, a.status = .distributed) :
    ∃ a ∈ s.assets, a.status = .distributed ∧ ¬ s.DecidedPayout a.vaultId a.id := by
  obtain ⟨a, ha, hd⟩ := hpaid
  refine ⟨a, ha, hd, ?_⟩
  rintro ⟨p, hp, -⟩
  rw [hempty] at hp
  cases hp

namespace Sample

/-- The vault is locked, and its asset is paid out by a call before there is any
proposal. -/
def paidBy (direct : Operation) : List Call := opening.take 8 ++ [call 9 direct]

end Sample

/-- Both direct calls pay the asset of a locked vault out before there is any
proposal. -/
theorem distributed_without_proposal :
    (∃ a ∈ (storeAfter (Sample.paidBy (.transitionAsset Sample.assetId .distributed))).assets,
      a.status = .distributed ∧
        ¬ (storeAfter (Sample.paidBy (.transitionAsset Sample.assetId .distributed))).DecidedPayout
          a.vaultId a.id) ∧
      ∃ a ∈ (storeAfter (Sample.paidBy
          (.distributeAssets Sample.vaultId [Sample.assetId]))).assets,
        a.status = .distributed ∧
          ¬ (storeAfter (Sample.paidBy
            (.distributeAssets Sample.vaultId [Sample.assetId]))).DecidedPayout a.vaultId a.id :=
  ⟨undecided_of_empty (by decide +kernel) (by decide +kernel),
    undecided_of_empty (by decide +kernel) (by decide +kernel)⟩

end VaultGovernance
