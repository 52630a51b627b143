import VaultGovernance.Proofs.Identifiers

/-!
# VaultGovernance.Proofs.Execution

What was executed stays executed, and excludes other executions.  Paying an
asset out takes a locked asset and leaves one that no operation moves again, so
no two executed distributions list a common asset.  Terminating takes a vault
in governance and leaves one that never comes back to governance, so a vault is
terminated by one proposal at most.

`Store.Enacted` is the invariant behind this.
-/

namespace VaultGovernance

/-! ## Paying out a list -/

/-- An asset of a vault is found in a status. -/
def Store.AssetIn (s : Store) (vaultId : Uuid) (status : AssetStatus) (id : Uuid) : Prop :=
  ∃ a, s.asset? id = some a ∧ a.vaultId = vaultId ∧ a.status = status

section AssetIn

variable {s s' : Store} {vaultId id : Uuid}

/-- An asset is in one status at a time. -/
theorem Store.AssetIn.unique {vaultId' : Uuid} {status status' : AssetStatus}
    (h : s.AssetIn vaultId status id) (h' : s.AssetIn vaultId' status' id) : status = status' := by
  obtain ⟨a, ha, -, rfl⟩ := h
  obtain ⟨b, hb, -, rfl⟩ := h'
  rw [ha] at hb
  rw [Option.some.inj hb]

/-- An asset that was paid out stays so. -/
theorem Store.AssetIn.distributed_later (h : s.AssetIn vaultId .distributed id)
    (hbefore : s.Before s') : s'.AssetIn vaultId .distributed id := by
  obtain ⟨a, ha, howner, hstatus⟩ := h
  obtain ⟨a', ha', hf⟩ := hbefore.assets ha
  refine ⟨a', ha', hf.vaultId.trans howner, ?_⟩
  have hlead := hf.status
  rw [hstatus] at hlead
  exact hlead.eq_of_final rfl

/-- A moved asset is found in its new status. -/
theorem Store.assetIn_putAsset {a : Asset} {status : AssetStatus} {time : Timestamp}
    (found : s.asset? a.id = some a) :
    (s.putAsset (a.moved status time)).AssetIn a.vaultId status a.id := by
  refine ⟨a.moved status time, ?_, Asset.vaultId_moved a status time, rfl⟩
  rw [asset?_putAsset, Asset.id_moved, if_pos rfl, found, Option.map_some]

/-- Other assets are found as before. -/
theorem Store.assetIn_of_putAsset {a : Asset} {status : AssetStatus} (hid : id ≠ a.id)
    (h : (s.putAsset a).AssetIn vaultId status id) : s.AssetIn vaultId status id := by
  obtain ⟨b, hb, hstatus⟩ := h
  rw [asset?_putAsset, if_neg hid] at hb
  exact ⟨b, hb, hstatus⟩

end AssetIn

namespace PaidOut

variable {time : Timestamp} {vaultId : Uuid} {ids : List Uuid} {s s' : Store}

/-- Every listed asset was locked. -/
theorem locked (h : PaidOut time vaultId ids s s') :
    ∀ id ∈ ids, s.AssetIn vaultId .locked id := by
  induction h with
  | nil s => simp
  | @cons a rest s s' found owner hlocked others ih =>
      intro id hid
      cases List.mem_cons.1 hid with
      | inl hfirst =>
          subst hfirst
          exact ⟨a, found, owner, hlocked⟩
      | inr hlater =>
          refine Store.assetIn_of_putAsset ?_ (ih id hlater)
          rw [Asset.id_moved]
          -- The first asset is no longer locked when the others are paid out.
          rintro rfl
          have hstatus := (ih a.id hlater).unique (Store.assetIn_putAsset found)
          cases hstatus

/-- No asset is listed twice. -/
theorem nodup (h : PaidOut time vaultId ids s s') : ids.Nodup := by
  induction h with
  | nil s => exact List.nodup_nil
  | @cons a rest s s' found owner hlocked others ih =>
      refine List.nodup_cons.2 ⟨fun hid => ?_, ih⟩
      have hstatus := (others.locked a.id hid).unique (Store.assetIn_putAsset found)
      cases hstatus

/-- Every listed asset is paid out. -/
theorem distributed (h : PaidOut time vaultId ids s s') :
    ∀ id ∈ ids, s'.AssetIn vaultId .distributed id := by
  induction h with
  | nil s => simp
  | @cons a rest s s' found owner hlocked others ih =>
      intro id hid
      cases List.mem_cons.1 hid with
      | inl hfirst =>
          rw [hfirst, ← owner]
          exact (Store.assetIn_putAsset found).distributed_later (.of_paidOut others)
      | inr hlater => exact ih id hlater

end PaidOut

/-! ## Executed proposals -/

namespace Proposal

/-- A proposal that paid assets out. -/
def IsPayout (p : Proposal) : Prop := p.status = .executed ∧ p.type = .distribution

/-- A proposal that terminated its vault. -/
def IsTermination (p : Proposal) : Prop := p.status = .executed ∧ p.type = .termination

end Proposal

/-- The stages of a vault that was terminated. -/
def VaultStage.Closing (stage : VaultStage) : Prop := stage = .terminating ∨ stage = .terminated

/-- A vault that was terminated stays so. -/
theorem VaultStage.Closing.later {v v' : Vault} (h : v.stage.Closing) (hf : v.Follows v') :
    v'.stage.Closing := by
  refine hf.stage.closed (P := VaultStage.Closing) (fun a b ha hb => ?_) h
  rcases ha with rfl | rfl
  · exact .inr (by simpa [VaultStage.next] using hb)
  · simp [VaultStage.next] at hb

/-- Either a change executes no proposal, or it executes one that had passed and
adds no other. -/
theorem Change.executed {c : Context} {s s' : Store} (hc : Change c s s') :
    (∀ q ∈ s'.proposals, q.status = .executed → q ∈ s.proposals) ∨
      ∃ p q v s₁, p.Follows q ∧ s.vault? p.vaultId = some v ∧ Effect c.now p v s s₁ ∧
        s' = s₁.putProposal q ∧ ∀ r ∈ s'.proposals, r = q ∨ r ∈ s.proposals := by
  by_cases hold : ∀ q ∈ s'.proposals, q.status = .executed → q ∈ s.proposals
  · exact .inl hold
  · right
    simp only [Classical.not_forall] at hold
    obtain ⟨q, hq, hstatus, hnew⟩ := hold
    rcases hc.mem_proposals hq with hmem | ⟨v, x, hrow, -⟩ | ⟨p, s₁, hp, hmoved, rfl⟩
    · exact absurd hmem hnew
    · obtain ⟨-, -, -, hfirst, -⟩ := hrow.fields
      rcases hfirst with hfirst | hfirst <;> rw [hfirst] at hstatus <;> cases hstatus
    · have hf : p.Follows q := .of_moved hmoved
      obtain ⟨vaults, assets, hrest⟩ := hmoved.rest
      have hrows : ∀ r ∈ (s₁.putProposal q).proposals, r = q ∨ r ∈ s.proposals := by
        intro r hr
        have hr' := Store.mem_putProposal hr
        rw [hrest] at hr'
        exact hr'
      cases hmoved with
      | feePaid status => cases hstatus
      | opened status => cases hstatus
      | @closed v passed result status vault decision =>
          cases passed <;> cases hstatus
      | @executed v s₁ status vault effect => exact ⟨p, _, v, s₁, hf, vault, effect, rfl, hrows⟩

section Effect

variable {time : Timestamp} {p : Proposal} {v : Vault} {s s₁ : Store}

/-- Executing a distribution pays out its list. -/
theorem Effect.payout (h : Effect time p v s s₁) (htype : p.type = .distribution) :
    ∃ ids, Distribution.identifiers p.distributionAssets = .ok ids ∧
      PaidOut time v.id ids s s₁ := by
  cases h with
  | distribution type script read paid => exact ⟨_, read, paid⟩
  | termination type stage => rw [htype] at type; cases type
  | none type => exact absurd htype type.1

/-- Executing a termination takes its vault out of governance. -/
theorem Effect.terminated (h : Effect time p v s s₁) (htype : p.type = .termination) :
    v.stage = .locked ∧ s₁ = s.putVault (v.entered .terminating Option.none time) := by
  cases h with
  | distribution type script read paid => rw [htype] at type; cases type
  | termination type stage => exact ⟨stage, rfl⟩
  | none type => exact absurd htype type.2

end Effect

/-! ## The invariant -/

/-- Executed distributions have paid out their lists, which have nothing in
common, and executed terminations have closed their vaults, one each. -/
structure Store.Enacted (s : Store) : Prop where
  paid : ∀ p ∈ s.proposals, p.IsPayout →
    ∃ ids, Distribution.identifiers p.distributionAssets = .ok ids ∧ ids.Nodup ∧
      ∀ id ∈ ids, s.AssetIn p.vaultId .distributed id
  disjoint : ∀ p ∈ s.proposals, ∀ q ∈ s.proposals, p.IsPayout → q.IsPayout → p ≠ q →
    ∀ ids ids', Distribution.identifiers p.distributionAssets = .ok ids →
      Distribution.identifiers q.distributionAssets = .ok ids' → ∀ id ∈ ids, id ∉ ids'
  closed : ∀ p ∈ s.proposals, p.IsTermination →
    ∃ v, s.vault? p.vaultId = some v ∧ v.stage.Closing
  single : ∀ p ∈ s.proposals, ∀ q ∈ s.proposals, p.IsTermination → q.IsTermination →
    p.vaultId = q.vaultId → p = q

namespace Store.Enacted

variable {c : Context} {s s' s₁ : Store} {p q r : Proposal} {v : Vault}

/-! ### Proposals that were executed before -/

theorem paid_later (h : s.Enacted) (hbefore : s.Before s') (hr : r ∈ s.proposals)
    (hpayout : r.IsPayout) :
    ∃ ids, Distribution.identifiers r.distributionAssets = .ok ids ∧ ids.Nodup ∧
      ∀ id ∈ ids, s'.AssetIn r.vaultId .distributed id := by
  obtain ⟨ids, hread, hnodup, hpaid⟩ := h.paid r hr hpayout
  exact ⟨ids, hread, hnodup, fun id hid => (hpaid id hid).distributed_later hbefore⟩

theorem closed_later (h : s.Enacted) (hbefore : s.Before s') (hr : r ∈ s.proposals)
    (hterminated : r.IsTermination) : ∃ v, s'.vault? r.vaultId = some v ∧ v.stage.Closing := by
  obtain ⟨v, hv, hclosing⟩ := h.closed r hr hterminated
  obtain ⟨v', hv', hf⟩ := hbefore.vaults hv
  exact ⟨v', hv', hclosing.later hf⟩

/-! ### The proposal that is executed now -/

/-- The list of a distribution that is executed now has nothing in common with
the lists of earlier ones. -/
theorem disjoint_new (h : s.Enacted) (effect : Effect c.now p v s s₁) (hf : p.Follows q)
    (hq : q.IsPayout) (hr : r ∈ s.proposals) (hpayout : r.IsPayout) {ids ids' : List Uuid}
    (hids : Distribution.identifiers q.distributionAssets = .ok ids)
    (hids' : Distribution.identifiers r.distributionAssets = .ok ids') :
    ∀ id ∈ ids, id ∉ ids' := by
  intro id hid hid'
  obtain ⟨listed, hread, hpaid⟩ := effect.payout (hf.type ▸ hq.2)
  rw [hf.distributionAssets, hread] at hids
  obtain rfl := Except.ok.inj hids
  obtain ⟨listed', hread', -, hpaid'⟩ := h.paid r hr hpayout
  rw [hread'] at hids'
  obtain rfl := Except.ok.inj hids'
  have hstatus := (hpaid.locked id hid).unique (hpaid' id hid')
  cases hstatus

/-- A distribution that is executed now pays out its list. -/
theorem paid_new (effect : Effect c.now p v s s₁) (hf : p.Follows q)
    (hv : s.vault? p.vaultId = some v) (hq : q.IsPayout) :
    ∃ ids, Distribution.identifiers q.distributionAssets = .ok ids ∧ ids.Nodup ∧
      ∀ id ∈ ids, (s₁.putProposal q).AssetIn q.vaultId .distributed id := by
  obtain ⟨ids, hread, hpaid⟩ := effect.payout (hf.type ▸ hq.2)
  refine ⟨ids, by rw [hf.distributionAssets]; exact hread, hpaid.nodup, fun id hid => ?_⟩
  rw [hf.vaultId, ← Store.id_of_vault? hv]
  exact hpaid.distributed id hid

/-- No termination of the same vault was executed before one that is executed
now. -/
theorem single_new (h : s.Enacted) (effect : Effect c.now p v s s₁) (hf : p.Follows q)
    (hv : s.vault? p.vaultId = some v) (hq : q.IsTermination) (hr : r ∈ s.proposals)
    (hterminated : r.IsTermination) : q.vaultId ≠ r.vaultId := by
  intro hsame
  obtain ⟨hlocked, -⟩ := effect.terminated (hf.type ▸ hq.2)
  obtain ⟨u, hu, hclosing⟩ := h.closed r hr hterminated
  rw [← hsame, hf.vaultId, hv] at hu
  obtain rfl := Option.some.inj hu
  rcases hclosing with hstage | hstage <;> rw [hlocked] at hstage <;> cases hstage

/-- A termination that is executed now closes its vault. -/
theorem closed_new (effect : Effect c.now p v s s₁) (hf : p.Follows q)
    (hv : s.vault? p.vaultId = some v) (hq : q.IsTermination) :
    ∃ v, (s₁.putProposal q).vault? q.vaultId = some v ∧ v.stage.Closing := by
  obtain ⟨-, rfl⟩ := effect.terminated (hf.type ▸ hq.2)
  refine ⟨v.entered .terminating none c.now, ?_, .inl rfl⟩
  have hid : q.vaultId = (v.entered .terminating none c.now).id := by
    rw [hf.vaultId]
    exact (Store.id_of_vault? hv).symm
  show (s.putVault (v.entered .terminating none c.now)).vault? q.vaultId = _
  rw [Store.vault?_putVault, if_pos hid, hf.vaultId, hv, Option.map_some]

end Store.Enacted

/-- Every change keeps what was executed. -/
theorem Change.enacted {c : Context} {s s' : Store} (hc : Change c s s') (h : s.Enacted) :
    s'.Enacted := by
  have hbefore := hc.before
  rcases hc.executed with hold | ⟨p, q, v, s₁, hf, hv, effect, rfl, hrows⟩
  · constructor
    case paid => exact fun r hr hpay => h.paid_later hbefore (hold r hr hpay.1) hpay
    case disjoint =>
      exact fun r hr r' hr' hpay hpay' =>
        h.disjoint r (hold r hr hpay.1) r' (hold r' hr' hpay'.1) hpay hpay'
    case closed => exact fun r hr hend => h.closed_later hbefore (hold r hr hend.1) hend
    case single =>
      exact fun r hr r' hr' hend hend' =>
        h.single r (hold r hr hend.1) r' (hold r' hr' hend'.1) hend hend'
  · constructor
    case paid =>
      intro r hr hpay
      cases hrows r hr with
      | inl hnew =>
          subst hnew
          exact Store.Enacted.paid_new effect hf hv hpay
      | inr hold => exact h.paid_later hbefore hold hpay
    case disjoint =>
      intro r hr r' hr' hpay hpay' hne ids ids' hids hids'
      rcases hrows r hr with rfl | hold <;> rcases hrows r' hr' with rfl | hold'
      · exact absurd rfl hne
      · exact h.disjoint_new effect hf hpay hold' hpay' hids hids'
      · intro id hid hid'
        exact h.disjoint_new effect hf hpay' hold hpay hids' hids id hid' hid
      · exact h.disjoint r hold r' hold' hpay hpay' hne ids ids' hids hids'
    case closed =>
      intro r hr hend
      cases hrows r hr with
      | inl hnew =>
          subst hnew
          exact Store.Enacted.closed_new effect hf hv hend
      | inr hold => exact h.closed_later hbefore hold hend
    case single =>
      intro r hr r' hr' hend hend' hsame
      rcases hrows r hr with rfl | hold <;> rcases hrows r' hr' with rfl | hold'
      · rfl
      · exact absurd hsame (h.single_new effect hf hv hend hold' hend')
      · exact absurd hsame.symm (h.single_new effect hf hv hend' hold hend)
      · exact h.single r hold r' hold' hend hend' hsame

theorem storeAfter_enacted (calls : List Call) : (storeAfter calls).Enacted :=
  storeAfter_invariant (P := Store.Enacted) (by constructor <;> simp)
    (fun _ _ _ h hc => hc.enacted h) calls

end VaultGovernance
