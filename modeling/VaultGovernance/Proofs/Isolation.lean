import VaultGovernance.Proofs.Atomicity
import VaultGovernance.Proofs.References

/-!
# VaultGovernance.Proofs.Isolation

Vaults do not touch each other.  Every operation is addressed to a vault, to one of its
assets or to one of its proposals, or else to no vault at all.  What it writes are rows
of that vault: single rows are looked up under the vault or belong to it already, and
moves of many rows go by the vault in each row.  A list of assets to pay out may name
any asset there is; each is checked when its turn comes, and a list with an asset of
another vault fails.

`Store.AgreeOutside` compares two stores in everything but one vault.
-/

namespace VaultGovernance

/-! ## Rows that are not touched -/

section Filter

variable {α : Type} {rows : List α} {P : α → Bool}

/-- A row that is left out may be added. -/
theorem filter_added {r : α} (h : P r = false) : (rows ++ [r]).filter P = rows.filter P := by
  rw [List.filter_append, List.filter_cons_of_neg (by rw [h]; decide), List.filter_nil,
    List.append_nil]

/-- Rows that are left out may be changed, as long as they stay out. -/
theorem filter_changed {f : α → α} (hkept : ∀ x ∈ rows, P x = true → f x = x)
    (hout : ∀ x ∈ rows, P x = false → P (f x) = false) :
    (rows.map f).filter P = rows.filter P := by
  induction rows with
  | nil => rfl
  | cons x rows ih =>
      obtain ⟨hx, hkept⟩ := List.forall_mem_cons.1 hkept
      obtain ⟨hx', hout⟩ := List.forall_mem_cons.1 hout
      rw [List.map_cons]
      cases hP : P x with
      | true =>
          rw [hx hP, List.filter_cons_of_pos hP, List.filter_cons_of_pos hP, ih hkept hout]
      | false =>
          rw [List.filter_cons_of_neg (by rw [hx' hP]; decide),
            List.filter_cons_of_neg (by rw [hP]; decide), ih hkept hout]

end Filter

/-! ## Stores that agree outside a vault -/

namespace Store

/-- The vault a vote belongs to: the one whose proposal it is on. -/
def vaultOfVote? (s : Store) (v : Vote) : Option Uuid :=
  (s.proposal? v.proposalId).map (·.vaultId)

/-- Two stores hold the same outside a vault: the same vaults, assets, snapshots,
proposals with their options and votes, as far as they do not belong to it, each in the
same order, and the same claims and settings. -/
structure AgreeOutside (id : Uuid) (s s' : Store) : Prop where
  vaults : s'.vaults.filter (fun v => v.id ≠ id) = s.vaults.filter fun v => v.id ≠ id
  assets : s'.assets.filter (fun a => a.vaultId ≠ id) = s.assets.filter fun a => a.vaultId ≠ id
  snapshots :
    s'.snapshots.filter (fun x => x.vaultId ≠ id) = s.snapshots.filter fun x => x.vaultId ≠ id
  proposals :
    s'.proposals.filter (fun p => p.vaultId ≠ id) = s.proposals.filter fun p => p.vaultId ≠ id
  votes : s'.votes.filter (fun v => s'.vaultOfVote? v ≠ some id) =
    s.votes.filter fun v => s.vaultOfVote? v ≠ some id
  claims : s'.claims = s.claims
  settings : s'.settings = s.settings

namespace AgreeOutside

variable {c : Context} {s s' s'' : Store} {id : Uuid}

theorem refl (id : Uuid) (s : Store) : s.AgreeOutside id s := ⟨rfl, rfl, rfl, rfl, rfl, rfl, rfl⟩

theorem trans (h : s.AgreeOutside id s') (h' : s'.AgreeOutside id s'') : s.AgreeOutside id s'' where
  vaults := h'.vaults.trans h.vaults
  assets := h'.assets.trans h.assets
  snapshots := h'.snapshots.trans h.snapshots
  proposals := h'.proposals.trans h.proposals
  votes := h'.votes.trans h.votes
  claims := h'.claims.trans h.claims
  settings := h'.settings.trans h.settings

/-- The row of the vault may be replaced. -/
theorem putVault (s : Store) (v : Vault) : s.AgreeOutside v.id (s.putVault v) := by
  refine { refl v.id s with vaults := filter_changed ?_ ?_ }
  · intro u _ hu
    exact if_neg (of_decide_eq_true hu)
  · intro u _ hu
    have hid : u.id = v.id := not_not.1 (of_decide_eq_false hu)
    rw [if_pos hid]
    exact decide_eq_false (not_not.2 rfl)

/-- The row of an asset of the vault may be replaced by another. -/
theorem putAsset (hs : s.Numbered) {a a' : Asset} (found : s.asset? a.id = some a)
    (hid : a'.id = a.id) (hvault : a'.vaultId = a.vaultId) :
    s.AgreeOutside a.vaultId (s.putAsset a') := by
  refine { refl a.vaultId s with assets := filter_changed ?_ ?_ }
  · intro b hb hvaultb
    refine if_neg fun hsame => of_decide_eq_true hvaultb ?_
    have hfound := hs.asset?_of_mem hb
    rw [hsame, hid, found] at hfound
    rw [Option.some.inj hfound]
  · intro b _ hb
    split
    · exact decide_eq_false (not_not.2 hvault)
    · exact hb

theorem addAsset (s : Store) (a : Asset) : s.AgreeOutside a.vaultId (s.addAsset a) :=
  { refl a.vaultId s with assets := filter_added (decide_eq_false (not_not.2 rfl)) }

/-- The assets of the vault may be moved. -/
theorem moveHeld (s : Store) (id : Uuid) (source target : AssetStatus) (time : Timestamp) :
    s.AgreeOutside id (s.moveHeld id source target time) := by
  refine { refl id s with assets := filter_changed ?_ ?_ }
  · intro a _ ha
    refine if_neg fun hheld => of_decide_eq_true ha ?_
    rw [Asset.isHeld_iff] at hheld
    exact hheld.1
  · intro a _ ha
    split
    · rw [Asset.vaultId_moved]
      exact ha
    · exact ha

theorem settleAssets (s : Store) (id : Uuid) (target : VaultStage) (time : Timestamp) :
    s.AgreeOutside id (s.settleAssets id target time) := by
  rw [Store.settleAssets]
  split
  · exact moveHeld s id .pending .locked time
  · split
    · exact moveHeld s id .locked .released time
    · exact refl id s

/-- Only assets of the vault are paid out. -/
theorem of_paidOut {time : Timestamp} {ids : List Uuid} (h : PaidOut time id ids s s')
    (hs : s.Numbered) : s.AgreeOutside id s' := by
  induction h with
  | nil s => exact refl id s
  | cons found owner locked others ih =>
      subst owner
      exact (putAsset hs found (Asset.id_moved _ _ _) (Asset.vaultId_moved _ _ _)).trans
        (ih (hs.putAsset _))

theorem addSnapshot (s : Store) (x : Snapshot) : s.AgreeOutside x.vaultId (s.addSnapshot x) :=
  { refl x.vaultId s with snapshots := filter_added (decide_eq_false (not_not.2 rfl)) }

/-- A proposal may be added.  No vote was waiting for it. -/
theorem addProposal (hvotes : ∀ v ∈ s.votes, ∃ p, s.proposal? v.proposalId = some p)
    (p : Proposal) : s.AgreeOutside p.vaultId (s.addProposal p) := by
  refine { refl p.vaultId s with
    proposals := filter_added (decide_eq_false (not_not.2 rfl))
    votes := List.filter_congr fun v hv => ?_ }
  obtain ⟨q, hq⟩ := hvotes v hv
  rw [vaultOfVote?, vaultOfVote?, Store.proposal?_addProposal hq, hq]

/-- The row of a proposal of the vault may go on. -/
theorem putProposal (hs : s.Numbered) {p q : Proposal} (found : s.proposal? p.id = some p)
    (hf : p.Follows q) : s.AgreeOutside p.vaultId (s.putProposal q) := by
  refine { refl p.vaultId s with
    proposals := filter_changed ?_ ?_
    votes := List.filter_congr fun v _ => ?_ }
  · intro r hr hvault
    refine if_neg fun hsame => of_decide_eq_true hvault ?_
    have hfound := hs.proposal?_of_mem hr
    rw [hsame, hf.id, found] at hfound
    rw [Option.some.inj hfound]
  · intro r _ hr
    split
    · exact decide_eq_false (not_not.2 hf.vaultId)
    · exact hr
  · have hvault : (s.putProposal q).vaultOfVote? v = s.vaultOfVote? v := by
      rw [vaultOfVote?, vaultOfVote?, Store.proposal?_putProposal]
      split
      · next hid =>
        rw [hid, hf.id, found]
        exact congrArg some hf.vaultId
      · rfl
    rw [hvault]

theorem addVote {p : Proposal} {v : Vote} (found : s.proposal? v.proposalId = some p) :
    s.AgreeOutside p.vaultId (s.addVote v) := by
  refine { refl p.vaultId s with votes := filter_added (decide_eq_false (not_not.2 ?_)) }
  exact congrArg (Option.map (·.vaultId)) found

/-- Moving a proposal writes its own row, and rows of its vault when it is executed. -/
theorem of_moved (hs : s.Numbered) {p q : Proposal} (found : s.proposal? p.id = some p)
    (h : Proposal.Moved c s p q s') : s.AgreeOutside p.vaultId (s'.putProposal q) := by
  have hput (hs' : s'.Numbered) (hfound : s'.proposal? p.id = some p) :
      s'.AgreeOutside p.vaultId (s'.putProposal q) := putProposal hs' hfound (.of_moved h)
  cases h with
  | @executed v s' status vault effect =>
      have howner : v.id = p.vaultId := Store.id_of_vault? vault
      cases effect with
      | distribution type script read paid =>
          rw [howner] at paid
          obtain ⟨assets, hrest⟩ := paid.rest
          exact (of_paidOut paid hs).trans (hput (hs.of_paidOut paid) (by rw [hrest]; exact found))
      | termination type stage =>
          have hvault := putVault s (v.entered .terminating none c.now)
          have hid : (v.entered .terminating none c.now).id = p.vaultId := howner
          rw [hid] at hvault
          exact hvault.trans (hput (hs.putVault _) found)
      | none type => exact hput hs found
  | _ => exact hput hs found

end AgreeOutside

end Store

/-! ## One operation -/

namespace Operation

/-- The vault that an operation is addressed to: by its own identifier, or by that of an
asset or a proposal of the vault. -/
def vault? (s : Store) : Operation → Option Uuid
  | getVault id | advanceVault id _ _ | failVault id _ | recordApplyParams id _
  | recordDispatchScript id _ | recordAcquireResults id _ _ => some id
  | createAsset vaultId _ | listAssets vaultId _ | lockPendingAssets vaultId
  | releaseLockedAssets vaultId | distributeAssets vaultId _ => some vaultId
  | getAsset id | transitionAsset id _ | updateAsset id _ => (s.asset? id).map (·.vaultId)
  | createSnapshot vaultId _ _ | latestSnapshot vaultId | listSnapshots vaultId => some vaultId
  | createProposal vaultId _ => some vaultId
  | getProposal id | markFeePaid id | openVoting id | finalizeProposal id | executeProposal id
  | castVote id _ _ _ | tally id => (s.proposal? id).map (·.vaultId)
  | createVault _ _ _ | proposalFee _ | getClaim _ | normalizeClaims _ _ | ensureSettings
  | getSetting _ _ | getAllSettings | updateSettings _ | setSetting _ _ | deleteSetting _
  | votingFee | seedSettings => none

variable {c : Context} {w w' : World} {op : Operation} {id : Uuid}

/-- A new asset belongs to the vault in which it is recorded. -/
theorem vaultId_of_createAsset {draft : Asset.Draft} {a : Asset}
    (h : Asset.create id draft c w = (.ok a, w')) : a.vaultId = id := by
  simp only [Asset.create, Action.bind_eq, Action.store_andThen] at h
  cases hv : w.store.vault? id with
  | none => simp [hv] at h
  | some v =>
      simp only [hv, Action.ofExcept_andThen_eq_ok, Action.now_andThen, Action.modify_andThen,
        Action.done_eq_ok] at h
      obtain ⟨_, -, _, -, _, -, _, -, _, -, _, -, rfl, -⟩ := h
      exact Store.id_of_vault? hv

theorem agreeOutside_of_advance {target : VaultStage} {reason : Option String} {v : Vault}
    (h : Vault.advance id target reason c w = (.ok v, w')) :
    w.store.AgreeOutside id w'.store := by
  obtain ⟨v, hv, -, -, hw⟩ := Vault.advance_ok h
  obtain rfl : v.id = id := Store.id_of_vault? hv
  rw [hw]
  exact (Store.AgreeOutside.putVault _ (v.entered target reason c.now)).trans
    (.settleAssets _ _ _ _)

theorem agreeOutside_of_reconfigure {change : Vault → Vault} {v : Vault}
    (h : Vault.reconfigure id change c w = (.ok v, w')) (hid : ∀ v, (change v).id = v.id) :
    w.store.AgreeOutside id w'.store := by
  obtain ⟨v, hv, rfl, hw⟩ := Vault.reconfigure_ok h
  obtain rfl : v.id = id := Store.id_of_vault? hv
  rw [hw, ← hid v]
  exact .putVault _ { change v with updatedAt := some c.now }

/-- The vault of a row that was found is the one that the row is addressed by. -/
theorem owner_of_found {α : Type} {found : Option α} {row : α} {vaultId : α → Uuid}
    (hrow : found = some row) (h : found.map vaultId = some id) : vaultId row = id := by
  rw [hrow] at h
  exact Option.some.inj h

theorem agreeOutside_of_moved {proposalId : Uuid} {p q : Proposal} {s' : Store}
    (hs : w.store.Numbered) (hvault : (w.store.proposal? proposalId).map (·.vaultId) = some id)
    (hp : w.store.proposal? proposalId = some p) (hmoved : Proposal.Moved c w.store p q s')
    (hw : w'.store = s'.putProposal q) : w.store.AgreeOutside id w'.store := by
  obtain rfl := Store.id_of_proposal? hp
  rw [hw, ← owner_of_found hp hvault]
  exact .of_moved hs hp hmoved

/-- An operation that succeeds leaves what is outside its vault. -/
theorem agreeOutside_of_ok {u : Unit} (hs : w.store.Numbered) (href : w.store.Referring)
    (hvault : op.vault? w.store = some id) (h : op.action c w = (.ok u, w')) :
    w.store.AgreeOutside id w'.store := by
  cases op <;> simp only [action, Action.discarded_eq_ok] at h <;> obtain ⟨r, h⟩ := h <;>
    simp only [vault?, Option.some.injEq, reduceCtorEq] at hvault
  case getVault =>
    obtain ⟨-, rfl⟩ := Vault.find_eq_ok.1 h
    exact .refl id _
  case advanceVault => exact hvault ▸ agreeOutside_of_advance h
  case failVault => exact hvault ▸ agreeOutside_of_advance h
  case recordApplyParams => exact hvault ▸ agreeOutside_of_reconfigure h fun _ => rfl
  case recordDispatchScript => exact hvault ▸ agreeOutside_of_reconfigure h fun _ => rfl
  case recordAcquireResults =>
    obtain ⟨v, hv, hrow, hw⟩ := Vault.recordAcquireResults_ok h
    obtain rfl := Store.id_of_vault? hv
    have hid : r.id = v.id := (Vault.Follows.of_reconfigured hrow).id
    rw [hw, ← hvault, ← hid]
    exact .putVault _ r
  case createAsset =>
    obtain ⟨-, hw⟩ := Asset.create_ok h
    rw [hw, ← hvault, ← vaultId_of_createAsset h]
    exact .addAsset _ r
  case getAsset =>
    obtain ⟨-, rfl⟩ := Asset.find_eq_ok.1 h
    exact .refl id _
  case listAssets =>
    obtain rfl := Asset.list_ok h
    exact .refl id _
  case transitionAsset =>
    obtain ⟨a, ha, -, hw⟩ := Asset.transition_ok h
    obtain rfl := Store.id_of_asset? ha
    rw [hw, ← owner_of_found ha hvault]
    exact .putAsset hs ha (Asset.id_moved _ _ _) (Asset.vaultId_moved _ _ _)
  case updateAsset =>
    obtain ⟨a, ha, hrow, hw⟩ := Asset.update_ok h
    obtain rfl := Store.id_of_asset? ha
    have hf := Asset.Follows.of_edited hrow
    rw [hw, ← owner_of_found ha hvault]
    exact .putAsset hs ha hf.id hf.vaultId
  case lockPendingAssets vaultId =>
    rw [Asset.moveAll_ok h, ← hvault]
    exact .moveHeld _ vaultId _ _ _
  case releaseLockedAssets vaultId =>
    rw [Asset.moveAll_ok h, ← hvault]
    exact .moveHeld _ vaultId _ _ _
  case distributeAssets => exact hvault ▸ .of_paidOut (Asset.distribute_ok h) hs
  case createSnapshot =>
    obtain ⟨v, texts, assetId, hv, -, -, hw⟩ := Snapshot.create_ok h
    obtain rfl := Store.id_of_vault? hv
    rw [hw, ← hvault]
    exact .addSnapshot _ ⟨_, v.id, assetId, _, c.now⟩
  case latestSnapshot =>
    obtain rfl := Snapshot.latest_ok h
    exact .refl id _
  case listSnapshots =>
    obtain rfl := Snapshot.list_ok h
    exact .refl id _
  case createProposal =>
    obtain ⟨v, x, rfl, -, row, hw⟩ := Proposal.create_ok h
    obtain ⟨-, hpvault, -⟩ := row.fields
    rw [hw, ← hvault, ← hpvault]
    refine .addProposal (fun v hv => ?_) r
    obtain ⟨p, hp, -⟩ := href.votes v hv
    exact ⟨p, hp⟩
  case getProposal =>
    obtain ⟨-, rfl⟩ := Proposal.find_eq_ok.1 h
    exact .refl id _
  case markFeePaid =>
    obtain ⟨p, hp, -, hmoved, hw⟩ := Proposal.markFeePaid_ok h
    exact agreeOutside_of_moved hs hvault hp hmoved hw
  case openVoting =>
    obtain ⟨p, hp, -, hmoved, hw⟩ := Proposal.openVoting_ok h
    exact agreeOutside_of_moved hs hvault hp hmoved hw
  case finalizeProposal =>
    obtain ⟨p, hp, -, hmoved, hw⟩ := Proposal.finalize_ok h
    exact agreeOutside_of_moved hs hvault hp hmoved hw
  case executeProposal =>
    obtain ⟨p, s', hp, -, hmoved, hw⟩ := Proposal.execute_ok h
    exact agreeOutside_of_moved hs hvault hp hmoved hw
  case castVote =>
    obtain ⟨p, hp, htaken, hw⟩ := Vote.cast_ok h
    rw [hw, ← owner_of_found hp hvault]
    refine .addVote ?_
    rw [htaken.proposal, Store.id_of_proposal? hp]
    exact hp
  case tally =>
    obtain ⟨_, -, -, rfl⟩ := Vote.tally_ok h
    exact .refl id _

/-- An operation on a vault that fails leaves the store as it was, or with assets of the
vault paid out. -/
theorem store_of_error {e : Fault} (hvault : op.vault? w.store = some id)
    (h : op.action c w = (.error e, w')) :
    ∃ paid, PaidOut c.now id paid w.store w'.store := by
  have kept (hw : w'.store = w.store) : ∃ paid, PaidOut c.now id paid w.store w'.store := by
    rw [hw]
    exact ⟨[], .nil _⟩
  have atomic {α : Type} {act : Action α} (hact : act.Atomic)
      (h : act.discarded c w = (.error e, w')) :
      ∃ paid, PaidOut c.now id paid w.store w'.store := kept (hact.discarded _ _ _ _ h)
  cases op <;> simp only [vault?, Option.some.injEq, reduceCtorEq] at hvault
  case getVault => exact atomic (Vault.looks_find _).atomic h
  case advanceVault => exact atomic (Vault.atomic_advance _ _ _) h
  case failVault => exact atomic (Vault.atomic_advance _ _ _) h
  case recordApplyParams => exact atomic (Vault.atomic_reconfigure _ _) h
  case recordDispatchScript => exact atomic (Vault.atomic_reconfigure _ _) h
  case recordAcquireResults => exact atomic (Vault.atomic_recordAcquireResults _ _ _) h
  case createAsset => exact atomic (Asset.atomic_create _ _) h
  case getAsset => exact atomic (Asset.looks_find _).atomic h
  case listAssets => exact atomic (Asset.looks_list _ _).atomic h
  case transitionAsset => exact atomic (Asset.atomic_transition _ _) h
  case updateAsset => exact atomic (Asset.atomic_update _ _) h
  case lockPendingAssets => exact atomic (Asset.succeeds_moveAll _ _ _).atomic h
  case releaseLockedAssets => exact atomic (Asset.succeeds_moveAll _ _ _).atomic h
  case distributeAssets => exact hvault ▸ Asset.distribute_error (Action.error_of_discarded h)
  case createSnapshot => exact atomic (Snapshot.atomic_create _ _ _) h
  case latestSnapshot => exact atomic (Snapshot.looks_latest _).atomic h
  case listSnapshots => exact atomic (Snapshot.looks_list _).atomic h
  case createProposal => exact atomic (Proposal.atomic_create _ _) h
  case getProposal => exact atomic (Proposal.looks_find _).atomic h
  case markFeePaid => exact atomic (Proposal.atomic_markFeePaid _) h
  case openVoting => exact atomic (Proposal.atomic_openVoting _) h
  case finalizeProposal => exact atomic (Proposal.atomic_finalize _) h
  case executeProposal =>
    rcases Proposal.execute_error (Action.error_of_discarded h) with hw | ⟨p, paid, hp, hpaid⟩
    · exact kept hw
    · rw [hp] at hvault
      obtain rfl : p.vaultId = id := Option.some.inj hvault
      exact ⟨paid, hpaid⟩
  case castVote => exact atomic (Vote.atomic_cast _ _ _ _) h
  case tally => exact atomic (Vote.looks_tally _).atomic h

/-- Whatever its outcome, an operation leaves what is outside its vault, even before it
is undone where it failed. -/
theorem agreeOutside_of_action (c : Context) (hs : w.store.Numbered) (href : w.store.Referring)
    (hvault : op.vault? w.store = some id) :
    w.store.AgreeOutside id (op.action c w).2.store := by
  rcases h : op.action c w with ⟨e | u, w'⟩
  · obtain ⟨paid, hpaid⟩ := store_of_error hvault h
    exact .of_paidOut hpaid hs
  · exact agreeOutside_of_ok hs href hvault h

end Operation

/-! ## Runs -/

/-- A world in which no vault was made yet.  There may be claims and settings, and rows
may have been numbered. -/
def World.founded (claims : List Claim) (settings : Option SettingsRow) (serial : Nat) : World :=
  ⟨{ claims, settings, serial }, []⟩

/-- Vaults are isolated.  Let calls lead to a world from one with any claims and settings
and without vaults, and let an operation be addressed there to a vault, to an asset of
it or to a proposal of it.  Whatever the outcome of the operation, the store holds the
same outside that vault as before: every other vault with its assets, snapshots,
proposals and votes, every claim and the settings.  That is so for what the operation
itself leaves behind, a payout that stopped at an asset of another vault included, and
for what is there once it has been undone if it failed. -/
theorem vaults_isolated (claims : List Claim) (settings : Option SettingsRow) (serial : Nat)
    (calls : List Call) (k : Call) (id : Uuid)
    (h : k.operation.vault? ((World.founded claims settings serial).after calls).store =
      some id) :
    let w := (World.founded claims settings serial).after calls
    w.store.AgreeOutside id (k.operation.action k.context w).2.store ∧
      w.store.AgreeOutside id (w.called k).store := by
  intro w
  obtain ⟨hnumbered, hreferring⟩ : w.store.Numbered ∧ w.store.Referring :=
    World.after_referring (w := World.founded claims settings serial)
      ⟨.nil, .nil, .nil, .nil, .nil, by simp [World.founded]⟩
      (by constructor <;> simp [World.founded]) calls
  have haction := Operation.agreeOutside_of_action k.context hnumbered hreferring h
  refine ⟨haction, ?_⟩
  rw [World.called, Action.transaction]
  rcases hrun : k.operation.action k.context w with ⟨e | u, w'⟩
  · exact .refl id _
  · rw [hrun] at haction
    exact haction

namespace Sample

/-- Two vaults, each with one locked asset. -/
def neighbours : List Call :=
  [call 1 (.createVault (some "Treasury") none none),
    call 2 (.createVault (some "Reserve") none none),
    call 3 (.createAsset (.ofSerial 1) { policyId := some "policy", assetName := some "token" }),
    call 4 (.createAsset (.ofSerial 2) { policyId := some "policy", assetName := some "coin" }),
    call 5 (.lockPendingAssets (.ofSerial 1)),
    call 6 (.lockPendingAssets (.ofSerial 2))]

/-- The first vault pays out its own asset and that of the second. -/
def reaching : Call := call 7 (.distributeAssets (.ofSerial 1) [.ofSerial 3, .ofSerial 4])

end Sample

/-- A payout that stops at the asset of another vault, with one claim in the store. -/
theorem vaults_isolated_of_sample :
    let w := (World.founded [default] none 0).after Sample.neighbours
    let reached := (Sample.reaching.operation.action Sample.reaching.context w).2.store
    let kept := (w.called Sample.reaching).store
    Sample.reaching.operation.vault? w.store = some (.ofSerial 1) ∧
      reached.assets.map (·.status) = [.distributed, .locked] ∧
      kept.assets.map (·.status) = [.locked, .locked] ∧
      w.store.AgreeOutside (.ofSerial 1) reached ∧ w.store.AgreeOutside (.ofSerial 1) kept :=
  ⟨by decide +kernel, by decide +kernel, by decide +kernel,
    vaults_isolated [default] none 0 Sample.neighbours Sample.reaching (.ofSerial 1)
      (by decide +kernel)⟩

end VaultGovernance
