import Mathlib
import VaultGovernance.Proofs.Change.Run

/-!
# VaultGovernance.Proofs.History

How the rows of a store go on.  No operation deletes a row, a row moves along
the table of its statuses only, and most of its columns are fixed when it is
made: a snapshot never changes at all, a proposal keeps its ballot, its payload
and its snapshot, and a vault keeps its thresholds.

`Store.Before s s'` says all of this about two stores at once.  It is a
preorder, every change is an instance, and so every run is one.
-/

namespace VaultGovernance

/-! ## Paths through a table of statuses -/

/-- The second status is the first one or comes later. -/
def Leads {σ : Type} (next : σ → List σ) : σ → σ → Prop :=
  Relation.ReflTransGen fun a b => b ∈ next a

namespace Leads

variable {σ : Type} {next : σ → List σ} {a b d : σ}

theorem refl (a : σ) : Leads next a a := Relation.ReflTransGen.refl

theorem trans (h : Leads next a b) (h' : Leads next b d) : Leads next a d :=
  Relation.ReflTransGen.trans h h'

instance : Trans (Leads next) (Leads next) (Leads next) := ⟨trans⟩

theorem of_edge (h : b ∈ next a) : Leads next a b := Relation.ReflTransGen.single h

/-- Statuses that are closed under moving are not left. -/
theorem closed {P : σ → Prop} (h : Leads next a b)
    (step : ∀ x y, P x → y ∈ next x → P y) (ha : P a) : P b := by
  induction h with
  | refl => exact ha
  | tail _ hedge ih => exact step _ _ ih hedge

/-- A status without a successor is kept. -/
theorem eq_of_final (h : Leads next a b) (hfinal : next a = []) : b = a := by
  refine h.closed (P := fun x => x = a) ?_ rfl
  rintro x y rfl hy
  rw [hfinal] at hy
  cases hy

/-- Where moving raises a rank, no status comes back once it was left. -/
theorem antisymm (rank : σ → Nat) (raised : ∀ x y, y ∈ next x → rank x < rank y)
    (h : Leads next a b) (h' : Leads next b a) : a = b := by
  have hle {x y : σ} (hxy : Leads next x y) : rank x ≤ rank y := by
    induction hxy with
    | refl => exact Nat.le_refl _
    | tail _ hedge ih => exact Nat.le_trans ih (raised _ _ hedge).le
  cases Relation.ReflTransGen.cases_head h with
  | inl hsame => exact hsame
  | inr hmoved =>
      obtain ⟨x, hedge, hrest⟩ := hmoved
      have hup := raised _ _ hedge
      have hback := hle (trans hrest h')
      omega

end Leads

/-! ## Rows that go on -/

/-- A later row of an asset. -/
structure Asset.Follows (a a' : Asset) : Prop where
  id : a'.id = a.id
  vaultId : a'.vaultId = a.vaultId
  origin : a'.origin = a.origin
  createdAt : a'.createdAt = a.createdAt
  status : Leads AssetStatus.next a.status a'.status

namespace Asset.Follows

variable {a a' a'' : Asset}

theorem refl (a : Asset) : a.Follows a := ⟨rfl, rfl, rfl, rfl, .refl _⟩

theorem trans (h : a.Follows a') (h' : a'.Follows a'') : a.Follows a'' where
  id := h'.id.trans h.id
  vaultId := h'.vaultId.trans h.vaultId
  origin := h'.origin.trans h.origin
  createdAt := h'.createdAt.trans h.createdAt
  status := h.status.trans h'.status

theorem of_moved {target : AssetStatus} (time : Timestamp) (hedge : target ∈ a.status.next) :
    a.Follows (a.moved target time) := by
  constructor
  case status => exact .of_edge hedge
  all_goals cases target <;> rfl

theorem of_edited {time : Timestamp} (h : Asset.Edited time a a') : a.Follows a' := by
  rw [h]
  exact ⟨rfl, rfl, rfl, rfl, .refl _⟩

end Asset.Follows

/-- A later row of a vault. -/
structure Vault.Follows (v v' : Vault) : Prop where
  id : v'.id = v.id
  name : v'.name = v.name
  executionThreshold : v'.executionThreshold = v.executionThreshold
  participationThreshold : v'.participationThreshold = v.participationThreshold
  createdAt : v'.createdAt = v.createdAt
  stage : Leads VaultStage.next v.stage v'.stage

namespace Vault.Follows

variable {v v' v'' : Vault}

theorem refl (v : Vault) : v.Follows v := ⟨rfl, rfl, rfl, rfl, rfl, .refl _⟩

theorem trans (h : v.Follows v') (h' : v'.Follows v'') : v.Follows v'' where
  id := h'.id.trans h.id
  name := h'.name.trans h.name
  executionThreshold := h'.executionThreshold.trans h.executionThreshold
  participationThreshold := h'.participationThreshold.trans h.participationThreshold
  createdAt := h'.createdAt.trans h.createdAt
  stage := h.stage.trans h'.stage

theorem of_entered {target : VaultStage} (reason : Option String) (time : Timestamp)
    (hedge : target ∈ v.stage.next) : v.Follows (v.entered target reason time) :=
  ⟨rfl, rfl, rfl, rfl, rfl, .of_edge hedge⟩

theorem of_reconfigured {time : Timestamp} (h : Vault.Reconfigured time v v') : v.Follows v' := by
  rw [h.rest]
  exact ⟨rfl, rfl, rfl, rfl, rfl, .refl _⟩

end Vault.Follows

/-- A later row of a proposal: only its status and the dates that go with it
are others. -/
structure Proposal.Follows (p q : Proposal) : Prop where
  row : q = { p with
    status := q.status
    startDate := q.startDate
    endDate := q.endDate
    executionDate := q.executionDate
    updatedAt := q.updatedAt }
  status : Leads ProposalStatus.next p.status q.status

namespace Proposal.Follows

variable {p q r : Proposal}

theorem refl (p : Proposal) : p.Follows p := ⟨rfl, .refl _⟩

theorem trans (h : p.Follows q) (h' : q.Follows r) : p.Follows r := by
  constructor
  · rw [h'.row, h.row]
  · exact h.status.trans h'.status

theorem id (h : p.Follows q) : q.id = p.id := by rw [h.row]

theorem vaultId (h : p.Follows q) : q.vaultId = p.vaultId := by rw [h.row]

theorem snapshotId (h : p.Follows q) : q.snapshotId = p.snapshotId := by rw [h.row]

theorem type (h : p.Follows q) : q.type = p.type := by rw [h.row]

theorem distributionAssets (h : p.Follows q) :
    q.distributionAssets = p.distributionAssets := by rw [h.row]

theorem hasCustomOptions (h : p.Follows q) : q.hasCustomOptions = p.hasCustomOptions := by
  rw [h.row]

theorem ballot (h : p.Follows q) : q.ballot = p.ballot := by
  rw [h.row]
  rfl

theorem of_moved {c : Context} {s s' : Store} (h : Proposal.Moved c s p q s') : p.Follows q := by
  cases h with
  | feePaid status => exact ⟨rfl, .of_edge (by simp [status, entered, ProposalStatus.next])⟩
  | opened status => exact ⟨rfl, .of_edge (by simp [status, entered, ProposalStatus.next])⟩
  | @closed v passed result status vault decision =>
      refine ⟨rfl, .of_edge ?_⟩
      cases passed <;> simp [status, entered, ProposalStatus.next]
  | executed status vault effect =>
      exact ⟨rfl, .of_edge (by simp [status, entered, ProposalStatus.next])⟩

end Proposal.Follows

/-! ## What a change leaves alone -/

section Rest

variable {c : Context} {s s' : Store} {time : Timestamp}

/-- An asset that is found after many were moved is one that was found before, moved
if its vault held it in the status they left. -/
theorem Store.asset?_moveHeld (s : Store) (vaultId : Uuid) (source target : AssetStatus)
    (time : Timestamp) (id : Uuid) :
    (s.moveHeld vaultId source target time).asset? id = (s.asset? id).map fun a =>
      if Asset.isHeld vaultId source a then a.moved target time else a := by
  refine find?_changed Asset.id (fun a => ?_) id
  split
  · exact Asset.id_moved a target time
  · rfl

/-- Settling the assets of a vault changes assets only. -/
theorem Store.settleAssets_rest (s : Store) (vaultId : Uuid) (target : VaultStage)
    (time : Timestamp) :
    ∃ assets, s.settleAssets vaultId target time = { s with assets } := by
  rw [settleAssets]
  split
  · exact ⟨_, rfl⟩
  · split
    · exact ⟨_, rfl⟩
    · exact ⟨s.assets, rfl⟩

/-- Paying out changes assets only. -/
theorem PaidOut.rest {vaultId : Uuid} {ids : List Uuid} (h : PaidOut time vaultId ids s s') :
    ∃ assets, s' = { s with assets } := by
  induction h with
  | nil s => exact ⟨s.assets, rfl⟩
  | cons _ _ _ _ ih =>
      obtain ⟨assets, rfl⟩ := ih
      exact ⟨assets, rfl⟩

/-- Effects change the vault and its assets only. -/
theorem Effect.rest {p : Proposal} {v : Vault} (h : Effect time p v s s') :
    ∃ vaults assets, s' = { s with vaults, assets } := by
  cases h with
  | distribution _ _ _ paid =>
      obtain ⟨assets, rfl⟩ := paid.rest
      exact ⟨s.vaults, assets, rfl⟩
  | termination => exact ⟨_, s.assets, rfl⟩
  | none => exact ⟨s.vaults, s.assets, rfl⟩

/-- Moving a proposal touches the vault and its assets at most, before the row of
the proposal is written. -/
theorem Proposal.Moved.rest {p q : Proposal} (h : Moved c s p q s') :
    ∃ vaults assets, s' = { s with vaults, assets } := by
  cases h with
  | executed _ _ effect => exact effect.rest
  | _ => exact ⟨s.vaults, s.assets, rfl⟩

/-- Governance adds snapshots, proposals and votes and moves proposals, one row
at a time.  Every other change leaves the three tables alone. -/
theorem Change.governance (h : Change c s s') :
    (s'.snapshots = s.snapshots ∧ s'.proposals = s.proposals ∧ s'.votes = s.votes) ∨
      (∃ v assetId balances texts, s.vault? v.id = some v ∧
        Snapshot.normalizeBalances balances = .ok texts ∧
        s' = s.addSnapshot
          ⟨s.nextId, v.id, assetId, Snapshot.balanceDocument texts, c.now⟩) ∨
      (∃ v x p, Proposal.Submitted c s v x p ∧ s' = s.addProposal p) ∨
      (∃ p q s₁, s.proposal? p.id = some p ∧ Proposal.Moved c s p q s₁ ∧
        s' = s₁.putProposal q) ∨
      ∃ p v, s.proposal? p.id = some p ∧ Vote.Taken c s p v ∧ s' = s.addVote v := by
  obtain ⟨op, h⟩ := h
  cases h with
  | @vaultAdvanced op v target =>
      obtain ⟨assets, h⟩ := (s.putVault _).settleAssets_rest v.id target c.now
      exact .inl (by rw [h]; exact ⟨rfl, rfl, rfl⟩)
  | assetsPaidOut paid =>
      obtain ⟨assets, rfl⟩ := paid.rest
      exact .inl ⟨rfl, rfl, rfl⟩
  | snapshotAdded assetId found governed canonical =>
      exact .inr (.inl ⟨_, assetId, _, _, found, canonical, rfl⟩)
  | proposalAdded type row => exact .inr (.inr (.inl ⟨_, _, _, row, rfl⟩))
  | proposalMoved found step moved =>
      exact .inr (.inr (.inr (.inl ⟨_, _, _, found, moved, rfl⟩)))
  | voteAdded found taken => exact .inr (.inr (.inr (.inr ⟨_, _, found, taken, rfl⟩)))
  | _ => exact .inl ⟨rfl, rfl, rfl⟩

/-- Votes are added one at a time and never changed. -/
theorem Change.votes (h : Change c s s') :
    s'.votes = s.votes ∨ ∃ p v, s.proposal? p.id = some p ∧ Vote.Taken c s p v ∧
      s' = s.addVote v := by
  obtain ⟨-, -, hvotes⟩ | ⟨v, assetId, balances, texts, -, -, rfl⟩ | ⟨v, x, p, -, rfl⟩ |
    ⟨p, q, s₁, -, hmoved, rfl⟩ | htaken := h.governance
  · exact .inl hvotes
  · exact .inl rfl
  · exact .inl rfl
  · obtain ⟨vaults, assets, rfl⟩ := hmoved.rest
    exact .inl rfl
  · exact .inr htaken

/-- Snapshots are added one at a time and never changed. -/
theorem Change.snapshots (h : Change c s s') :
    s'.snapshots = s.snapshots ∨ ∃ v assetId balances texts,
      s.vault? v.id = some v ∧ Snapshot.normalizeBalances balances = .ok texts ∧
      s' = s.addSnapshot
        ⟨s.nextId, v.id, assetId, Snapshot.balanceDocument texts, c.now⟩ := by
  obtain ⟨hsnapshots, -, -⟩ | hadded | ⟨v, x, p, -, rfl⟩ | ⟨p, q, s₁, -, hmoved, rfl⟩ |
    ⟨p, v, -, -, rfl⟩ := h.governance
  · exact .inl hsnapshots
  · exact .inr hadded
  · exact .inl rfl
  · obtain ⟨vaults, assets, rfl⟩ := hmoved.rest
    exact .inl rfl
  · exact .inl rfl

/-- A proposal that is there after a change was there before, is new, or has
just moved. -/
theorem Change.mem_proposals (h : Change c s s') {q : Proposal} (hq : q ∈ s'.proposals) :
    q ∈ s.proposals ∨ (∃ v x, Proposal.Submitted c s v x q ∧ s' = s.addProposal q) ∨
      ∃ p s₁, s.proposal? p.id = some p ∧ Proposal.Moved c s p q s₁ ∧
        s' = s₁.putProposal q := by
  obtain ⟨-, hproposals, -⟩ | ⟨v, assetId, balances, texts, -, -, rfl⟩ | ⟨v, x, p, hrow, rfl⟩ |
    ⟨p, q', s₁, hp, hmoved, rfl⟩ | ⟨p, v, -, -, rfl⟩ := h.governance
  · exact .inl (hproposals ▸ hq)
  · exact .inl hq
  · cases mem_added hq with
    | inl hold => exact .inl hold
    | inr hnew =>
        subst hnew
        exact .inr (.inl ⟨v, x, hrow, rfl⟩)
  · cases Store.mem_putProposal hq with
    | inl hnew =>
        subst hnew
        exact .inr (.inr ⟨p, s₁, hp, hmoved, rfl⟩)
    | inr hold =>
        obtain ⟨vaults, assets, rfl⟩ := hmoved.rest
        exact .inl hold
  · exact .inl hq

end Rest

/-! ## Stores that go on -/

/-- The second store comes after the first: every row that was found is still
found under its identifier and goes on, and the votes are still there. -/
structure Store.Before (s s' : Store) : Prop where
  vaults : ∀ {id v}, s.vault? id = some v → ∃ v', s'.vault? id = some v' ∧ v.Follows v'
  assets : ∀ {id a}, s.asset? id = some a → ∃ a', s'.asset? id = some a' ∧ a.Follows a'
  snapshots : ∀ {id x}, s.snapshot? id = some x → s'.snapshot? id = some x
  proposals : ∀ {id p}, s.proposal? id = some p → ∃ q, s'.proposal? id = some q ∧ p.Follows q
  votes : s.votes <+: s'.votes

namespace Store.Before

variable {s s' s'' : Store}

theorem refl (s : Store) : s.Before s where
  vaults {_ v} h := ⟨v, h, .refl v⟩
  assets {_ a} h := ⟨a, h, .refl a⟩
  snapshots h := h
  proposals {_ p} h := ⟨p, h, .refl p⟩
  votes := List.prefix_refl _

theorem trans (h : s.Before s') (h' : s'.Before s'') : s.Before s'' where
  vaults hv := by
    obtain ⟨_, hv', hf⟩ := h.vaults hv
    obtain ⟨_, hv'', hf'⟩ := h'.vaults hv'
    exact ⟨_, hv'', hf.trans hf'⟩
  assets ha := by
    obtain ⟨_, ha', hf⟩ := h.assets ha
    obtain ⟨_, ha'', hf'⟩ := h'.assets ha'
    exact ⟨_, ha'', hf.trans hf'⟩
  snapshots hx := h'.snapshots (h.snapshots hx)
  proposals hp := by
    obtain ⟨_, hp', hf⟩ := h.proposals hp
    obtain ⟨_, hp'', hf'⟩ := h'.proposals hp'
    exact ⟨_, hp'', hf.trans hf'⟩
  votes := h.votes.trans h'.votes

theorem putVault {v v' : Vault} (found : s.vault? v.id = some v) (h : v.Follows v') :
    s.Before (s.putVault v') :=
  { refl s with vaults := found_replaced Vault.id Vault.Follows.refl found h.id h }

theorem addVault (v : Vault) : s.Before (s.addVault v) :=
  { refl s with vaults := fun {_ u} h => ⟨u, vault?_addVault h, .refl u⟩ }

theorem putAsset {a a' : Asset} (found : s.asset? a.id = some a) (h : a.Follows a') :
    s.Before (s.putAsset a') :=
  { refl s with assets := found_replaced Asset.id Asset.Follows.refl found h.id h }

theorem addAsset (a : Asset) : s.Before (s.addAsset a) :=
  { refl s with assets := fun {_ b} h => ⟨b, asset?_addAsset h, .refl b⟩ }

theorem putProposal {p q : Proposal} (found : s.proposal? p.id = some p) (h : p.Follows q) :
    s.Before (s.putProposal q) :=
  { refl s with proposals := found_replaced Proposal.id Proposal.Follows.refl found h.id h }

theorem addProposal (p : Proposal) : s.Before (s.addProposal p) :=
  { refl s with proposals := fun {_ q} h => ⟨q, proposal?_addProposal h, .refl q⟩ }

theorem addSnapshot (x : Snapshot) : s.Before (s.addSnapshot x) :=
  { refl s with snapshots := snapshot?_addSnapshot }

theorem addVote (v : Vote) : s.Before (s.addVote v) :=
  { refl s with votes := List.prefix_append _ _ }

/-- Assets that are moved together go on one by one. -/
theorem moveHeld (vaultId : Uuid) {source target : AssetStatus} (time : Timestamp)
    (hedge : target ∈ source.next) : s.Before (s.moveHeld vaultId source target time) := by
  have hrow (a : Asset) :
      a.Follows (if Asset.isHeld vaultId source a then a.moved target time else a) := by
    split
    · next hheld =>
      have hstatus : a.status = source := by
        rw [Asset.isHeld_iff] at hheld
        exact hheld.2
      exact .of_moved time (hstatus ▸ hedge)
    · exact .refl a
  refine { refl s with assets := fun {id a} h => ⟨_, ?_, hrow a⟩ }
  rw [asset?_moveHeld, h, Option.map_some]

theorem settleAssets (vaultId : Uuid) (target : VaultStage) (time : Timestamp) :
    s.Before (s.settleAssets vaultId target time) := by
  rw [Store.settleAssets]
  split
  · exact moveHeld vaultId time (by simp [AssetStatus.next])
  · split
    · exact moveHeld vaultId time (by simp [AssetStatus.next])
    · exact refl s

theorem of_paidOut {time : Timestamp} {vaultId : Uuid} {ids : List Uuid}
    (h : PaidOut time vaultId ids s s') : s.Before s' := by
  induction h with
  | nil s => exact refl s
  | cons found owner locked others ih =>
      have hedge := Asset.distributed_mem_next.2 locked
      exact (putAsset found (.of_moved time hedge)).trans ih

theorem of_moved {c : Context} {p q : Proposal} (h : Proposal.Moved c s p q s') :
    s.Before s' := by
  cases h with
  | @executed v _ status vault effect =>
      cases effect with
      | distribution type script read paid => exact of_paidOut paid
      | termination type stage =>
          have hid : v.id = p.vaultId := Store.id_of_vault? vault
          exact putVault (hid ▸ vault) (.of_entered none c.now (by simp [stage, VaultStage.next]))
      | none type => exact refl s
  | _ => exact refl s

/-- A later row of a proposal is bound to the same snapshot. -/
theorem snapshotOf? (h : s.Before s') {p q : Proposal} (hf : p.Follows q) {x : Snapshot}
    (hx : s.snapshotOf? p = some x) : s'.snapshotOf? q = some x := by
  obtain ⟨id, hid, hfound⟩ := Option.bind_eq_some_iff.1 hx
  rw [Store.snapshotOf?, hf.snapshotId, hid]
  exact h.snapshots hfound

end Store.Before

/-- Every change goes on from the store it finds. -/
theorem Change.before {c : Context} {s s' : Store} (h : Change c s s') : s.Before s' := by
  obtain ⟨op, h⟩ := h
  cases h with
  | unchanged => exact .refl s
  | vaultAdded => exact .addVault _
  | vaultAdvanced reason found edge ready =>
      exact (Store.Before.putVault found (.of_entered reason c.now edge)).trans
        (.settleAssets _ _ _)
  | vaultRecorded found row => exact .putVault found (.of_reconfigured row)
  | assetAdded row => exact .addAsset _
  | assetMoved found edge => exact .putAsset found (.of_moved c.now edge)
  | assetsMoved vaultId step => exact .moveHeld vaultId c.now step.edge
  | assetsPaidOut paid => exact .of_paidOut paid
  | assetEdited found row => exact .putAsset found (.of_edited row)
  | snapshotAdded assetId found governed canonical => exact .addSnapshot _
  | proposalAdded type row => exact .addProposal _
  | proposalMoved found step moved =>
      obtain ⟨vaults, assets, hrest⟩ := moved.rest
      refine (Store.Before.of_moved moved).trans (.putProposal ?_ (.of_moved moved))
      rw [hrest]
      exact found
  | voteAdded found taken => exact .addVote _
  | claimsChanged claims => exact { Store.Before.refl s with }
  | settingsChanged row => exact { Store.Before.refl s with }

/-- Every run goes on from the store it starts in. -/
theorem World.before_after (w : World) (calls : List Call) :
    w.store.Before (w.after calls).store :=
  after_invariant (P := w.store.Before) (.refl _) (fun _ _ _ h hc => h.trans hc.before) calls

/-- A longer run goes on from the store that its beginning leads to. -/
theorem storeAfter_before (earlier later : List Call) :
    (storeAfter earlier).Before (storeAfter (earlier ++ later)) := by
  rw [storeAfter, storeAfter, World.after_append]
  exact World.before_after _ later

end VaultGovernance
