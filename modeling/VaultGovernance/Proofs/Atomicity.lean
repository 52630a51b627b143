import VaultGovernance.Proofs.Change.Governance

/-!
# VaultGovernance.Proofs.Atomicity

What an operation on a vault leaves behind when it fails.  A transaction puts the
store back, but most operations would not need one: they look and check first, and
from the first write on nothing can go wrong.  `Action.Looks` and `Action.Succeeds` are
the two halves of such an action, and `Action.Atomic` is what they add up to.

The exception is paying out a list of assets, which goes through the list and writes on
the way.  Where it fails, the assets before that place have been paid out.
-/

namespace VaultGovernance

namespace Action

variable {α β : Type} {act : Action α} {f : α → Action β} {c : Context} {w w' : World}

/-- A sequence fails in its first action or in the second. -/
theorem andThen_eq_error {e : Fault} :
    act.andThen f c w = (.error e, w') ↔
      act c w = (.error e, w') ∨ ∃ a w₁, act c w = (.ok a, w₁) ∧ f a c w₁ = (.error e, w') := by
  rw [andThen]
  rcases act c w with ⟨e' | a, w₁⟩
  · simp
  · constructor
    · exact fun h => .inr ⟨a, w₁, rfl, h⟩
    · rintro (h | ⟨a', w₂, h, hf⟩)
      · cases h
      · cases h
        exact hf

/-- Whatever its outcome, the action leaves the world as it was. -/
def Looks (act : Action α) : Prop := ∀ c w, (act c w).2 = w

/-- The action never fails. -/
def Succeeds (act : Action α) : Prop := ∀ c w, ∃ a, (act c w).1 = .ok a

/-- An action that fails leaves the store as it was. -/
def Atomic (act : Action α) : Prop :=
  ∀ c w e w', act c w = (.error e, w') → w'.store = w.store

/-! ## Single actions -/

theorem looks_store : store.Looks := fun _ _ => rfl

theorem looks_now : now.Looks := fun _ _ => rfl

theorem looks_configuration : configuration.Looks := fun _ _ => rfl

theorem looks_done (a : α) : (done a).Looks := fun _ _ => rfl

theorem looks_fail (e : Fault) : (fail e : Action α).Looks := fun _ _ => rfl

theorem looks_refuse (e : DomainError) : (refuse e : Action α).Looks := fun _ _ => rfl

theorem looks_ofExcept (x : Except Fault α) : (ofExcept x).Looks := by
  intro c w
  cases x <;> rfl

theorem succeeds_done (a : α) : (done a).Succeeds := fun _ _ => ⟨a, rfl⟩

theorem succeeds_modify (g : Store → Store) : (modify g).Succeeds := fun _ _ => ⟨(), rfl⟩

theorem succeeds_record (e : Event) : (record e).Succeeds := fun _ _ => ⟨(), rfl⟩

/-! ## Sequences -/

theorem Looks.andThen (h : act.Looks) (hf : ∀ a, (f a).Looks) : (act.andThen f).Looks := by
  intro c w
  have hw := h c w
  rw [Action.andThen]
  rcases hrun : act c w with ⟨e | a, w₁⟩ <;> rw [hrun] at hw
  · exact hw
  · obtain rfl : w₁ = w := hw
    exact hf a c w₁

theorem Succeeds.andThen (h : act.Succeeds) (hf : ∀ a, (f a).Succeeds) :
    (act.andThen f).Succeeds := by
  intro c w
  obtain ⟨a, ha⟩ := h c w
  rw [andThen_of_ok (Prod.ext ha rfl)]
  exact hf a c _

theorem Looks.atomic (h : act.Looks) : act.Atomic := by
  intro c w e w' hrun
  have hw := h c w
  rw [hrun] at hw
  rw [← hw]

theorem Succeeds.atomic (h : act.Succeeds) : act.Atomic := by
  intro c w e w' hrun
  obtain ⟨a, ha⟩ := h c w
  rw [hrun] at ha
  cases ha

/-- After an action that only looks, a sequence is atomic if the rest is. -/
theorem Atomic.after (h : act.Looks) (hf : ∀ a, (f a).Atomic) : (act.andThen f).Atomic := by
  intro c w e w' hrun
  rcases andThen_eq_error.1 hrun with hfirst | ⟨a, w₁, hfirst, hrest⟩
  · exact h.atomic _ _ _ _ hfirst
  · have hw := h c w
    rw [hfirst] at hw
    obtain rfl : w₁ = w := hw
    exact hf a _ _ _ _ hrest

/-- Before an action that never fails, a sequence is atomic if the beginning is. -/
theorem Atomic.before (h : act.Atomic) (hf : ∀ a, (f a).Succeeds) : (act.andThen f).Atomic := by
  intro c w e w' hrun
  rcases andThen_eq_error.1 hrun with hfirst | ⟨a, w₁, -, hrest⟩
  · exact h _ _ _ _ hfirst
  · obtain ⟨b, hb⟩ := hf a c w₁
    rw [hrest] at hb
    cases hb

/-- What is checked first decides whether the rest is reached. -/
theorem Atomic.check {x : Except Fault α} (hf : ∀ a, (f a).Atomic) :
    ((ofExcept x).andThen f).Atomic := .after (looks_ofExcept x) hf

/-- A check that is made on a condition writes nothing. -/
theorem Atomic.checkIf {P : Prop} [Decidable P] {check : Store → Except Fault Unit}
    {rest : Action β} (h : rest.Atomic) :
    (if P then store.andThen fun s => (ofExcept (check s)).andThen fun _ => rest
      else rest).Atomic := by
  split
  · exact .after looks_store fun _ => .check fun _ => h
  · exact h

theorem Atomic.discarded (h : act.Atomic) : act.discarded.Atomic :=
  h.before fun _ => succeeds_done ()

/-- Leaving out the result of an action does not fail. -/
theorem error_of_discarded {c : Context} {w w' : World} {e : Fault}
    (h : act.discarded c w = (.error e, w')) : act c w = (.error e, w') := by
  rcases andThen_eq_error.1 h with hfails | ⟨a, w₁, -, hdone⟩
  · exact hfails
  · cases hdone

end Action

open VaultGovernance.Action

variable {c : Context} {w w' : World}

/-! ## Assets -/

namespace Asset

theorem looks_find (id : Uuid) : (find id).Looks := by
  refine looks_store.andThen fun s => ?_
  cases s.asset? id with
  | none => exact looks_refuse _
  | some a => exact looks_done a

theorem looks_list (vaultId : Uuid) (status : Option AssetStatus) : (list vaultId status).Looks :=
  looks_store.andThen fun _ => looks_done _

theorem atomic_create (vaultId : Uuid) (draft : Draft) : (create vaultId draft).Atomic := by
  simp only [create, bind_eq]
  refine .after looks_store fun s => ?_
  cases s.vault? vaultId with
  | none => exact (looks_refuse _).atomic
  | some vault =>
      refine .check fun _ => .check fun _ => .check fun _ => .check fun _ => .check fun _ =>
        .check fun _ => .after looks_now fun _ => ?_
      exact ((succeeds_modify _).andThen fun _ => succeeds_done _).atomic

theorem atomic_move (a : Asset) (target : AssetStatus) : (move a target).Atomic := by
  rw [move]
  split
  · refine .after looks_now fun _ => ?_
    exact ((succeeds_modify _).andThen fun _ =>
      (succeeds_record _).andThen fun _ => succeeds_done _).atomic
  · exact (looks_refuse _).atomic

theorem atomic_transition (id : Uuid) (target : AssetStatus) : (transition id target).Atomic :=
  .after (looks_find id) fun a => atomic_move a target

theorem atomic_update (id : Uuid) (fields : OrderedMap Json) : (update id fields).Atomic := by
  rw [update]
  split
  · exact (looks_fail _).atomic
  · refine .after (looks_find id) fun a => .check fun _ => .after looks_now fun _ =>
      .check fun _ => ?_
    exact ((succeeds_modify _).andThen fun _ => succeeds_done _).atomic

theorem succeeds_moveAll (vaultId : Uuid) (source target : AssetStatus) :
    (moveAll vaultId source target).Succeeds := fun _ _ => ⟨_, rfl⟩

/-- A distribution that fails has paid out the listed assets before the one at which it
failed. -/
theorem distribute_error {vaultId : Uuid} {ids : List Uuid} {e : Fault}
    (h : distribute vaultId ids c w = (.error e, w')) :
    ∃ paid, PaidOut c.now vaultId paid w.store w'.store := by
  have stopped {w w' : World} (hw : w'.store = w.store) :
      ∃ paid, PaidOut c.now vaultId paid w.store w'.store := by
    rw [hw]
    exact ⟨[], .nil _⟩
  induction ids generalizing w with
  | nil => cases h
  | cons id rest ih =>
      rw [distribute, bind_eq, andThen_eq_error] at h
      rcases h with h | ⟨a, w₁, hfind, h⟩
      · exact stopped ((looks_find id).atomic _ _ _ _ h)
      · obtain ⟨ha, rfl⟩ := find_eq_ok.1 hfind
        obtain rfl : a.id = id := Store.id_of_asset? ha
        split at h
        · next howner =>
          rw [bind_eq, andThen_eq_error] at h
          rcases h with h | ⟨a', w₂, hmove, h⟩
          · exact stopped (atomic_move a .distributed _ _ _ _ h)
          · obtain ⟨hedge, rfl, hw₂⟩ := move_ok hmove
            rw [bind_eq, andThen_eq_error] at h
            rcases h with h | ⟨others, w₃, -, h⟩
            · obtain ⟨paid, hpaid⟩ := ih h
              rw [hw₂] at hpaid
              exact ⟨_, .cons ha howner (distributed_mem_next.1 hedge) hpaid⟩
            · cases h
        · exact stopped ((looks_refuse _).atomic _ _ _ _ h)

end Asset

/-! ## Vaults -/

namespace Vault

theorem looks_find (id : Uuid) : (find id).Looks := by
  refine looks_store.andThen fun s => ?_
  cases s.vault? id with
  | none => exact looks_refuse _
  | some v => exact looks_done v

theorem succeeds_moveAssets (id : Uuid) (target : VaultStage) :
    (moveAssets id target).Succeeds := by
  rw [moveAssets]
  split
  · exact Asset.succeeds_moveAll id .pending .locked
  · split
    · exact Asset.succeeds_moveAll id .locked .released
    · exact succeeds_done 0

theorem atomic_advance (id : Uuid) (target : VaultStage) (reason : Option String) :
    (advance id target reason).Atomic := by
  simp only [advance, bind_eq]
  refine .after (looks_find id) fun v => ?_
  split
  · split
    · refine .after looks_now fun _ => ?_
      exact ((succeeds_modify _).andThen fun _ => (succeeds_moveAssets _ _).andThen fun _ =>
        (succeeds_record _).andThen fun _ => succeeds_done _).atomic
    · exact (looks_refuse _).atomic
  · exact (looks_refuse _).atomic

theorem atomic_reconfigure (id : Uuid) (change : Vault → Vault) :
    (reconfigure id change).Atomic := by
  simp only [reconfigure, bind_eq]
  refine .after (looks_find id) fun v => .after looks_now fun _ => ?_
  exact ((succeeds_modify _).andThen fun _ => succeeds_done _).atomic

theorem atomic_recordAcquireResults (id : Uuid) (multiplier distribution : Json) :
    (recordAcquireResults id multiplier distribution).Atomic := by
  simp only [recordAcquireResults, bind_eq]
  refine .after (looks_find id) fun v => ?_
  split
  · exact (looks_refuse _).atomic
  · exact atomic_reconfigure id _

end Vault

/-! ## Snapshots -/

namespace Snapshot

theorem looks_governedVault (vaultId : Uuid) (reason : String) :
    (governedVault vaultId reason).Looks := by
  refine (Vault.looks_find vaultId).andThen fun v => ?_
  split
  · exact looks_done v
  · exact looks_refuse _

theorem looks_latest (vaultId : Uuid) : (latest vaultId).Looks :=
  looks_store.andThen fun _ => looks_done _

theorem looks_list (vaultId : Uuid) : (list vaultId).Looks :=
  (Vault.looks_find vaultId).andThen fun _ => looks_store.andThen fun _ => looks_done _

theorem atomic_create (vaultId : Uuid) (assetId : Option String) (balances : OrderedMap Json) :
    (create vaultId assetId balances).Atomic := by
  simp only [create, bind_eq]
  refine .after (looks_governedVault _ _) fun v => .check fun _ => .check fun _ =>
    .after looks_store fun _ => .after looks_now fun _ => ?_
  exact ((succeeds_modify _).andThen fun _ => succeeds_done _).atomic

end Snapshot

/-! ## Settings -/

namespace Settings

theorem looks_stored : stored.Looks := by
  refine looks_store.andThen fun s => ?_
  cases s.settings <;> exact looks_done _

theorem looks_get (key : String) (default : Json) : (get key default).Looks :=
  looks_stored.andThen fun _ => looks_done _

theorem looks_getAll : getAll.Looks := looks_stored.andThen fun _ => looks_done _

theorem looks_proposalFee (type : ProposalType) : (proposalFee type).Looks :=
  (looks_get _ _).andThen fun _ => looks_ofExcept _

theorem looks_votingFee : votingFee.Looks := (looks_get _ _).andThen fun _ => looks_ofExcept _

end Settings

/-! ## Proposals -/

namespace Proposal

theorem looks_find (id : Uuid) : (find id).Looks := by
  refine looks_store.andThen fun s => ?_
  cases s.proposal? id with
  | none => exact looks_refuse _
  | some p => exact looks_done p

theorem atomic_create (vaultId : Uuid) (draft : Draft) : (create vaultId draft).Atomic := by
  simp only [create, bind_eq]
  refine .check fun _ => .after (Snapshot.looks_governedVault _ _) fun v => .check fun fields =>
    .checkIf (.after (Snapshot.looks_latest _) fun latest => ?_)
  cases latest with
  | none => exact (looks_refuse _).atomic
  | some x =>
      refine .after (Settings.looks_proposalFee _) fun _ => .check fun _ =>
        .after looks_store fun _ =>
        .after looks_now fun _ => .check fun _ => ?_
      exact ((succeeds_modify _).andThen fun _ => succeeds_done _).atomic

theorem atomic_enter (p : Proposal) (target : ProposalStatus)
    (finish : Timestamp → Proposal → Proposal) : (enter p target finish).Atomic := by
  simp only [enter, bind_eq]
  split
  · refine .after looks_now fun _ => ?_
    exact ((succeeds_modify _).andThen fun _ => succeeds_done _).atomic
  · exact (looks_refuse _).atomic

/-- A status that may follow can always be entered. -/
theorem succeeds_enter {p : Proposal} {target : ProposalStatus} (h : target ∈ p.status.next)
    (finish : Timestamp → Proposal → Proposal) : (enter p target finish).Succeeds := by
  intro c w
  rw [enter, if_pos (List.contains_iff_mem.2 h)]
  exact ⟨_, rfl⟩

theorem atomic_markFeePaid (id : Uuid) : (markFeePaid id).Atomic :=
  .after (looks_find id) fun _ => atomic_enter _ _ _

theorem atomic_openVoting (id : Uuid) : (openVoting id).Atomic :=
  .after (looks_find id) fun _ => atomic_enter _ _ _

theorem atomic_finalize (id : Uuid) : (finalize id).Atomic := by
  simp only [finalize, bind_eq]
  refine .after (looks_find id) fun p => ?_
  split
  · refine .after looks_store fun s => ?_
    cases s.vault? p.vaultId with
    | none => exact (looks_fail _).atomic
    | some v =>
        exact .after looks_configuration fun _ => .check fun _ =>
          (atomic_enter _ _ _).before fun _ => succeeds_done _
  · exact (looks_refuse _).atomic

/-- Effects that fail have paid out assets of the vault at most. -/
theorem applyEffects_error {p : Proposal} {v : Vault} {e : Fault}
    (h : applyEffects p v c w = (.error e, w')) :
    ∃ paid, PaidOut c.now v.id paid w.store w'.store := by
  have stopped (hw : w'.store = w.store) :
      ∃ paid, PaidOut c.now v.id paid w.store w'.store := by
    rw [hw]
    exact ⟨[], .nil _⟩
  rw [applyEffects] at h
  cases htype : p.type with
  | distribution =>
      simp only [htype] at h
      split at h
      · exact stopped ((looks_refuse _).atomic _ _ _ _ h)
      · rw [bind_eq, andThen_eq_error] at h
        rcases h with h | ⟨ids, w₁, hread, h⟩
        · exact stopped ((looks_ofExcept _).atomic _ _ _ _ h)
        · obtain ⟨-, rfl⟩ := ofExcept_eq_ok.1 hread
          rw [bind_eq, andThen_eq_error] at h
          rcases h with h | ⟨as, w₂, -, h⟩
          · exact Asset.distribute_error h
          · cases h
  | termination =>
      simp only [htype] at h
      have hatomic := (Vault.atomic_advance v.id .terminating none).before fun _ =>
        succeeds_done ()
      exact stopped (hatomic _ _ _ _ h)
  | staking | burning | marketplaceAction | expansion =>
      simp only [htype] at h
      cases h

/-- An execution that fails has paid out assets of the proposal's vault at most. -/
theorem execute_error {id : Uuid} {e : Fault} (h : execute id c w = (.error e, w')) :
    w'.store = w.store ∨ ∃ p paid, w.store.proposal? id = some p ∧
      PaidOut c.now p.vaultId paid w.store w'.store := by
  simp only [execute, bind_eq] at h
  rw [andThen_eq_error] at h
  rcases h with h | ⟨p, w₁, hfind, h⟩
  · exact .inl ((looks_find id).atomic _ _ _ _ h)
  · obtain ⟨hp, rfl⟩ := find_eq_ok.1 hfind
    split at h
    · next hstatus =>
      rw [andThen_eq_error] at h
      rcases h with h | ⟨v, w₂, hfound, h⟩
      · exact .inl ((Vault.looks_find _).atomic _ _ _ _ h)
      · obtain ⟨hv, rfl⟩ := Vault.find_eq_ok.1 hfound
        rw [andThen_eq_error] at h
        rcases h with h | ⟨_, w₃, -, h⟩
        · obtain ⟨paid, hpaid⟩ := applyEffects_error h
          have howner : v.id = p.vaultId := Store.id_of_vault? hv
          exact .inr ⟨p, paid, hp, howner ▸ hpaid⟩
        · have hedge : .executed ∈ p.status.next := by
            rw [hstatus]
            decide
          obtain ⟨q, hq⟩ := succeeds_enter hedge _ c w₃
          rw [h] at hq
          cases hq
    · exact .inl ((looks_refuse _).atomic _ _ _ _ h)

end Proposal

/-! ## Votes -/

namespace Vote

theorem atomic_cast (proposalId : Uuid) (voterId : Option String) (optionRef : Json)
    (address : Option String) : (cast proposalId voterId optionRef address).Atomic := by
  simp only [cast, bind_eq]
  refine .after (Proposal.looks_find _) fun p => .after looks_now fun _ => .check fun _ =>
    .check fun _ => .after looks_store fun _ => .check fun _ => ?_
  split
  · exact (looks_refuse _).atomic
  · split
    · exact (looks_refuse _).atomic
    · refine .check fun _ => ?_
      cases voterId with
      | none => exact (looks_refuse _).atomic
      | some voterId =>
          cases address with
          | none => exact (looks_refuse _).atomic
          | some address =>
              refine .after looks_now fun _ => ?_
              exact ((succeeds_modify _).andThen fun _ =>
                (succeeds_record _).andThen fun _ => succeeds_done _).atomic

theorem looks_tally (proposalId : Uuid) : (tally proposalId).Looks :=
  (Proposal.looks_find _).andThen fun _ => looks_store.andThen fun _ => looks_ofExcept _

end Vote

end VaultGovernance
