import VaultGovernance.Proofs.Change.Records

/-!
# VaultGovernance.Proofs.Change.Run

From operations to runs.  Every call changes the store in one of the ways that
`Operation.Does` lists for its operation: an operation that succeeds by what its
reading says, one that fails by leaving the store alone.  What every change
preserves therefore holds after any run.
-/

namespace VaultGovernance

open VaultGovernance.Action

variable {c : Context} {w w' : World}

namespace Action

variable {α : Type}

/-- An action without its result succeeds exactly when the action does. -/
theorem discarded_eq_ok {act : Action α} {u : Unit} :
    act.discarded c w = (.ok u, w') ↔ ∃ a, act c w = (.ok a, w') := by
  simp [discarded, andThen_eq_ok]

end Action

/-! ## One call -/

theorem Operation.does_of_written {op : Operation} {s s' : Store}
    (h : Settings.Written s s') : op.Does c s s' := by
  rcases h with rfl | ⟨row, rfl⟩
  · exact .unchanged
  · exact .settingsChanged row

/-- Advancing a vault and failing it are one change. -/
theorem Operation.does_of_advance {op : Operation} {id : Uuid} {target : VaultStage}
    {reason : Option String} {v : Vault}
    (h : Vault.advance id target reason c w = (.ok v, w')) : op.Does c w.store w'.store := by
  obtain ⟨v, hv, hedge, hready, hw⟩ := Vault.advance_ok h
  obtain rfl : v.id = id := Store.id_of_vault? hv
  rw [hw]
  exact .vaultAdvanced reason hv hedge hready

/-- Writing configuration that is no acquire result is always allowed. -/
theorem Operation.does_of_reconfigure {op : Operation} {id : Uuid} {change : Vault → Vault}
    {v : Vault} (h : Vault.reconfigure id change c w = (.ok v, w'))
    (hrow : ∀ v, Vault.Reconfigured c.now v { change v with updatedAt := some c.now }) :
    op.Does c w.store w'.store := by
  obtain ⟨v, hv, rfl, hw⟩ := Vault.reconfigure_ok h
  obtain rfl : v.id = id := Store.id_of_vault? hv
  rw [hw]
  exact .vaultRecorded hv (hrow v)

/-- What an operation that succeeds does. -/
theorem Operation.does_of_ok {op : Operation} {u : Unit}
    (h : op.action c w = (.ok u, w')) : op.Does c w.store w'.store := by
  cases op <;> simp only [action, discarded_eq_ok] at h <;> obtain ⟨r, h⟩ := h
  case createVault =>
    obtain ⟨name, e, p, he, hp, rfl, hw⟩ := Vault.create_ok h
    rw [hw]
    exact .vaultAdded name ⟨_, he⟩ ⟨_, hp⟩
  case getVault =>
    obtain ⟨-, rfl⟩ := Vault.find_eq_ok.1 h
    exact .unchanged
  case advanceVault => exact does_of_advance h
  case failVault => exact does_of_advance h
  case recordApplyParams => exact does_of_reconfigure h fun v => ⟨rfl, fun _ => ⟨rfl, rfl⟩⟩
  case recordDispatchScript => exact does_of_reconfigure h fun v => ⟨rfl, fun _ => ⟨rfl, rfl⟩⟩
  case recordAcquireResults =>
    obtain ⟨v, hv, hrow, hw⟩ := Vault.recordAcquireResults_ok h
    obtain rfl := Store.id_of_vault? hv
    rw [hw]
    exact .vaultRecorded hv hrow
  case createAsset =>
    obtain ⟨hrow, hw⟩ := Asset.create_ok h
    rw [hw]
    exact .assetAdded hrow
  case getAsset =>
    obtain ⟨-, rfl⟩ := Asset.find_eq_ok.1 h
    exact .unchanged
  case listAssets =>
    obtain rfl := Asset.list_ok h
    exact .unchanged
  case transitionAsset =>
    obtain ⟨a, ha, hedge, hw⟩ := Asset.transition_ok h
    obtain rfl := Store.id_of_asset? ha
    rw [hw]
    exact .assetMoved ha hedge
  case updateAsset =>
    obtain ⟨a, ha, hrow, hw⟩ := Asset.update_ok h
    obtain rfl := Store.id_of_asset? ha
    rw [hw]
    exact .assetEdited ha hrow
  case lockPendingAssets vaultId =>
    rw [Asset.moveAll_ok h]
    exact .assetsMoved vaultId .locked
  case releaseLockedAssets vaultId =>
    rw [Asset.moveAll_ok h]
    exact .assetsMoved vaultId .released
  case distributeAssets => exact .assetsPaidOut (Asset.distribute_ok h)
  case createSnapshot =>
    obtain ⟨v, texts, assetId, hv, hs, htexts, hw⟩ := Snapshot.create_ok h
    obtain rfl := Store.id_of_vault? hv
    rw [hw]
    exact .snapshotAdded assetId hv hs htexts
  case latestSnapshot =>
    obtain rfl := Snapshot.latest_ok h
    exact .unchanged
  case listSnapshots =>
    obtain rfl := Snapshot.list_ok h
    exact .unchanged
  case createProposal =>
    obtain ⟨v, x, rfl, htype, hrow, hw⟩ := Proposal.create_ok h
    rw [hw]
    exact .proposalAdded htype hrow
  case getProposal =>
    obtain ⟨-, rfl⟩ := Proposal.find_eq_ok.1 h
    exact .unchanged
  case proposalFee =>
    obtain ⟨-, rfl⟩ := Settings.proposalFee_eq_ok.1 h
    exact .unchanged
  case markFeePaid =>
    obtain ⟨p, hp, hstep, hmoved, hw⟩ := Proposal.markFeePaid_ok h
    obtain rfl := Store.id_of_proposal? hp
    rw [hw]
    exact .proposalMoved hp hstep hmoved
  case openVoting =>
    obtain ⟨p, hp, hstep, hmoved, hw⟩ := Proposal.openVoting_ok h
    obtain rfl := Store.id_of_proposal? hp
    rw [hw]
    exact .proposalMoved hp hstep hmoved
  case finalizeProposal =>
    obtain ⟨p, hp, hstep, hmoved, hw⟩ := Proposal.finalize_ok h
    obtain rfl := Store.id_of_proposal? hp
    rw [hw]
    exact .proposalMoved hp hstep hmoved
  case executeProposal =>
    obtain ⟨p, s', hp, hstep, hmoved, hw⟩ := Proposal.execute_ok h
    obtain rfl := Store.id_of_proposal? hp
    rw [hw]
    exact .proposalMoved hp hstep hmoved
  case castVote =>
    obtain ⟨p, hp, htaken, hw⟩ := Vote.cast_ok h
    obtain rfl := Store.id_of_proposal? hp
    rw [hw]
    exact .voteAdded hp htaken
  case tally =>
    obtain ⟨_, -, -, rfl⟩ := Vote.tally_ok h
    exact .unchanged
  case getClaim =>
    obtain ⟨claims, hw⟩ := Claim.get_ok h
    rw [hw]
    exact .claimsChanged claims
  case normalizeClaims =>
    obtain ⟨claims, hw⟩ := Claim.backfill_ok h
    rw [hw]
    exact .claimsChanged claims
  case ensureSettings => exact does_of_written (Settings.ensure_ok h)
  case getSetting =>
    obtain rfl := Settings.get_ok h
    exact .unchanged
  case getAllSettings =>
    obtain rfl := Settings.getAll_ok h
    exact .unchanged
  case updateSettings => exact does_of_written (Settings.update_ok h)
  case setSetting => exact does_of_written (Settings.update_ok h)
  case deleteSetting => exact does_of_written (Settings.delete_ok h)
  case votingFee =>
    obtain rfl := Settings.votingFee_ok h
    exact .unchanged
  case seedSettings => exact does_of_written (Settings.seed_ok h)

namespace World

/-- Every call does what its operation does; a call that fails does nothing. -/
theorem does_called (w : World) (k : Call) :
    k.operation.Does k.context w.store (w.called k).store := by
  rw [called]
  rcases h : transaction k.operation.action k.context w with ⟨e | u, w'⟩
  · rw [store_of_transaction_error h]
    exact .unchanged
  · exact Operation.does_of_ok (transaction_eq_ok.1 h)

/-- The world after a call whose operation has a result. -/
theorem called_of_ok {α : Type} {op : Operation} {act : Action α} {a : α}
    (hop : op.action = act.discarded) (h : act c w = (.ok a, w')) : w.called ⟨c, op⟩ = w' := by
  have haction : transaction op.action c w = (.ok (), w') := by
    rw [hop]
    exact transaction_eq_ok.2 (discarded_eq_ok.2 ⟨a, h⟩)
  rw [called, haction]

/-- Every call makes a change. -/
theorem change_called (w : World) (k : Call) : Change k.context w.store (w.called k).store :=
  ⟨k.operation, does_called w k⟩

/-! ## Runs -/

/-- A property of stores that every change keeps is kept by every run. -/
theorem after_invariant {P : Store → Prop} (h : P w.store)
    (step : ∀ c s s', P s → Change c s s' → P s') (calls : List Call) :
    P (w.after calls).store := by
  induction calls generalizing w with
  | nil => exact h
  | cons k calls ih =>
      have hk : P (w.called k).store := step _ _ _ h (change_called w k)
      exact ih hk

end World

/-- A property of the empty store that every change keeps holds after any run. -/
theorem storeAfter_invariant {P : Store → Prop} (h : P {})
    (step : ∀ c s s', P s → Change c s s' → P s') (calls : List Call) : P (storeAfter calls) :=
  World.after_invariant h step calls

/-- A run that is longer by a call is longer by what the operation of the call
does. -/
theorem does_storeAfter (calls : List Call) (k : Call) :
    k.operation.Does k.context (storeAfter calls) (storeAfter (calls ++ [k])) := by
  rw [storeAfter, storeAfter, World.after_append]
  exact World.does_called _ k

/-- A run that is longer by a call is longer by a change. -/
theorem change_storeAfter (calls : List Call) (k : Call) :
    Change k.context (storeAfter calls) (storeAfter (calls ++ [k])) :=
  ⟨k.operation, does_storeAfter calls k⟩

end VaultGovernance
