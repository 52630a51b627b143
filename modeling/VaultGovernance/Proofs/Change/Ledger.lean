import VaultGovernance.Proofs.Action
import VaultGovernance.Proofs.Change.Basic
import VaultGovernance.Proofs.Rows

/-!
# VaultGovernance.Proofs.Change.Ledger

Operations on assets and on vaults, read off their results: what each of them
found, what it checked, and the store it left.
-/

namespace VaultGovernance

open VaultGovernance.Action

variable {c : Context} {w w' : World}

/-! ## Assets -/

namespace Asset

theorem find_eq_ok {id : Uuid} {a : Asset} :
    find id c w = (.ok a, w') ↔ w.store.asset? id = some a ∧ w = w' := by
  simp only [find, bind_eq, store_andThen]
  cases h : w.store.asset? id <;> simp

/-- After finding a row the sequence goes on with it in the same world. -/
theorem find_andThen_eq_ok {α : Type} {id : Uuid} {f : Asset → Action α} {b : α} :
    (find id).andThen f c w = (.ok b, w') ↔
      ∃ a, w.store.asset? id = some a ∧ f a c w = (.ok b, w') := by
  simp only [find, bind_eq, andThen_assoc, store_andThen]
  cases h : w.store.asset? id <;> simp [andThen]

theorem list_ok {vaultId : Uuid} {status : Option AssetStatus} {as : List Asset}
    (h : list vaultId status c w = (.ok as, w')) : w = w' := by
  simp only [list, bind_eq, store_andThen, done_eq_ok] at h
  exact h.2

/-- A recorded asset is new, pending, and belongs to a vault that exists. -/
theorem create_ok {vaultId : Uuid} {draft : Draft} {a : Asset}
    (h : create vaultId draft c w = (.ok a, w')) :
    Recorded c w.store a ∧ w'.store = w.store.addAsset a := by
  simp only [create, bind_eq, store_andThen] at h
  cases hv : w.store.vault? vaultId with
  | none => simp [hv] at h
  | some vault =>
      simp only [hv, ofExcept_andThen_eq_ok, now_andThen, modify_andThen, done_eq_ok] at h
      obtain ⟨kind, -, origin, -, quantity, -, policyId, -, assetName, -, stored, -, rfl, rfl⟩ := h
      have hid : vault.id = vaultId := Store.id_of_vault? hv
      exact ⟨⟨rfl, ⟨vault, hid ▸ hv⟩, rfl, rfl, rfl, rfl, rfl, rfl⟩, rfl⟩

/-- A single move follows an edge and writes the moved row. -/
theorem move_ok {a a' : Asset} {target : AssetStatus}
    (h : move a target c w = (.ok a', w')) :
    target ∈ a.status.next ∧ a' = a.moved target c.now ∧ w'.store = w.store.putAsset a' := by
  simp only [move, bind_eq] at h
  split at h
  · next hedge =>
    simp only [now_andThen, modify_andThen, record_andThen, done_eq_ok] at h
    obtain ⟨rfl, rfl⟩ := h
    exact ⟨by simpa using hedge, rfl, rfl⟩
  · simp at h

theorem transition_ok {id : Uuid} {target : AssetStatus} {a' : Asset}
    (h : transition id target c w = (.ok a', w')) :
    ∃ a, w.store.asset? id = some a ∧ target ∈ a.status.next ∧
      w'.store = w.store.putAsset (a.moved target c.now) := by
  simp only [transition, bind_eq, find_andThen_eq_ok] at h
  obtain ⟨a, ha, h⟩ := h
  obtain ⟨hedge, rfl, hw⟩ := move_ok h
  exact ⟨a, ha, hedge, hw⟩

theorem moveAll_ok {vaultId : Uuid} {source target : AssetStatus} {n : Nat}
    (h : moveAll vaultId source target c w = (.ok n, w')) :
    w'.store = w.store.moveHeld vaultId source target c.now := by
  simp only [moveAll, bind_eq, now_andThen, store_andThen, modify_andThen, recordAll_andThen,
    done_eq_ok] at h
  obtain ⟨-, rfl⟩ := h
  rfl

/-- Only a locked asset can be paid out. -/
theorem distributed_mem_next {status : AssetStatus} :
    .distributed ∈ status.next ↔ status = .locked := by
  cases status <;> simp [AssetStatus.next]

/-- A distribution that succeeds paid out every listed asset in turn. -/
theorem distribute_ok {vaultId : Uuid} {ids : List Uuid} {as : List Asset}
    (h : distribute vaultId ids c w = (.ok as, w')) :
    PaidOut c.now vaultId ids w.store w'.store := by
  induction ids generalizing w as with
  | nil =>
      simp only [distribute, done_eq_ok] at h
      obtain ⟨-, rfl⟩ := h
      exact .nil _
  | cons id rest ih =>
      simp only [distribute, bind_eq, find_andThen_eq_ok] at h
      obtain ⟨a, ha, h⟩ := h
      split at h
      · next howner =>
        simp only [andThen_eq_ok, done_eq_ok] at h
        obtain ⟨a', w₁, hmove, as', w₂, hrest, -, rfl⟩ := h
        obtain ⟨hedge, rfl, hw₁⟩ := move_ok hmove
        have hothers := ih hrest
        rw [hw₁] at hothers
        obtain rfl : a.id = id := Store.id_of_asset? ha
        exact .cons ha howner (distributed_mem_next.1 hedge) hothers
      · simp at h

/-- New field values leave everything else of an asset. -/
theorem edited_of_withFields {a a' : Asset} {fields : OrderedMap Json} {time : Timestamp}
    (h : a.withFields fields time = .ok a') : Edited time a a' := by
  simp only [withFields, bind_eq_ok, pure_eq_ok] at h
  obtain ⟨_, -, _, -, _, -, _, -, _, -, _, -, _, -, _, -, _, -, rfl⟩ := h
  rfl

theorem update_ok {id : Uuid} {fields : OrderedMap Json} {a' : Asset}
    (h : update id fields c w = (.ok a', w')) :
    ∃ a, w.store.asset? id = some a ∧ Edited c.now a a' ∧ w'.store = w.store.putAsset a' := by
  simp only [update, bind_eq] at h
  split at h
  · simp [fail] at h
  · simp only [find_andThen_eq_ok, ofExcept_andThen_eq_ok, now_andThen, modify_andThen,
      done_eq_ok] at h
    obtain ⟨a, ha, _, -, _, hrow, rfl, rfl⟩ := h
    exact ⟨a, ha, edited_of_withFields hrow, rfl⟩

end Asset

/-! ## Vaults -/

namespace Vault

theorem find_eq_ok {id : Uuid} {v : Vault} :
    find id c w = (.ok v, w') ↔ w.store.vault? id = some v ∧ w = w' := by
  simp only [find, bind_eq, store_andThen]
  cases h : w.store.vault? id <;> simp

/-- After finding a row the sequence goes on with it in the same world. -/
theorem find_andThen_eq_ok {α : Type} {id : Uuid} {f : Vault → Action α} {b : α} :
    (find id).andThen f c w = (.ok b, w') ↔
      ∃ v, w.store.vault? id = some v ∧ f v c w = (.ok b, w') := by
  simp only [find, bind_eq, andThen_assoc, store_andThen]
  cases h : w.store.vault? id <;> simp [andThen]

theorem create_ok {name : Option String} {execution participation : Option Decimal} {v : Vault}
    (h : create name execution participation c w = (.ok v, w')) :
    ∃ name e p, Column.optionalNumeric Column.moneyPlaces execution = .ok e ∧
      Column.optionalNumeric Column.moneyPlaces participation = .ok p ∧
      v = drafted w.store.nextId name e p c.now ∧ w'.store = w.store.addVault v := by
  simp only [create, bind_eq, store_andThen, ofExcept_andThen_eq_ok, now_andThen, modify_andThen,
    done_eq_ok] at h
  obtain ⟨e, he, p, hp, name, -, rfl, rfl⟩ := h
  exact ⟨name, e, p, he, hp, rfl, rfl⟩

theorem moveAssets_ok {id : Uuid} {target : VaultStage} {n : Nat}
    (h : moveAssets id target c w = (.ok n, w')) :
    w'.store = w.store.settleAssets id target c.now := by
  rw [moveAssets] at h
  rw [Store.settleAssets]
  split at h
  · next hlocked => rw [if_pos hlocked]; exact Asset.moveAll_ok h
  · next hlocked =>
    rw [if_neg hlocked]
    split at h
    · next hfinal => rw [if_pos hfinal]; exact Asset.moveAll_ok h
    · next hfinal =>
      rw [if_neg hfinal]
      rw [(done_eq_ok.1 h).2]

/-- A vault that advances follows an edge, with everything recorded that the
stage needs. -/
theorem advance_ok {id : Uuid} {target : VaultStage} {reason : Option String} {v' : Vault}
    (h : advance id target reason c w = (.ok v', w')) :
    ∃ v, w.store.vault? id = some v ∧ target ∈ v.stage.next ∧ v.missingFor target = [] ∧
      w'.store =
        (w.store.putVault (v.entered target reason c.now)).settleAssets id target c.now := by
  simp only [advance, bind_eq, find_andThen_eq_ok] at h
  obtain ⟨v, hv, h⟩ := h
  obtain rfl : v.id = id := Store.id_of_vault? hv
  split at h
  · next hedge =>
    split at h
    · next hready =>
      simp only [now_andThen, modify_andThen] at h
      rw [andThen_eq_ok] at h
      obtain ⟨n, w₁, hmove, h⟩ := h
      simp only [record_andThen, done_eq_ok] at h
      obtain ⟨-, rfl⟩ := h
      exact ⟨v, hv, by simpa using hedge, by simpa using hready, moveAssets_ok hmove⟩
    · simp [refuseStage] at h
  · simp [refuseStage] at h

theorem reconfigure_ok {id : Uuid} {change : Vault → Vault} {v' : Vault}
    (h : reconfigure id change c w = (.ok v', w')) :
    ∃ v, w.store.vault? id = some v ∧ v' = { change v with updatedAt := some c.now } ∧
      w'.store = w.store.putVault v' := by
  simp only [reconfigure, bind_eq, find_andThen_eq_ok, now_andThen, modify_andThen,
    done_eq_ok] at h
  obtain ⟨v, hv, rfl, rfl⟩ := h
  exact ⟨v, hv, rfl, rfl⟩

/-- The acquire results are recorded only before the vault is locked. -/
theorem recordAcquireResults_ok {id : Uuid} {multiplier distribution : Json} {v' : Vault}
    (h : recordAcquireResults id multiplier distribution c w = (.ok v', w')) :
    ∃ v, w.store.vault? id = some v ∧ Reconfigured c.now v v' ∧
      w'.store = w.store.putVault v' := by
  simp only [recordAcquireResults, bind_eq, find_andThen_eq_ok] at h
  obtain ⟨v, hv, h⟩ := h
  split at h
  · simp at h
  · next hfree =>
    obtain ⟨u, hu, rfl, hw⟩ := reconfigure_ok h
    obtain rfl : v = u := by simpa [hv] using hu
    exact ⟨v, hv, ⟨rfl, fun hfrozen => absurd hfrozen hfree⟩, hw⟩

end Vault

end VaultGovernance
