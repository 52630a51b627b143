import VaultGovernance.Claim.Normalization
import VaultGovernance.Proofs.Change.Governance

/-!
# VaultGovernance.Proofs.Change.Records

Operations on claims and on the settings document, read off their results.
They write rows that no part of governance is bound to, so what matters here is
that they write nothing else.
-/

namespace VaultGovernance

open VaultGovernance.Action

variable {c : Context} {w w' : World}

/-! ## Claims -/

namespace Claim

/-- Writing claims one after the other changes the claims alone. -/
theorem foldl_putClaim (rows : List Claim) (s : Store) :
    ∃ claims, rows.foldl Store.putClaim s = { s with claims } := by
  induction rows generalizing s with
  | nil => exact ⟨s.claims, rfl⟩
  | cons row rows ih =>
      obtain ⟨claims, h⟩ := ih (s.putClaim row)
      exact ⟨claims, by rw [List.foldl_cons, h]; rfl⟩

/-- Reading a claim writes at most its normalized row. -/
theorem get_ok {id : Uuid} {claim : Claim} (h : get id c w = (.ok claim, w')) :
    ∃ claims, w'.store = { w.store with claims } := by
  simp only [get, bind_eq, store_andThen] at h
  cases hclaim : w.store.claim? id with
  | none => simp [hclaim] at h
  | some kept =>
      simp only [hclaim, ofExcept_andThen_eq_ok] at h
      obtain ⟨amounts, -, h⟩ := h
      cases amounts with
      | none =>
          obtain ⟨-, rfl⟩ := done_eq_ok.1 h
          exact ⟨w.store.claims, rfl⟩
      | some amounts =>
          simp only [now_andThen, ofExcept_andThen_eq_ok, modify_andThen, record_andThen,
            done_eq_ok] at h
          obtain ⟨normalized, -, -, rfl⟩ := h
          exact ⟨(w.store.putClaim normalized).claims, rfl⟩

/-- A backfill writes claims alone. -/
theorem backfill_ok {limit : Option Int} {dryRun : Bool} {stats : BackfillStats}
    (h : backfill limit dryRun c w = (.ok stats, w')) :
    ∃ claims, w'.store = { w.store with claims } := by
  simp only [backfill, bind_eq, store_andThen, ofExcept_andThen_eq_ok] at h
  obtain ⟨candidates, -, h⟩ := h
  split at h
  · obtain ⟨-, rfl⟩ := done_eq_ok.1 h
    exact ⟨w.store.claims, rfl⟩
  · simp only [ofExcept_andThen_eq_ok, now_andThen, modify_andThen] at h
    obtain ⟨converted, -, rows, -, h⟩ := h
    obtain ⟨claims, hclaims⟩ := foldl_putClaim rows w.store
    refine ⟨claims, ?_⟩
    rw [← hclaims]
    split at h
    · rw [andThen_of_ok (done_run _ _ _)] at h
      obtain ⟨-, rfl⟩ := done_eq_ok.1 h
      rfl
    · simp only [record_andThen, done_eq_ok] at h
      obtain ⟨-, rfl⟩ := h
      rfl

end Claim

/-! ## Settings -/

namespace Settings

/-- The second store is the first, up to the settings row. -/
def Written (s s' : Store) : Prop := s' = s ∨ ∃ row, s' = s.putSettings row

theorem Written.trans {s s' s'' : Store} (h : Written s s') (h' : Written s' s'') :
    Written s s'' := by
  rcases h with rfl | ⟨row, rfl⟩
  · exact h'
  · rcases h' with rfl | ⟨row', rfl⟩
    · exact .inr ⟨row, rfl⟩
    · exact .inr ⟨row', rfl⟩

theorem ensure_ok {row : SettingsRow} (h : ensure c w = (.ok row, w')) :
    Written w.store w'.store := by
  simp only [ensure, bind_eq, store_andThen] at h
  cases hrow : w.store.settings with
  | some kept =>
      simp only [hrow, done_eq_ok] at h
      exact .inl (by rw [h.2])
  | none =>
      simp only [hrow, now_andThen, modify_andThen, done_eq_ok] at h
      obtain ⟨-, rfl⟩ := h
      exact .inr ⟨_, rfl⟩

theorem overwrite_ok {row : SettingsRow} {document : OrderedMap Json} {u : Unit}
    (h : overwrite row document c w = (.ok u, w')) : Written w.store w'.store := by
  simp only [overwrite, bind_eq] at h
  split at h
  · exact .inl (by rw [(done_eq_ok.1 h).2])
  · simp only [now_andThen] at h
    obtain rfl : _ = w' := congrArg Prod.snd h
    exact .inr ⟨_, rfl⟩

theorem update_ok {values document : OrderedMap Json}
    (h : update values c w = (.ok document, w')) : Written w.store w'.store := by
  rw [update, bind_eq, andThen_eq_ok] at h
  obtain ⟨row, w₁, hensure, h⟩ := h
  split at h
  · simp only [bind_eq, andThen_eq_ok, done_eq_ok] at h
    obtain ⟨_, w₂, hoverwrite, -, rfl⟩ := h
    exact (ensure_ok hensure).trans (overwrite_ok hoverwrite)
  · cases h

theorem delete_ok {key : String} {found : Bool} (h : delete key c w = (.ok found, w')) :
    Written w.store w'.store := by
  simp only [delete, bind_eq, store_andThen] at h
  cases hrow : w.store.settings with
  | none =>
      simp only [hrow, done_eq_ok] at h
      exact .inl (by rw [h.2])
  | some row =>
      simp only [hrow] at h
      split at h
      · simp only [andThen_eq_ok, done_eq_ok] at h
        obtain ⟨_, w₁, hoverwrite, -, rfl⟩ := h
        exact overwrite_ok hoverwrite
      · exact .inl (by rw [(done_eq_ok.1 h).2])

theorem getAll_ok {document : OrderedMap Json} (h : getAll c w = (.ok document, w')) : w = w' := by
  simp only [getAll, bind_eq, stored_andThen, done_eq_ok] at h
  exact h.2

theorem seed_ok {added : OrderedMap Json} (h : seed c w = (.ok added, w')) :
    Written w.store w'.store := by
  simp only [seed, bind_eq] at h
  rw [andThen_eq_ok] at h
  obtain ⟨row, w₁, hensure, h⟩ := h
  refine (ensure_ok hensure).trans ?_
  split at h
  · exact .inl (by rw [(done_eq_ok.1 h).2])
  · simp only [andThen_eq_ok, done_eq_ok] at h
    obtain ⟨document, w₂, hupdate, -, rfl⟩ := h
    exact update_ok hupdate

end Settings

end VaultGovernance
