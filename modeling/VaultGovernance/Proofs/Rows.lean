import VaultGovernance.Store.Basic

/-!
# VaultGovernance.Proofs.Rows

Tables as lists of rows with identifiers: what is found after rows have been
changed in place or added at the end.  A change in place keeps every
identifier, so it commutes with looking up; an added row never hides one that
was there.
-/

namespace VaultGovernance

/-! ## Tables -/

/-- A row of a table to which one was added is that row or an earlier one. -/
theorem mem_added {α : Type} {rows : List α} {r x : α} (h : x ∈ rows ++ [r]) :
    x ∈ rows ∨ x = r := by
  rw [List.mem_append, List.mem_singleton] at h
  exact h

section Table

variable {α : Type} (key : α → Uuid)

/-- A row that is found has the identifier that was asked for. -/
theorem key_of_find? {rows : List α} {k : Uuid} {r : α}
    (h : rows.find? (fun x => key x = k) = some r) : key r = k := by
  simpa using List.find?_some h

/-- Changing rows without their identifiers commutes with looking up. -/
theorem find?_changed {rows : List α} {f : α → α} (hf : ∀ x, key (f x) = key x) (k : Uuid) :
    (rows.map f).find? (fun x => key x = k) = (rows.find? fun x => key x = k).map f := by
  rw [List.find?_map]
  simp only [Function.comp_def, hf]

/-- Replacing the row of an identifier keeps the identifiers. -/
theorem key_replaced (r x : α) : key (if key x = key r then r else x) = key x := by
  split
  · next h => exact h.symm
  · rfl

/-- A replaced row is found under its identifier, the others as before. -/
theorem find?_replaced {rows : List α} {r : α} (k : Uuid) :
    (rows.map fun x => if key x = key r then r else x).find? (fun x => key x = k) =
      if k = key r then (rows.find? fun x => key x = k).map fun _ => r
      else rows.find? fun x => key x = k := by
  rw [find?_changed key (key_replaced key r)]
  cases hk : rows.find? fun x => key x = k with
  | none => simp
  | some x =>
      have hx : key x = k := key_of_find? key hk
      by_cases h : k = key r <;> simp [hx, h]

/-- Where a row is replaced by one that goes on from it, every row that was
found goes on. -/
theorem found_replaced {R : α → α → Prop} (hrefl : ∀ x, R x x) {rows : List α} {r r' : α}
    (found : rows.find? (fun x => key x = key r) = some r) (hkey : key r' = key r)
    (h : R r r') {k : Uuid} {x : α} (hx : rows.find? (fun x => key x = k) = some x) :
    ∃ x', (rows.map fun x => if key x = key r' then r' else x).find? (fun x => key x = k)
      = some x' ∧ R x x' := by
  rw [find?_replaced key k, hkey]
  by_cases hk : k = key r
  · subst hk
    obtain rfl : r = x := by simpa [found] using hx
    exact ⟨r', by rw [if_pos rfl, found, Option.map_some], h⟩
  · exact ⟨x, by rw [if_neg hk, hx], hrefl x⟩

/-- Where identifiers are distinct, every row is the one found under its own. -/
theorem find?_of_mem {rows : List α} (hn : (rows.map key).Nodup) {r : α} (hr : r ∈ rows) :
    rows.find? (fun x => key x = key r) = some r := by
  induction rows with
  | nil => cases hr
  | cons x rows ih =>
      rw [List.map_cons, List.nodup_cons] at hn
      cases List.mem_cons.1 hr with
      | inl hfirst =>
          rw [hfirst]
          simp
      | inr hlater =>
          have hx : key x ≠ key r := fun h => hn.1 (h ▸ List.mem_map_of_mem hlater)
          rw [List.find?_cons_of_neg (by simpa using hx)]
          exact ih hn.2 hlater

end Table

/-! ## Writing to a table -/

/-- At most one row of a table is written: a new one is added, or one that is
found goes on as another with its identifier. -/
inductive RowWrite {α : Type} (key : α → Uuid) (New : α → Prop) (R : α → α → Prop)
    (rows : List α) : List α → Prop
  | none : RowWrite key New R rows rows
  | added {r : α} (new : New r) : RowWrite key New R rows (rows ++ [r])
  | replaced {r r' : α} (found : rows.find? (fun x => key x = key r) = some r)
      (same : key r' = key r) (step : R r r') :
      RowWrite key New R rows (rows.map fun x => if key x = key r' then r' else x)

namespace RowWrite

variable {α : Type} {key : α → Uuid} {New : α → Prop} {R : α → α → Prop} {rows rows' : List α}
  {k : Uuid} {x : α}

/-- A row that is found goes on. -/
theorem later (h : RowWrite key New R rows rows') (hrefl : ∀ x, R x x)
    (hx : rows.find? (fun x => key x = k) = some x) :
    ∃ x', rows'.find? (fun x => key x = k) = some x' ∧ R x x' := by
  cases h with
  | none => exact ⟨x, hx, hrefl x⟩
  | added new => exact ⟨x, by rw [List.find?_append, hx, Option.some_or], hrefl x⟩
  | replaced found same step => exact found_replaced key hrefl found same step hx

/-- A row that is found where none was is new. -/
theorem new_of_none (h : RowWrite key New R rows rows')
    (hnone : rows.find? (fun x => key x = k) = Option.none)
    (hx : rows'.find? (fun x => key x = k) = some x) : New x := by
  cases h with
  | none => rw [hnone] at hx; cases hx
  | @added r new =>
      rw [List.find?_append, hnone, Option.none_or] at hx
      obtain rfl : x = r := by simpa using List.mem_of_find?_eq_some hx
      exact new
  | @replaced r r' found same step =>
      rw [find?_changed key (key_replaced key r'), hnone, Option.map_none] at hx
      cases hx

/-- What new rows have and rows keep, all rows have. -/
theorem forall_mem {P : α → Prop} (h : RowWrite key New R rows rows') (hold : ∀ x ∈ rows, P x)
    (hnew : ∀ x, New x → P x) (hstep : ∀ x y, R x y → P x → P y) : ∀ x ∈ rows', P x := by
  intro x hx
  cases h with
  | none => exact hold x hx
  | added new =>
      cases mem_added hx with
      | inl hx => exact hold x hx
      | inr hx => exact hx ▸ hnew _ new
  | replaced found same step =>
      obtain ⟨y, hy, rfl⟩ := List.mem_map.1 hx
      split
      · exact hstep _ _ step (hold _ (List.mem_of_find?_eq_some found))
      · exact hold y hy

end RowWrite

namespace Store

variable {s : Store} {id : Uuid}

/-! ## Rows that are found -/

theorem id_of_vault? {v : Vault} (h : s.vault? id = some v) : v.id = id :=
  key_of_find? Vault.id h

theorem id_of_asset? {a : Asset} (h : s.asset? id = some a) : a.id = id :=
  key_of_find? Asset.id h

theorem id_of_proposal? {p : Proposal} (h : s.proposal? id = some p) : p.id = id :=
  key_of_find? Proposal.id h

/-! ## Changing rows -/

theorem vault?_putVault (v : Vault) :
    (s.putVault v).vault? id = if id = v.id then (s.vault? id).map fun _ => v else s.vault? id :=
  find?_replaced Vault.id id

theorem asset?_putAsset (a : Asset) :
    (s.putAsset a).asset? id = if id = a.id then (s.asset? id).map fun _ => a else s.asset? id :=
  find?_replaced Asset.id id

theorem proposal?_putProposal (p : Proposal) :
    (s.putProposal p).proposal? id =
      if id = p.id then (s.proposal? id).map fun _ => p else s.proposal? id :=
  find?_replaced Proposal.id id

/-- A row of a table in which one was replaced is that row or an earlier one. -/
theorem mem_putProposal {p q : Proposal} (h : q ∈ (s.putProposal p).proposals) :
    q = p ∨ q ∈ s.proposals := by
  obtain ⟨r, hr, rfl⟩ := List.mem_map.1 h
  split
  · exact .inl rfl
  · exact .inr hr

/-- The row that replaces another is in the table. -/
theorem mem_putProposal_self {p q : Proposal} (found : s.proposal? p.id = some p)
    (same : q.id = p.id) : q ∈ (s.putProposal q).proposals :=
  List.mem_map.2 ⟨p, List.mem_of_find?_eq_some found, if_pos same.symm⟩

/-! ## Adding rows -/

theorem vault?_addVault {v u : Vault} (h : s.vault? id = some v) :
    (s.addVault u).vault? id = some v := by
  rw [vault?] at h ⊢
  rw [addVault, List.find?_append, h, Option.some_or]

theorem asset?_addAsset {a b : Asset} (h : s.asset? id = some a) :
    (s.addAsset b).asset? id = some a := by
  rw [asset?] at h ⊢
  rw [addAsset, List.find?_append, h, Option.some_or]

theorem snapshot?_addSnapshot {x y : Snapshot} (h : s.snapshot? id = some x) :
    (s.addSnapshot y).snapshot? id = some x := by
  rw [snapshot?] at h ⊢
  rw [addSnapshot, List.find?_append, h, Option.some_or]

theorem proposal?_addProposal {p q : Proposal} (h : s.proposal? id = some p) :
    (s.addProposal q).proposal? id = some p := by
  rw [proposal?] at h ⊢
  rw [addProposal, List.find?_append, h, Option.some_or]

/-- The votes on a proposal after one more vote. -/
theorem votesOn_addVote (v : Vote) :
    (s.addVote v).votesOn id =
      s.votesOn id ++ if v.proposalId = id then [v] else [] := by
  rw [votesOn, addVote, List.filter_append]
  by_cases h : v.proposalId = id <;> simp [votesOn, h]

end Store

end VaultGovernance
