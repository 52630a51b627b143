import VaultGovernance.Proofs.History

/-!
# VaultGovernance.Proofs.Identifiers

Identifiers are told apart.  Two identifiers with one text are the same, so a
text that a vote keeps names one option at most.  Every row takes its
identifier from a running number that no row took before, so the identifiers of
a table are distinct in every store that a run leads to, and so are those of
the options of one proposal.
-/

namespace VaultGovernance

/-! ## Texts of identifiers -/

theorem hexDigit_inj : ∀ a < 16, ∀ b < 16, hexDigit a = hexDigit b → a = b := by decide

/-- Digits of one width determine the number up to what they leave out. -/
theorem mod_eq_of_hexDigits {width m n : Nat} (h : hexDigits width m = hexDigits width n) :
    m % 16 ^ width = n % 16 ^ width := by
  induction width generalizing m n with
  | zero => rw [Nat.pow_zero, Nat.mod_one, Nat.mod_one]
  | succ width ih =>
      rw [hexDigits, hexDigits] at h
      obtain ⟨hhigh, hlow⟩ := List.append_inj' h rfl
      have hlow' : m % 16 = n % 16 :=
        hexDigit_inj _ (Nat.mod_lt _ (by decide)) _ (Nat.mod_lt _ (by decide))
          (List.cons.inj hlow).1
      rw [Nat.pow_succ, Nat.mul_comm (16 ^ width) 16, Nat.mod_mul, Nat.mod_mul, ih hhigh, hlow']

namespace Uuid

/-- The width of a number in base sixteen is enough for it. -/
theorem lt_hexWidth (n : Nat) : n < 16 ^ hexWidth n := by
  have h : n < 2 ^ (n.log2 + 1) := Nat.lt_log2_self
  have hle : n.log2 + 1 ≤ 4 * (n.log2 / 4 + 1) := by omega
  calc
    n < 2 ^ (n.log2 + 1) := h
    _ ≤ 2 ^ (4 * (n.log2 / 4 + 1)) := Nat.pow_le_pow_right (by decide) hle
    _ = 16 ^ hexWidth n := by rw [Nat.pow_mul, hexWidth]

/-- The first group of an identifier is wide enough for all the digits that
stand before the others. -/
theorem first_eq_of_digits {m n : Nat}
    (h : hexDigits (max 8 (hexWidth m)) m = hexDigits (max 8 (hexWidth n)) n) : m = n := by
  have hwidth : max 8 (hexWidth m) = max 8 (hexWidth n) := by
    simpa using congrArg List.length h
  have hm : m < 16 ^ max 8 (hexWidth m) :=
    Nat.lt_of_lt_of_le (lt_hexWidth m) (Nat.pow_le_pow_right (by decide) (by omega))
  have hn : n < 16 ^ max 8 (hexWidth n) :=
    Nat.lt_of_lt_of_le (lt_hexWidth n) (Nat.pow_le_pow_right (by decide) (by omega))
  rw [← hwidth] at h hn
  rw [← Nat.mod_eq_of_lt hm, ← Nat.mod_eq_of_lt hn]
  exact mod_eq_of_hexDigits h

/-- Identifiers with one text are the same. -/
theorem text_inj {a b : Uuid} (h : a.text = b.text) : a = b := by
  have hchars : a.chars = b.chars := String.ofList_injective h
  simp only [chars, List.append_assoc, List.cons_append] at hchars
  -- All groups but the first have one width each, so they are split off from the end.
  obtain ⟨hfirst, hrest⟩ := List.append_inj' hchars (by simp)
  obtain ⟨h80, hrest⟩ := List.append_inj (List.cons.inj hrest).2 (by simp)
  obtain ⟨h64, hrest⟩ := List.append_inj (List.cons.inj hrest).2 (by simp)
  obtain ⟨h48, hrest⟩ := List.append_inj (List.cons.inj hrest).2 (by simp)
  have h0 := mod_eq_of_hexDigits (List.cons.inj hrest).2
  replace hfirst := first_eq_of_digits hfirst
  replace h80 := mod_eq_of_hexDigits h80
  replace h64 := mod_eq_of_hexDigits h64
  replace h48 := mod_eq_of_hexDigits h48
  obtain ⟨m⟩ := a
  obtain ⟨n⟩ := b
  simp only [twoTo, Nat.pow_eq] at hfirst h80 h64 h48 h0
  congr 1
  omega

end Uuid

/-! ## Identifiers that were drawn -/

/-- Identifiers of rows with different numbers, none of them above a number. -/
structure Drawn (serial : Nat) (ids : List Uuid) : Prop where
  distinct : ids.Nodup
  bounded : ∀ id ∈ ids, ∃ n ≤ serial, id = Uuid.ofSerial n

namespace Drawn

variable {serial serial' : Nat} {ids : List Uuid}

theorem nil : Drawn serial [] := ⟨List.nodup_nil, by simp⟩

theorem mono (h : Drawn serial ids) (hle : serial ≤ serial') : Drawn serial' ids where
  distinct := h.distinct
  bounded id hid := by
    obtain ⟨n, hn, rfl⟩ := h.bounded id hid
    exact ⟨n, Nat.le_trans hn hle, rfl⟩

/-- A row with the next number has a new identifier. -/
theorem added {α : Type} {key : α → Uuid} {rows : List α} {r : α}
    (h : Drawn serial (rows.map key)) (hr : key r = Uuid.ofSerial (serial + 1)) :
    Drawn (serial + 1) ((rows ++ [r]).map key) := by
  rw [List.map_append, List.map_singleton, hr]
  constructor
  · have hnew : Uuid.ofSerial (serial + 1) ∉ rows.map key := by
      intro hid
      obtain ⟨n, hn, he⟩ := h.bounded _ hid
      have hn' : serial + 1 = n := Uuid.ofSerial_inj he
      omega
    exact List.nodup_append.2 ⟨h.distinct, by simp, by grind⟩
  · intro id hid
    cases mem_added hid with
    | inl hold => exact (h.mono (Nat.le_succ serial)).bounded id hold
    | inr hnew => exact ⟨serial + 1, Nat.le_refl _, hnew⟩

end Drawn

/-- The options of a ballot have one number after the other. -/
theorem Ballot.drawn_rows {serial : Nat} {labels : List String} {orders : List Int} :
    ((rows serial labels orders).map VoteOption.id).Nodup ∧
      ∀ id ∈ (rows serial labels orders).map VoteOption.id, ∃ n ≥ serial, id = Uuid.ofSerial n := by
  induction labels generalizing serial orders with
  | nil => simp [rows]
  | cons label labels ih =>
      cases orders with
      | nil => simp [rows]
      | cons order orders =>
          obtain ⟨hnodup, hbound⟩ := @ih (serial + 1) orders
          rw [rows, List.map_cons]
          constructor
          · refine List.nodup_cons.2 ⟨fun hid => ?_, hnodup⟩
            obtain ⟨n, hn, he⟩ := hbound _ hid
            have := Uuid.ofSerial_inj he
            omega
          · intro id hid
            cases List.mem_cons.1 hid with
            | inl hfirst => exact ⟨serial, Nat.le_refl _, hfirst⟩
            | inr hlater =>
                obtain ⟨n, hn, he⟩ := hbound id hlater
                exact ⟨n, by omega, he⟩

/-- The options that the store keeps of a ballot are told apart. -/
theorem Ballot.nodup_of_store {serial : Nat} {drafts : List OptionDraft} {rows : List VoteOption}
    (h : store serial drafts = .ok rows) : (rows.map VoteOption.id).Nodup := by
  simp only [store, bind_eq_ok, pure_eq_ok] at h
  obtain ⟨orders, -, labels, -, required, -, rfl⟩ := h
  exact drawn_rows.1

/-! ## Tables with drawn identifiers -/

/-- Every table has identifiers that were drawn so far, and every ballot has
options that are told apart. -/
structure Store.Numbered (s : Store) : Prop where
  vaults : Drawn s.serial (s.vaults.map Vault.id)
  assets : Drawn s.serial (s.assets.map Asset.id)
  snapshots : Drawn s.serial (s.snapshots.map Snapshot.id)
  proposals : Drawn s.serial (s.proposals.map Proposal.id)
  votes : Drawn s.serial (s.votes.map Vote.id)
  options : ∀ p ∈ s.proposals, (p.options.map VoteOption.id).Nodup

/-- Replacing a row leaves the identifiers of a table. -/
theorem map_key_replaced {α : Type} (key : α → Uuid) (rows : List α) (r : α) :
    (rows.map fun x => if key x = key r then r else x).map key = rows.map key := by
  rw [List.map_map]
  exact List.map_congr_left fun x _ => key_replaced key r x

namespace Store.Numbered

variable {s s' : Store}

theorem empty : Numbered {} := ⟨.nil, .nil, .nil, .nil, .nil, by simp⟩

/-- Numbers may be skipped. -/
theorem mono (h : s.Numbered) {serial : Nat} (hle : s.serial ≤ serial) :
    Numbered { s with serial } where
  vaults := h.vaults.mono hle
  assets := h.assets.mono hle
  snapshots := h.snapshots.mono hle
  proposals := h.proposals.mono hle
  votes := h.votes.mono hle
  options := h.options

/-- A row is the one that its identifier finds. -/
theorem proposal?_of_mem (h : s.Numbered) {p : Proposal} (hp : p ∈ s.proposals) :
    s.proposal? p.id = some p :=
  find?_of_mem Proposal.id h.proposals.distinct hp

theorem asset?_of_mem (h : s.Numbered) {a : Asset} (ha : a ∈ s.assets) :
    s.asset? a.id = some a :=
  find?_of_mem Asset.id h.assets.distinct ha

theorem putVault (h : s.Numbered) (v : Vault) : (s.putVault v).Numbered :=
  { h with vaults := by rw [Store.putVault, map_key_replaced]; exact h.vaults }

theorem putAsset (h : s.Numbered) (a : Asset) : (s.putAsset a).Numbered :=
  { h with assets := by rw [Store.putAsset, map_key_replaced]; exact h.assets }

theorem moveHeld (h : s.Numbered) (vaultId : Uuid) (source target : AssetStatus)
    (time : Timestamp) : (s.moveHeld vaultId source target time).Numbered := by
  refine { h with assets := ?_ }
  have hids : (s.moveHeld vaultId source target time).assets.map Asset.id
      = s.assets.map Asset.id := by
    rw [Store.moveHeld, List.map_map]
    refine List.map_congr_left fun a _ => ?_
    rw [Function.comp_apply]
    split
    · exact Asset.id_moved a target time
    · rfl
  rw [hids]
  exact h.assets

theorem settleAssets (h : s.Numbered) (vaultId : Uuid) (target : VaultStage) (time : Timestamp) :
    (s.settleAssets vaultId target time).Numbered := by
  rw [Store.settleAssets]
  split
  · exact h.moveHeld _ _ _ _
  · split
    · exact h.moveHeld _ _ _ _
    · exact h

theorem of_paidOut {time : Timestamp} {vaultId : Uuid} {ids : List Uuid}
    (paid : PaidOut time vaultId ids s s') (h : s.Numbered) : s'.Numbered := by
  induction paid with
  | nil => exact h
  | cons found owner locked others ih => exact ih (h.putAsset _)

/-- Moving a proposal keeps its options and every identifier. -/
theorem of_moved {c : Context} {p q : Proposal} (hp : s.proposal? p.id = some p)
    (moved : Proposal.Moved c s p q s') (h : s.Numbered) : (s'.putProposal q).Numbered := by
  have hs' : s'.Numbered := by
    cases moved with
    | executed status vault effect =>
        cases effect with
        | distribution type script read paid => exact h.of_paidOut paid
        | termination type stage => exact h.putVault _
        | none type => exact h
    | _ => exact h
  obtain ⟨vaults, assets, rfl⟩ := moved.rest
  refine { hs' with proposals := ?_, options := ?_ }
  · rw [Store.putProposal, map_key_replaced]
    exact hs'.proposals
  · intro r hr
    cases Store.mem_putProposal hr with
    | inl hnew =>
        rw [hnew, (Proposal.Follows.of_moved moved).row]
        exact h.options p (List.mem_of_find?_eq_some hp)
    | inr hold => exact h.options r hold

end Store.Numbered

/-- Every change keeps identifiers distinct. -/
theorem Change.numbered {c : Context} {s s' : Store} (hc : Change c s s') (h : s.Numbered) :
    s'.Numbered := by
  have hnext := h.mono (Nat.le_succ s.serial)
  obtain ⟨op, hc⟩ := hc
  cases hc with
  | unchanged => exact h
  | vaultAdded => exact { hnext with vaults := h.vaults.added rfl }
  | vaultAdvanced reason found edge ready => exact (h.putVault _).settleAssets _ _ _
  | vaultRecorded found row => exact h.putVault _
  | assetAdded row => exact { hnext with assets := h.assets.added row.id }
  | assetMoved found edge => exact h.putAsset _
  | assetsMoved vaultId step => exact h.moveHeld _ _ _ _
  | assetsPaidOut paid => exact h.of_paidOut paid
  | assetEdited found row => exact h.putAsset _
  | snapshotAdded assetId found governed canonical =>
      exact { hnext with snapshots := h.snapshots.added rfl }
  | @proposalAdded v x p draft type row =>
      obtain ⟨hid, -, -, -, options, hoptions, -⟩ := row.fields
      have hle : s.serial + 1 ≤ s.serial + 1 + p.options.length := Nat.le_add_right _ _
      refine { h.mono (Nat.le_trans (Nat.le_succ s.serial) hle) with
        proposals := (h.proposals.added hid).mono hle
        options := fun q hq => ?_ }
      cases mem_added hq with
      | inl hold => exact h.options q hold
      | inr hnew =>
          rw [hnew]
          exact Ballot.nodup_of_store hoptions
  | proposalMoved found step moved => exact h.of_moved found moved
  | voteAdded found taken => exact { hnext with votes := h.votes.added taken.id }
  | claimsChanged claims => exact { h with }
  | settingsChanged row => exact { h with }

/-! ## Runs -/

/-- A property of stores that changes keep where identifiers are distinct is kept by
every run that starts with distinct identifiers, and they stay distinct. -/
theorem World.after_numbered_invariant {P : Store → Prop} {w : World} (hs : w.store.Numbered)
    (h : P w.store) (step : ∀ c s s', s.Numbered → P s → Change c s s' → P s')
    (calls : List Call) : (w.after calls).store.Numbered ∧ P (w.after calls).store := by
  refine after_invariant (P := fun s => s.Numbered ∧ P s) ⟨hs, h⟩ ?_ calls
  rintro c s s' ⟨hs, h⟩ hc
  exact ⟨hc.numbered hs, step c s s' hs h hc⟩

theorem storeAfter_numbered (calls : List Call) : (storeAfter calls).Numbered :=
  storeAfter_invariant .empty (fun _ _ _ h hc => hc.numbered h) calls

/-- A property of the empty store that changes keep where identifiers are distinct holds
after any run. -/
theorem storeAfter_numbered_invariant {P : Store → Prop} (h : P {})
    (step : ∀ c s s', s.Numbered → P s → Change c s s' → P s') (calls : List Call) :
    P (storeAfter calls) := (World.after_numbered_invariant .empty h step calls).2

end VaultGovernance
