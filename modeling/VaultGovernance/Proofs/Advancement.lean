import VaultGovernance.Proofs.Enactment

/-!
# VaultGovernance.Proofs.Advancement

Moving a vault to a stage.  What it asks for is a row, an edge of the stage table and the
configuration that the stage needs; what it leaves is `Store.advanced`, written down row by
row, and what it says where it refuses is `Vault.Refused`.

The assets of the vault are moved in bulk.  Going through them one after the other, with the
check of a single move for each, comes to the same in any order
(`Asset.moveEach_eq_moveAll`), because the selected rows are those that pass the check and
no move changes another row.
-/

namespace VaultGovernance

open VaultGovernance.Action

section Actions

variable {c : Context} {w : World}

namespace Asset

/-! ## One asset after the other -/

/-- Moves assets to a status, one after the other, and counts them. -/
def moveEach (target : AssetStatus) : List Asset → Action Nat
  | [] => done 0
  | a :: rest => do
    let _ ← move a target
    let count ← moveEach target rest
    done (count + 1)

/-- A row is replaced by its successor, and every other row stays. -/
theorem assets_putAsset_moved {s : Store} {a : Asset} {target : AssetStatus} {time : Timestamp}
    (hdistinct : (s.assets.map Asset.id).Nodup) (ha : a ∈ s.assets) :
    (s.putAsset (a.moved target time)).assets =
      s.assets.map fun x => if x = a then x.moved target time else x := by
  have hrows := map_replaced_eq Asset.id hdistinct ha (·.moved target time) (id_moved a target time)
  refine hrows.trans (List.map_congr_left fun x hx => ?_)
  have hsame : x.id = a.id ↔ x = a :=
    ⟨fun hid => List.inj_on_of_nodup_map hdistinct hx ha hid, congrArg Asset.id⟩
  exact if_congr hsame rfl rfl

/-- One row moved and then others is all of them moved. -/
theorem map_moved_cons {rows rest : List Asset} {a : Asset} {target : AssetStatus}
    {time : Timestamp} (hdistinct : (rows.map Asset.id).Nodup) (ha : a ∈ rows)
    (hnew : a ∉ rest) (hrest : ∀ b ∈ rest, b ∈ rows) :
    ((rows.map fun x => if x = a then x.moved target time else x).map fun x =>
        if x ∈ rest then x.moved target time else x) =
      rows.map fun x => if x ∈ a :: rest then x.moved target time else x := by
  rw [List.map_map]
  refine List.map_congr_left fun x hx => ?_
  rw [Function.comp_apply]
  by_cases hxa : x = a
  · subst hxa
    -- The successor has the identifier of its row, so it is not among the rest.
    have hmoved : x.moved target time ∉ rest := fun hmem =>
      have hsame := List.inj_on_of_nodup_map hdistinct (hrest _ hmem) ha (id_moved x target time)
      hnew (hsame ▸ hmem)
    rw [if_pos rfl, if_neg hmoved, if_pos List.mem_cons_self]
  · rw [if_neg hxa]
    simp [hxa]

/-- Rows with distinct identifiers are moved without regard to each other. -/
theorem moveEach_of_status {source target : AssetStatus} (hedge : target ∈ source.next)
    {selected : List Asset} (hselected : selected.Nodup)
    (hdistinct : (w.store.assets.map Asset.id).Nodup)
    (hstatus : ∀ a ∈ selected, a ∈ w.store.assets ∧ a.status = source) :
    moveEach target selected c w =
      (.ok selected.length,
        ⟨{ w.store with assets := w.store.assets.map fun a =>
            if a ∈ selected then a.moved target c.now else a },
          List.replicate selected.length (.assetMoved source target) ++ w.events⟩) := by
  induction selected generalizing w with
  | nil => simp [moveEach]
  | cons a rest ih =>
      obtain ⟨hnew, hrest⟩ := List.nodup_cons.1 hselected
      obtain ⟨⟨ha, rfl⟩, hlater⟩ := List.forall_mem_cons.1 hstatus
      have hmove := move_of_mem_next (c := c) (w := w) hedge
      have hrows : (w.store.putAsset (a.moved target c.now)).assets = w.store.assets.map fun x =>
          if x = a then x.moved target c.now else x := assets_putAsset_moved hdistinct ha
      have hids : (w.store.putAsset (a.moved target c.now)).assets.map Asset.id =
          w.store.assets.map Asset.id := map_key_replaced Asset.id _ _
      have hnext := ih (w := ⟨w.store.putAsset (a.moved target c.now),
        .assetMoved a.status target :: w.events⟩) hrest (hids ▸ hdistinct) fun b hb => by
          obtain ⟨hmem, hsame⟩ := hlater b hb
          refine ⟨?_, hsame⟩
          change b ∈ (w.store.putAsset (a.moved target c.now)).assets
          rw [hrows]
          refine List.mem_map.2 ⟨b, hmem, if_neg ?_⟩
          rintro rfl
          exact hnew hb
      have hassets : ((w.store.assets.map fun x => if x = a then x.moved target c.now else x).map
          fun x => if x ∈ rest then x.moved target c.now else x) =
            w.store.assets.map fun x => if x ∈ a :: rest then x.moved target c.now else x :=
        map_moved_cons hdistinct ha hnew fun b hb => (hlater b hb).1
      have hevents : List.replicate rest.length (Event.assetMoved a.status target) ++
          Event.assetMoved a.status target :: w.events =
            List.replicate (rest.length + 1) (Event.assetMoved a.status target) ++ w.events := by
        rw [List.replicate_succ', List.append_assoc, List.singleton_append]
      rw [moveEach, bind_eq, andThen_of_ok hmove, bind_eq, andThen_of_ok hnext, done_run]
      dsimp only
      rw [hrows, hassets, hevents]
      rfl

/-- Going through the selected assets of a vault, in any order and with a check for each,
moves all of them. -/
theorem moveEach_eq_moveAll {vaultId : Uuid} {source target : AssetStatus}
    (hedge : target ∈ source.next) (hdistinct : (w.store.assets.map Asset.id).Nodup)
    {selected : List Asset}
    (hselected : selected.Perm (w.store.assets.filter (isHeld vaultId source))) :
    moveEach target selected c w = moveAll vaultId source target c w := by
  have hmem {a : Asset} : a ∈ selected ↔ a ∈ w.store.assets ∧ isHeld vaultId source a = true := by
    rw [hselected.mem_iff, List.mem_filter]
  have hnodup : selected.Nodup :=
    hselected.nodup_iff.2 ((List.Nodup.of_map _ hdistinct).filter _)
  rw [moveEach_of_status hedge hnodup hdistinct fun a ha => ?_]
  · have hassets : (w.store.assets.map fun a =>
        if a ∈ selected then a.moved target c.now else a) =
          w.store.assets.map fun a =>
            if isHeld vaultId source a then a.moved target c.now else a := by
      refine List.map_congr_left fun a ha => ?_
      simp only [hmem, ha, true_and]
    rw [hassets, hselected.length_eq]
    change _ = (Except.ok _, World.mk _ ((List.replicate _ _).reverse ++ w.events))
    rw [List.reverse_replicate]
  · obtain ⟨hrow, hheld⟩ := hmem.1 ha
    exact ⟨hrow, (isHeld_iff.1 hheld).2⟩

end Asset

namespace Vault

/-! ## What a stage asks for -/

/-- A stage may follow the stage of a vault, and what it needs is recorded. -/
structure Ready (v : Vault) (target : VaultStage) : Prop where
  edge : target ∈ v.stage.next
  recorded : ∀ e ∈ v.requirements target, e.2 ≠ .null

/-- Why a vault is not moved: it is not there, the stage may not follow, or what the stage
needs is not recorded, and then the refusal names all of it. -/
inductive Refused (s : Store) (id : Uuid) (target : VaultStage) : Fault → Prop
  | unknown (absent : s.vault? id = none) :
      Refused s id target (.refusal (.notFound entity id.toJson))
  | closed {v : Vault} (found : s.vault? id = some v) (edge : target ∉ v.stage.next) :
      Refused s id target (.refusal (.invalidTransition entity id.toJson
        (Choice.toJson v.stage) (Choice.toJson target) none []))
  | missing {v : Vault} (fields : List String) (found : s.vault? id = some v)
      (edge : target ∈ v.stage.next)
      (exact : fields = ((v.requirements target).filter fun e => e.2 = .null).map Prod.fst)
      (some : fields ≠ []) :
      Refused s id target (.refusal (.invalidTransition entity id.toJson
        (Choice.toJson v.stage) (Choice.toJson target)
        (.some ("missing " ++ DomainError.commaList fields))
        [("missing_fields", DomainError.textList fields)]))

variable {id : Uuid} {v : Vault} {target : VaultStage} {reason : Option String}

theorem missingFor_eq (v : Vault) (target : VaultStage) :
    v.missingFor target = ((v.requirements target).filter fun e => e.2 = .null).map Prod.fst := by
  rw [missingFor]
  refine congrArg (List.map Prod.fst) (List.filter_congr fun e _ => ?_)
  rw [Bool.eq_iff_iff, decide_eq_true_iff, Json.isNull_iff]

theorem missingFor_eq_nil_iff :
    v.missingFor target = [] ↔ ∀ e ∈ v.requirements target, e.2 ≠ .null := by
  rw [missingFor_eq, List.map_eq_nil_iff, List.filter_eq_nil_iff]
  simp only [decide_eq_true_iff]

/-- Moving the assets of a vault ends with a result. -/
theorem moveAssets_total (id : Uuid) (target : VaultStage) :
    ∃ n w', moveAssets id target c w = (.ok n, w') := by
  obtain ⟨n, hn⟩ := succeeds_moveAssets id target c w
  exact ⟨n, _, Prod.ext hn rfl⟩

/-- Where everything is there that a stage asks for, it is entered. -/
theorem advance_of_ready (hv : w.store.vault? id = some v) (h : v.Ready target) :
    ∃ w', advance id target reason c w = (.ok (v.entered target reason c.now), w') := by
  have hedge : v.stage.next.contains target = true := List.contains_iff_mem.2 h.edge
  have hready : (v.missingFor target).isEmpty = true :=
    List.isEmpty_iff.2 (missingFor_eq_nil_iff.2 h.recorded)
  obtain ⟨n, w', hmove⟩ := moveAssets_total (c := c)
    (w := { w with store := w.store.putVault (v.entered target reason c.now) }) v.id target
  rw [advance, bind_eq, andThen_of_ok (find_eq_ok.2 ⟨hv, rfl⟩), if_pos hedge]
  dsimp only
  rw [if_pos hready]
  simp only [bind_eq, now_andThen, modify_andThen]
  exact ⟨_, andThen_of_ok hmove⟩

theorem advance_of_unknown (h : w.store.vault? id = none) :
    advance id target reason c w = (.error (.refusal (.notFound entity id.toJson)), w) := by
  rw [advance, bind_eq]
  refine andThen_of_error ?_
  simp only [find, bind_eq, store_andThen, h, refuse_run]

theorem advance_of_closed (hv : w.store.vault? id = some v) (hedge : target ∉ v.stage.next) :
    advance id target reason c w = (.error (.refusal (.invalidTransition entity id.toJson
      (Choice.toJson v.stage) (Choice.toJson target) none [])), w) := by
  have hid : v.id = id := Store.id_of_vault? hv
  rw [advance, bind_eq, andThen_of_ok (find_eq_ok.2 ⟨hv, rfl⟩),
    if_neg fun h => hedge (List.contains_iff_mem.1 h), ← hid]
  rfl

theorem advance_of_missing (hv : w.store.vault? id = some v) (hedge : target ∈ v.stage.next)
    (hmissing : v.missingFor target ≠ []) :
    advance id target reason c w = (.error (.refusal (.invalidTransition entity id.toJson
      (Choice.toJson v.stage) (Choice.toJson target)
      (some ("missing " ++ DomainError.commaList (v.missingFor target)))
      [("missing_fields", DomainError.textList (v.missingFor target))])), w) := by
  have hid : v.id = id := Store.id_of_vault? hv
  rw [advance, bind_eq, andThen_of_ok (find_eq_ok.2 ⟨hv, rfl⟩),
    if_pos (List.contains_iff_mem.2 hedge)]
  dsimp only
  rw [if_neg fun h => hmissing (List.isEmpty_iff.1 h), ← hid]
  rfl

/-- A vault enters a stage, or it is refused and nothing changes. -/
theorem advance_cases (id : Uuid) (target : VaultStage) (reason : Option String) (c : Context)
    (w : World) :
    (∃ v, w.store.vault? id = some v ∧ v.Ready target ∧
      ∃ w', advance id target reason c w = (.ok (v.entered target reason c.now), w')) ∨
    ((¬ ∃ v, w.store.vault? id = some v ∧ v.Ready target) ∧
      ∃ e, Refused w.store id target e ∧ advance id target reason c w = (.error e, w)) := by
  rcases hv : w.store.vault? id with _ | v
  · exact .inr ⟨by simp, _, .unknown hv, advance_of_unknown hv⟩
  by_cases hedge : target ∈ v.stage.next
  · by_cases hmissing : v.missingFor target = []
    · have hready : v.Ready target := ⟨hedge, missingFor_eq_nil_iff.1 hmissing⟩
      exact .inl ⟨v, rfl, hready, advance_of_ready hv hready⟩
    · refine .inr ⟨?_, _, .missing _ hv hedge (missingFor_eq v target) hmissing,
        advance_of_missing hv hedge hmissing⟩
      rintro ⟨u, hu, hready⟩
      obtain rfl := Option.some.inj hu
      exact hmissing (missingFor_eq_nil_iff.2 hready.recorded)
  · refine .inr ⟨?_, _, .closed hv hedge, advance_of_closed hv hedge⟩
    rintro ⟨u, hu, hready⟩
    obtain rfl := Option.some.inj hu
    exact hedge hready.edge

/-- The result is the row that entered the stage. -/
theorem eq_entered_of_advance {v' : Vault} {w' : World} (hv : w.store.vault? id = some v)
    (h : advance id target reason c w = (.ok v', w')) : v' = v.entered target reason c.now := by
  rcases advance_cases id target reason c w with ⟨u, hu, -, w₁, hrun⟩ | ⟨-, e, -, hrun⟩
  · obtain rfl := Option.some.inj (hv.symm.trans hu)
    rw [hrun] at h
    exact (Except.ok.inj (congrArg Prod.fst h)).symm
  · rw [hrun] at h
    cases h

/-- A refusal stays one when the transaction ends. -/
theorem Refused.atCommit {s : Store} {e : Fault} (h : Refused s id target e) : e.atCommit = e := by
  cases h <;> rfl

end Vault

end Actions

/-! ## What entering a stage leaves -/

/-- The row of an asset when a vault has entered a stage: the locked stage locks what the
vault holds pending, and the stages that return assets release what it holds locked. -/
def Asset.settled (a : Asset) (vaultId : Uuid) (target : VaultStage) (time : Timestamp) : Asset :=
  if target = .locked ∧ a.vaultId = vaultId ∧ a.status = .pending then
    { a with status := .locked, lockedAt := some time, updatedAt := some time }
  else if (target = .failed ∨ target = .terminated) ∧ a.vaultId = vaultId ∧
      a.status = .locked then
    { a with status := .released, releasedAt := some time, updatedAt := some time }
  else a

/-- The store as a vault that enters a stage leaves it. -/
def Store.advanced (s : Store) (v : Vault) (target : VaultStage) (reason : Option String)
    (time : Timestamp) : Store :=
  { s with
    vaults := s.vaults.map fun u =>
      if u.id = v.id then
        { u with
          stage := target
          updatedAt := some time
          failureReason := u.reasonAfter target reason }
      else u
    assets := s.assets.map fun a => a.settled v.id target time }

/-- What became of a store when a vault entered a stage: the rows as they are written down,
and what follows for the assets. -/
structure Vault.Advanced (time : Timestamp) (v : Vault) (target : VaultStage)
    (reason : Option String) (s s' : Store) : Prop where
  store : s' = s.advanced v target reason time
  nonePending : target = .locked → ∀ a ∈ s'.assets, a.vaultId = v.id → a.status ≠ .pending
  noneLocked : target = .failed ∨ target = .terminated →
    ∀ a ∈ s'.assets, a.vaultId = v.id → a.status ≠ .locked
  others : target ≠ .locked → target ≠ .failed → target ≠ .terminated → s'.assets = s.assets
  kept : ∀ a ∈ s.assets, a.status = .released ∨ a.status = .distributed ∨
    (a.status = .pending ∧ target ≠ .locked) → s'.asset? a.id = some a

section Advanced

variable {time : Timestamp} {s : Store} {v : Vault} {target : VaultStage} {reason : Option String}
  {a : Asset} {vaultId : Uuid}

namespace Asset

@[simp] theorem id_settled : (a.settled vaultId target time).id = a.id := by
  unfold settled
  split_ifs <;> rfl

@[simp] theorem vaultId_settled : (a.settled vaultId target time).vaultId = a.vaultId := by
  unfold settled
  split_ifs <;> rfl

/-- An asset stays as it is where nothing is asked of its status. -/
theorem settled_of_status (hlocks : target = .locked → a.status ≠ .pending)
    (hreleases : target = .failed ∨ target = .terminated → a.status ≠ .locked) :
    a.settled vaultId target time = a := by
  rw [settled, if_neg fun h => hlocks h.1 h.2.2, if_neg fun h => hreleases h.1 h.2.2]

theorem status_settled_ne_pending (hlocked : target = .locked) (hvault : a.vaultId = vaultId) :
    (a.settled vaultId target time).status ≠ .pending := by
  by_cases hpending : a.status = .pending
  · rw [settled, if_pos ⟨hlocked, hvault, hpending⟩]
    simp
  · rwa [settled_of_status (fun _ => hpending)]
    rintro (hfinal | hfinal) <;> simp [hfinal] at hlocked

theorem status_settled_ne_locked (hfinal : target = .failed ∨ target = .terminated)
    (hvault : a.vaultId = vaultId) : (a.settled vaultId target time).status ≠ .locked := by
  have hother : target ≠ .locked := by rintro rfl; simp at hfinal
  by_cases hlocked : a.status = .locked
  · rw [settled, if_neg fun h => hother h.1, if_pos ⟨hfinal, hvault, hlocked⟩]
    simp
  · rwa [settled_of_status (fun h => absurd h hother) fun _ => hlocked]

end Asset

namespace Store

/-- The bulk moves of entering a stage are the rows written down. -/
theorem settleAssets_eq :
    s.settleAssets vaultId target time =
      { s with assets := s.assets.map fun a => a.settled vaultId target time } := by
  have hreleases : target.releasesAssets = true ↔ target = .failed ∨ target = .terminated := by
    cases target <;> simp [VaultStage.releasesAssets]
  have hrows {source next : AssetStatus} (hrow : ∀ a : Asset,
      (if Asset.isHeld vaultId source a then a.moved next time else a) =
        a.settled vaultId target time) : s.moveHeld vaultId source next time =
          { s with assets := s.assets.map fun a => a.settled vaultId target time } := by
    rw [moveHeld, List.map_congr_left fun a _ => hrow a]
  rw [settleAssets]
  split
  · next hlocked =>
    refine hrows fun a => ?_
    by_cases hheld : a.vaultId = vaultId ∧ a.status = .pending
    · rw [if_pos (Asset.isHeld_iff.2 hheld), Asset.settled, if_pos ⟨hlocked, hheld⟩]
      rfl
    · rw [if_neg (mt Asset.isHeld_iff.1 hheld), Asset.settled, if_neg fun h => hheld h.2, if_neg]
      rw [hlocked]
      simp
  · next hother =>
    split
    · next hfinal =>
      refine hrows fun a => ?_
      by_cases hheld : a.vaultId = vaultId ∧ a.status = .locked
      · rw [if_pos (Asset.isHeld_iff.2 hheld), Asset.settled, if_neg (fun h => hother h.1),
          if_pos ⟨hreleases.1 hfinal, hheld⟩]
        rfl
      · rw [if_neg (mt Asset.isHeld_iff.1 hheld), Asset.settled, if_neg (fun h => hother h.1),
          if_neg fun h => hheld h.2]
    · next hfinal =>
      have hsame : ∀ a ∈ s.assets, a.settled vaultId target time = a := fun a _ =>
        Asset.settled_of_status (fun h => absurd h hother)
          fun h => absurd (hreleases.2 h) hfinal
      rw [List.map_congr_left hsame, List.map_id']

theorem putVault_settleAssets (hs : s.Numbered) (hv : s.vault? v.id = some v) :
    (s.putVault (v.entered target reason time)).settleAssets v.id target time =
      s.advanced v target reason time := by
  have hvaults := map_replaced_eq Vault.id hs.vaults.distinct (List.mem_of_find?_eq_some hv)
    (·.entered target reason time) rfl
  rw [settleAssets_eq, putVault, hvaults]
  rfl

theorem advanced_spec (hs : s.Numbered) :
    Vault.Advanced time v target reason s (s.advanced v target reason time) where
  store := rfl
  nonePending hlocked a ha hvault := by
    obtain ⟨b, -, rfl⟩ := List.mem_map.1 ha
    exact Asset.status_settled_ne_pending hlocked (by simpa using hvault)
  noneLocked hfinal a ha hvault := by
    obtain ⟨b, -, rfl⟩ := List.mem_map.1 ha
    exact Asset.status_settled_ne_locked hfinal (by simpa using hvault)
  others hlocked hfailed hterminated := by
    have hsame : ∀ a ∈ s.assets, a.settled v.id target time = a := fun a _ =>
      Asset.settled_of_status (fun h => absurd h hlocked)
        fun h => h.elim (absurd · hfailed) (absurd · hterminated)
    change s.assets.map (fun a => a.settled v.id target time) = s.assets
    rw [List.map_congr_left hsame, List.map_id']
  kept a ha hstatus := by
    have hsame : a.settled v.id target time = a := by
      refine Asset.settled_of_status (fun hlocked => ?_) fun hfinal => ?_
      · rcases hstatus with h | h | ⟨-, h⟩ <;> simp_all
      · rcases hstatus with h | h | ⟨h, -⟩ <;> simp [h]
    have hids : (s.advanced v target reason time).assets.map Asset.id = s.assets.map Asset.id := by
      change (s.assets.map fun a => a.settled v.id target time).map Asset.id = _
      rw [List.map_map]
      exact List.map_congr_left fun a _ => Asset.id_settled
    refine find?_of_mem Asset.id (hids ▸ hs.assets.distinct) ?_
    exact List.mem_map.2 ⟨a, ha, hsame⟩

end Store

end Advanced

/-- Moving a vault to a stage after any run.  It succeeds exactly when the vault is there, the
stage may follow its own, and what the stage needs is recorded; otherwise it says which of
these fails and nothing changes.  On success the row of the vault is written, entering the
locked stage locks the pending assets of the vault and entering a final stage that returns
assets releases its locked ones, each with the time, and every other row and column is left.
Going through the assets in any order, with a check for each, comes to the same. -/
theorem advancement_exact (calls : List Call) (c : Context) (id : Uuid) (target : VaultStage)
    (reason : Option String) :
    let w := World.after {} calls
    let s := w.store
    let r := transaction (Vault.advance id target reason) c w
    ((∃ v, r.1 = .ok v) ↔ ∃ v, s.vault? id = some v ∧ v.Ready target) ∧
      (∀ v', r.1 = .ok v' → ∃ v, s.vault? id = some v ∧
        v' = v.entered target reason c.now ∧
        Vault.Advanced c.now v target reason s r.2.store) ∧
      (∀ e, r.1 = .error e → Vault.Refused s id target e ∧ r.2 = w) ∧
      ∀ source next, next ∈ source.next →
        ∀ selected, selected.Perm (s.assets.filter (Asset.isHeld id source)) →
          ∀ w', w'.store.assets = s.assets →
            Asset.moveEach next selected c w' = Asset.moveAll id source next c w' := by
  intro w s r
  have hnumbered : s.Numbered := storeAfter_numbered calls
  refine ⟨?_, ?_, ?_, ?_⟩
  · rcases Vault.advance_cases id target reason c w with
      ⟨v, hv, hready, w', hrun⟩ | ⟨hnone, e, -, hrun⟩
    · exact iff_of_true ⟨_, congrArg Prod.fst (transaction_eq_ok.2 hrun)⟩ ⟨v, hv, hready⟩
    · refine iff_of_false ?_ hnone
      rintro ⟨v, hv⟩
      have hok := transaction_eq_ok.1 (Prod.ext hv rfl : r = (.ok v, r.2))
      rw [hrun] at hok
      cases hok
  · intro v' hv'
    have hadvance := transaction_eq_ok.1 (Prod.ext hv' rfl : r = (.ok v', r.2))
    obtain ⟨v, hv, -, -, hstore⟩ := Vault.advance_ok hadvance
    obtain rfl := Store.id_of_vault? hv
    refine ⟨v, hv, Vault.eq_entered_of_advance hv hadvance, ?_⟩
    rw [hstore, Store.putVault_settleAssets hnumbered hv]
    exact Store.advanced_spec hnumbered
  · intro e he
    rcases Vault.advance_cases id target reason c w with
      ⟨v, hv, hready, w', hrun⟩ | ⟨-, f, hrefused, hrun⟩
    · rw [show r = _ from transaction_eq_ok.2 hrun] at he
      cases he
    · have hfails : r = (.error f, w) := by
        change transaction _ c w = _
        rw [transaction, hrun]
        dsimp only
        rw [hrefused.atCommit]
      rw [hfails] at he ⊢
      obtain rfl := Except.error.inj he
      exact ⟨hrefused, rfl⟩
  · intro source next hedge selected hselected w' hassets
    rw [← hassets] at hselected
    exact Asset.moveEach_eq_moveAll hedge (hassets ▸ hnumbered.assets.distinct) hselected

namespace Sample

/-- The sample run up to the close of the acquire window. -/
def acquired : List Call := opening.take 7

/-- When its vault is locked. -/
def locking : Context := (call 8 .getAllSettings).context

end Sample

/-- The vault of the sample is locked, and its pending asset with it. -/
theorem advancement_exact_of_sample :
    (World.after {} Sample.acquired).store.assets.map (·.status) = [.pending] ∧
      (∃ v, (transaction (Vault.advance Sample.vaultId .locked none) Sample.locking
        (World.after {} Sample.acquired)).1 = .ok v) ∧
      ∀ a ∈ (transaction (Vault.advance Sample.vaultId .locked none) Sample.locking
        (World.after {} Sample.acquired)).2.store.assets,
          a.vaultId = Sample.vaultId → a.status ≠ .pending := by
  let s := (World.after {} Sample.acquired).store
  have hv : s.vault? Sample.vaultId = some (s.vaults.headD default) := by decide +kernel
  have hready : (s.vaults.headD default).Ready .locked := ⟨by decide +kernel, by decide +kernel⟩
  obtain ⟨v', hv'⟩ :=
    (advancement_exact Sample.acquired Sample.locking Sample.vaultId .locked none).1.2
      ⟨_, hv, hready⟩
  obtain ⟨v, hfound, -, hadvanced⟩ :=
    (advancement_exact Sample.acquired Sample.locking Sample.vaultId .locked none).2.1 v' hv'
  have hid : v.id = Sample.vaultId := Store.id_of_vault? hfound
  exact ⟨by decide +kernel, ⟨v', hv'⟩, fun a ha hvault =>
    hadvanced.nonePending rfl a ha (hvault.trans hid.symm)⟩

end VaultGovernance
