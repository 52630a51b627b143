import VaultGovernance.Proofs.Counters

/-!
# VaultGovernance.Proofs.Committed

What was committed, next to what the counters show.  An operation notes every move of
an asset, every entry of a vault into a stage and every vote as it makes them
(`World.Told`), and a call that fails takes back what it did to the store and not what
it noted.  Nothing is noted by operations that fail, except by a payout that fails at a
later asset of its list.
-/

namespace VaultGovernance

open VaultGovernance.Action

/-! ## Moves and entries between two stores -/

namespace Store

variable {s s' : Store}

/-- How many assets of the first store go from one status to another. -/
def moves (source target : AssetStatus) (s s' : Store) : Nat :=
  (s.assets.map Asset.id).countP fun id =>
    source ≠ target ∧ Asset.statusIn id s = some source ∧ Asset.statusIn id s' = some target

/-- How many vaults of the first store come to a stage from another. -/
def entries (stage : VaultStage) (s s' : Store) : Nat :=
  (s.vaults.map Vault.id).countP fun id =>
    Vault.stageIn id s ≠ some stage ∧ Vault.stageIn id s' = some stage

theorem statusIn_of_mem (hs : s.Numbered) {a : Asset} (ha : a ∈ s.assets) :
    Asset.statusIn a.id s = some a.status := by
  rw [Asset.statusIn, hs.asset?_of_mem ha, Option.map_some]

theorem exists_stageIn {id : Uuid} (h : id ∈ s.vaults.map Vault.id) :
    ∃ stage, Vault.stageIn id s = some stage := by
  obtain ⟨v, hv, rfl⟩ := List.mem_map.1 h
  have hfound : (s.vault? v.id).isSome = true :=
    List.find?_isSome.2 ⟨v, hv, decide_eq_true rfl⟩
  obtain ⟨u, hu⟩ := Option.isSome_iff_exists.1 hfound
  exact ⟨u.stage, by rw [Vault.stageIn, hu, Option.map_some]⟩

/-- Where no asset leaves its status there are no moves. -/
theorem moves_eq_zero {source target : AssetStatus}
    (h : ∀ id status, Asset.statusIn id s = some status → Asset.statusIn id s' = some status) :
    moves source target s s' = 0 := by
  refine List.countP_eq_zero.2 fun id _ hmoved => ?_
  obtain ⟨hne, hbefore, hafter⟩ := of_decide_eq_true hmoved
  rw [h id source hbefore] at hafter
  exact hne (Option.some.inj hafter)

/-- Where no vault leaves its stage there are no entries. -/
theorem entries_eq_zero {stage : VaultStage}
    (h : ∀ id stage, Vault.stageIn id s = some stage → Vault.stageIn id s' = some stage) :
    entries stage s s' = 0 := by
  refine List.countP_eq_zero.2 fun id hid hentered => ?_
  obtain ⟨hbefore, hafter⟩ := of_decide_eq_true hentered
  obtain ⟨stage', hstage'⟩ := exists_stageIn hid
  rw [h id stage' hstage'] at hafter
  exact hbefore (hstage'.trans hafter)

theorem entries_of_vaults {stage : VaultStage} (h : s'.vaults = s.vaults) :
    entries stage s s' = 0 :=
  entries_eq_zero fun id _ hid => by
    rw [Vault.stageIn, vault?] at hid ⊢
    rwa [h]

theorem moves_of_assets {source target : AssetStatus} (h : s'.assets = s.assets) :
    moves source target s s' = 0 :=
  moves_eq_zero fun id _ hid => by
    rw [Asset.statusIn, asset?] at hid ⊢
    rwa [h]

/-- Moves are told by the assets alone. -/
theorem moves_congr {s'' : Store} {source target : AssetStatus} (h : s''.assets = s'.assets) :
    moves source target s s'' = moves source target s s' :=
  List.countP_congr fun id _ => by
    have hstatus : Asset.statusIn id s'' = Asset.statusIn id s' := by
      rw [Asset.statusIn, Asset.statusIn, asset?, asset?, h]
    rw [decide_eq_true_iff, decide_eq_true_iff, hstatus]

/-- Entries are told by the vaults alone. -/
theorem entries_congr {s'' : Store} {stage : VaultStage} (h : s''.vaults = s'.vaults) :
    entries stage s s'' = entries stage s s' :=
  List.countP_congr fun id _ => by
    have hstage : Vault.stageIn id s'' = Vault.stageIn id s' := by
      rw [Vault.stageIn, Vault.stageIn, vault?, vault?, h]
    rw [decide_eq_true_iff, decide_eq_true_iff, hstage]

/-- Moves over two steps add up, where no asset moves in both. -/
theorem moves_add {s'' : Store} (hids : s'.assets.map Asset.id = s.assets.map Asset.id)
    (honce : ∀ id, Asset.statusIn id s = Asset.statusIn id s' ∨
      Asset.statusIn id s' = Asset.statusIn id s'') (source target : AssetStatus) :
    moves source target s s'' = moves source target s s' + moves source target s' s'' := by
  have hstays {id : Uuid} {s s' : Store} (h : Asset.statusIn id s = Asset.statusIn id s') :
      decide (source ≠ target ∧ Asset.statusIn id s = some source ∧
        Asset.statusIn id s' = some target) = false := by
    rw [decide_eq_false_iff_not, h]
    rintro ⟨hne, hbefore, hafter⟩
    exact hne (Option.some.inj (hbefore.symm.trans hafter))
  rw [moves, moves, moves, hids]
  induction s.assets.map Asset.id with
  | nil => rfl
  | cons id ids ih =>
      rw [List.countP_cons, List.countP_cons, List.countP_cons, ih]
      rcases honce id with hfirst | hsecond
      · rw [hstays hfirst, hfirst, if_neg Bool.false_ne_true]
        omega
      · rw [hstays hsecond, hsecond, if_neg Bool.false_ne_true]
        omega

/-- One row that is written counts once. -/
theorem countP_one {α : Type} [DecidableEq α] {rows : List α} (hn : rows.Nodup) {k : α}
    (hk : k ∈ rows) (P : Prop) [Decidable P] :
    (rows.countP fun x => x = k ∧ P) = if P then 1 else 0 := by
  by_cases hP : P
  · rw [if_pos hP, ← List.count_eq_one_of_mem hn hk, List.count]
    exact List.countP_congr fun x _ => by simp [hP]
  · rw [if_neg hP]
    exact List.countP_eq_zero.2 fun x _ h => hP (of_decide_eq_true h).2

theorem statusIn_putAsset {a : Asset} (found : s.asset? a.id = some a) (target : AssetStatus)
    (time : Timestamp) (id : Uuid) :
    Asset.statusIn id (s.putAsset (a.moved target time)) =
      if id = a.id then some target else Asset.statusIn id s := by
  rw [Asset.statusIn, asset?_putAsset, Asset.id_moved]
  by_cases hid : id = a.id
  · rw [if_pos hid, if_pos hid, hid, found]
    cases target <;> rfl
  · rw [if_neg hid, if_neg hid, Asset.statusIn]

/-- Moving one asset is one move. -/
theorem moves_putAsset (hs : s.Numbered) {a : Asset} (found : s.asset? a.id = some a)
    {target : AssetStatus} (hne : a.status ≠ target) (time : Timestamp)
    (source' target' : AssetStatus) :
    moves source' target' s (s.putAsset (a.moved target time)) =
      if a.status = source' ∧ target = target' then 1 else 0 := by
  have hmem : a.id ∈ s.assets.map Asset.id :=
    List.mem_map_of_mem (List.mem_of_find?_eq_some found)
  rw [← countP_one hs.assets.distinct hmem, moves]
  refine List.countP_congr fun id _ => ?_
  rw [decide_eq_true_iff, decide_eq_true_iff, statusIn_putAsset found]
  by_cases hid : id = a.id
  · rw [if_pos hid, hid, Asset.statusIn, found, Option.map_some, Option.some.injEq,
      Option.some.injEq]
    constructor
    · exact fun h => ⟨rfl, h.2⟩
    · rintro ⟨-, rfl, rfl⟩
      exact ⟨hne, rfl, rfl⟩
  · rw [if_neg hid]
    constructor
    · rintro ⟨hmoved, hbefore, hafter⟩
      exact absurd (Option.some.inj (hbefore.symm.trans hafter)) hmoved
    · exact fun h => absurd h.1 hid

/-- Moving what a vault holds is as many moves. -/
theorem moves_moveHeld (hs : s.Numbered) (vaultId : Uuid) {source target : AssetStatus}
    (hne : source ≠ target) (time : Timestamp) (source' target' : AssetStatus) :
    moves source' target' s (s.moveHeld vaultId source target time) =
      if source = source' ∧ target = target' then
        (s.assets.filter (Asset.isHeld vaultId source)).length else 0 := by
  have hstatus {a : Asset} (ha : a ∈ s.assets) :
      Asset.statusIn a.id (s.moveHeld vaultId source target time) =
        some (if Asset.isHeld vaultId source a then target else a.status) := by
    rw [Asset.statusIn, asset?_moveHeld, hs.asset?_of_mem ha, Option.map_some, Option.map_some]
    split
    · cases target <;> rfl
    · rfl
  rw [moves, List.countP_map, ← List.countP_eq_length_filter]
  by_cases hsame : source = source' ∧ target = target'
  · obtain ⟨rfl, rfl⟩ := hsame
    rw [if_pos ⟨rfl, rfl⟩]
    refine List.countP_congr fun a ha => ?_
    rw [Function.comp_apply, decide_eq_true_iff, statusIn_of_mem hs ha, hstatus ha,
      Option.some.injEq, Option.some.injEq]
    constructor
    · rintro ⟨-, hbefore, hafter⟩
      by_contra hheld
      rw [if_neg hheld] at hafter
      exact hne (hbefore.symm.trans hafter)
    · intro hheld
      have hsource : a.status = source := by
        rw [Asset.isHeld_iff] at hheld
        exact hheld.2
      exact ⟨hne, hsource, if_pos hheld⟩
  · rw [if_neg hsame]
    refine List.countP_eq_zero.2 fun a ha hmoved => ?_
    rw [Function.comp_apply, decide_eq_true_iff, statusIn_of_mem hs ha, hstatus ha,
      Option.some.injEq, Option.some.injEq] at hmoved
    obtain ⟨hne', hbefore, hafter⟩ := hmoved
    by_cases hheld : Asset.isHeld vaultId source a = true
    · rw [if_pos hheld] at hafter
      rw [Asset.isHeld_iff] at hheld
      exact hsame ⟨hheld.2.symm.trans hbefore, hafter⟩
    · rw [if_neg hheld] at hafter
      exact hne' (hbefore.symm.trans hafter)

/-- Taking one vault to a stage is one entry. -/
theorem entries_putVault (hs : s.Numbered) {v : Vault} (found : s.vault? v.id = some v)
    {target : VaultStage} (hne : v.stage ≠ target) (reason : Option String) (time : Timestamp)
    (h : s'.vaults = (s.putVault (v.entered target reason time)).vaults) (stage : VaultStage) :
    entries stage s s' = if target = stage then 1 else 0 := by
  have hmem : v.id ∈ s.vaults.map Vault.id :=
    List.mem_map_of_mem (List.mem_of_find?_eq_some found)
  have hstage (id : Uuid) : Vault.stageIn id s' =
      if id = v.id then some target else Vault.stageIn id s := by
    have hput : s'.vault? id = (s.putVault (v.entered target reason time)).vault? id := by
      rw [vault?, vault?, h]
    rw [Vault.stageIn, hput, vault?_putVault]
    change Option.map _ (if id = v.id then _ else _) = _
    by_cases hid : id = v.id
    · rw [if_pos hid, if_pos hid, hid, found]
      rfl
    · rw [if_neg hid, if_neg hid, Vault.stageIn]
  rw [← countP_one hs.vaults.distinct hmem, entries]
  refine List.countP_congr fun id _ => ?_
  rw [decide_eq_true_iff, decide_eq_true_iff, hstage]
  by_cases hid : id = v.id
  · rw [if_pos hid, hid, Vault.stageIn, found, Option.map_some, ne_eq, Option.some.injEq,
      Option.some.injEq]
    constructor
    · exact fun h => ⟨rfl, h.2⟩
    · rintro ⟨-, rfl⟩
      exact ⟨hne, rfl⟩
  · rw [if_neg hid]
    constructor
    · exact fun h => absurd h.2 h.1
    · exact fun h => absurd h.1 hid

end Store

/-! ## What an operation notes -/

/-- The events that count votes. -/
def votesNoted (events : List Event) : Nat :=
  events.count (.voteCast false) + events.count (.voteCast true)

/-- What happened between two worlds was noted as it happened. -/
structure World.Told (w w' : World) : Prop where
  moved : ∀ source target, w'.events.count (.assetMoved source target) =
    w.events.count (.assetMoved source target) + w.store.moves source target w'.store
  entered : ∀ stage, w'.events.count (.stageEntered stage) =
    w.events.count (.stageEntered stage) + w.store.entries stage w'.store
  voted : votesNoted w'.events + w.store.votes.length =
    votesNoted w.events + w'.store.votes.length

namespace World

variable {w w' w'' : World}

/-- Where nothing counted happened nothing was noted. -/
theorem Still.told (h : w.Still w') : w.Told w' where
  moved source target := by
    rw [h.events _ fun n => by simp, Store.moves_eq_zero fun id status => h.statuses, Nat.add_zero]
  entered stage := by
    rw [h.events _ fun n => by simp, Store.entries_eq_zero fun id stage => h.stages, Nat.add_zero]
  voted := by
    rw [votesNoted, h.events _ fun n => by simp, h.events _ fun n => by simp, h.votes, votesNoted]

/-- Nothing that is counted depends on other tables. -/
theorem Told.of_same (h : w.Told w') (hevents : w''.events = w'.events)
    (hassets : w''.store.assets = w'.store.assets) (hvaults : w''.store.vaults = w'.store.vaults)
    (hvotes : w''.store.votes = w'.store.votes) : w.Told w'' where
  moved source target := by rw [hevents, h.moved, Store.moves_congr hassets]
  entered stage := by rw [hevents, h.entered, Store.entries_congr hvaults]
  voted := by rw [hevents, h.voted, hvotes]

/-- Two steps that move no asset twice are told together.  Neither takes a vault to a
stage. -/
theorem Told.trans (h : w.Told w') (h' : w'.Told w'')
    (hids : w'.store.assets.map Asset.id = w.store.assets.map Asset.id)
    (hvaults : w'.store.vaults = w.store.vaults) (hvaults' : w''.store.vaults = w'.store.vaults)
    (honce : ∀ id, Asset.statusIn id w.store = Asset.statusIn id w'.store ∨
      Asset.statusIn id w'.store = Asset.statusIn id w''.store) : w.Told w'' where
  moved source target := by
    rw [h'.moved, h.moved, Store.moves_add hids honce, Nat.add_assoc]
  entered stage := by
    rw [h'.entered, h.entered, Store.entries_of_vaults hvaults, Store.entries_of_vaults hvaults',
      Store.entries_of_vaults (hvaults'.trans hvaults)]
  voted := by
    have := h.voted
    have := h'.voted
    omega

end World

namespace Action

variable {α β : Type} {act : Action α} {f : α → Action β}

/-- Whatever its outcome, the action notes what it does. -/
def Tells (act : Action α) : Prop :=
  ∀ (c : Context) (w : World), w.store.Numbered → w.Told (act c w).2

theorem Still.tells (h : act.Still) : act.Tells := fun c w _ => (h c w).told

/-- After an action that only looks, what it found may be used. -/
theorem Tells.after (h : act.Looks)
    (hf : ∀ a c (w : World), w.store.Numbered → act c w = (.ok a, w) → w.Told (f a c w).2) :
    (act.andThen f).Tells := by
  intro c w hs
  have hlooks := h c w
  rw [Action.andThen]
  rcases hrun : act c w with ⟨e | a, w₁⟩ <;> rw [hrun] at hlooks
  · obtain rfl : w₁ = w := hlooks
    exact (World.Still.refl _).told
  · obtain rfl : w₁ = w := hlooks
    exact hf a c w₁ hs hrun

theorem Tells.afterLook (h : act.Looks) (hf : ∀ a, (f a).Tells) : (act.andThen f).Tells :=
  .after h fun a c w hs _ => hf a c w hs

/-- What is checked first is not noted. -/
theorem Tells.check {x : Except Fault α} (hf : ∀ a, (f a).Tells) :
    ((ofExcept x).andThen f).Tells := .afterLook (looks_ofExcept x) hf

/-- Before an action that writes to no counted table. -/
theorem Tells.before (h : act.Tells)
    (hf : ∀ a c w, (f a c w).2.events = w.events ∧ (f a c w).2.store.assets = w.store.assets ∧
      (f a c w).2.store.vaults = w.store.vaults ∧ (f a c w).2.store.votes = w.store.votes) :
    (act.andThen f).Tells := by
  intro c w hs
  have htold := h c w hs
  rw [Action.andThen]
  rcases hrun : act c w with ⟨e | a, w₁⟩ <;> rw [hrun] at htold
  · exact htold
  · obtain ⟨hevents, hassets, hvaults, hvotes⟩ := hf a c w₁
    exact htold.of_same hevents hassets hvaults hvotes

theorem Tells.discarded (h : act.Tells) : act.discarded.Tells :=
  h.before fun _ _ _ => ⟨rfl, rfl, rfl, rfl⟩

end Action

namespace Asset

theorem tells_move {c : Context} {w : World} (hs : w.store.Numbered) {a : Asset}
    (found : w.store.asset? a.id = some a) (target : AssetStatus) :
    w.Told (move a target c w).2 := by
  rw [move]
  split
  · next hedge =>
    have hne : a.status ≠ target := by
      rintro rfl
      revert hedge
      cases a.status <;> decide
    change w.Told ⟨w.store.putAsset (a.moved target c.now), .assetMoved a.status target :: w.events⟩
    exact {
      moved := fun source' target' => by
        rw [List.count_cons, Store.moves_putAsset hs found hne]
        simp only [beq_iff_eq, Event.assetMoved.injEq]
      entered := fun stage => by
        rw [List.count_cons_of_ne (by simp), Store.entries_of_vaults (by rfl), Nat.add_zero]
      voted := by
        rw [votesNoted, List.count_cons_of_ne (by simp), List.count_cons_of_ne (by simp)]
        rfl }
  · exact (World.Still.refl w).told

theorem tells_transition (id : Uuid) (target : AssetStatus) : (transition id target).Tells := by
  refine .after (looks_find id) fun a c w hs ha => ?_
  obtain ⟨hfound, -⟩ := find_eq_ok.1 ha
  exact tells_move hs (Store.id_of_asset? hfound ▸ hfound) target

theorem tells_moveAll (vaultId : Uuid) {source target : AssetStatus} (hne : source ≠ target) :
    (moveAll vaultId source target).Tells := by
  intro c w hs
  let moved := List.replicate (w.store.assets.filter (isHeld vaultId source)).length
    (Event.assetMoved source target)
  have hevents : (moveAll vaultId source target c w).2.events = moved.reverse ++ w.events := rfl
  have hstore : (moveAll vaultId source target c w).2.store =
      w.store.moveHeld vaultId source target c.now := rfl
  have hother {e : Event} (he : Event.assetMoved source target ≠ e) :
      (moved.reverse ++ w.events).count e = w.events.count e := by
    rw [List.count_append, List.count_reverse, List.count_replicate, if_neg (by simpa using he),
      Nat.zero_add]
  exact {
    moved := fun source' target' => by
      rw [hevents, hstore, List.count_append, List.count_reverse, List.count_replicate,
        Store.moves_moveHeld hs vaultId hne, Nat.add_comm]
      simp only [beq_iff_eq, Event.assetMoved.injEq]
    entered := fun stage => by
      rw [hevents, hother (by simp), Store.entries_of_vaults (by rw [hstore]; rfl), Nat.add_zero]
    voted := by
      rw [hevents, hstore, votesNoted, hother (by simp), hother (by simp)]
      rfl }

/-- What is left after a distribution, whatever its outcome, is a store with assets paid
out. -/
theorem paidOut_distribute (vaultId : Uuid) (ids : List Uuid) (c : Context) (w : World) :
    ∃ paid, PaidOut c.now vaultId paid w.store (distribute vaultId ids c w).2.store := by
  rcases h : distribute vaultId ids c w with ⟨e | as, w'⟩
  · exact distribute_error h
  · exact ⟨ids, distribute_ok h⟩

/-- An asset that is paid out now keeps its status in a later payout, and all others have
theirs until then. -/
theorem statusIn_paidOut_after {s s' : Store} {a : Asset} (found : s.asset? a.id = some a)
    {time time' : Timestamp} {vaultId : Uuid} {paid : List Uuid}
    (h : PaidOut time' vaultId paid (s.putAsset (a.moved .distributed time)) s') (id : Uuid) :
    statusIn id s = statusIn id (s.putAsset (a.moved .distributed time)) ∨
      statusIn id (s.putAsset (a.moved .distributed time)) = statusIn id s' := by
  have hstatus := Store.statusIn_putAsset found .distributed time id
  by_cases hid : id = a.id
  · refine .inr ?_
    rw [if_pos hid] at hstatus
    obtain ⟨b, hb, hdistributed⟩ := Option.map_eq_some_iff.1 hstatus
    rw [hstatus, statusIn, h.asset?, hb, Option.map_some, Option.map_some]
    split
    · rfl
    · rw [hdistributed]
  · rw [if_neg hid] at hstatus
    exact .inl hstatus.symm

theorem tells_distribute (vaultId : Uuid) (ids : List Uuid) : (distribute vaultId ids).Tells := by
  induction ids with
  | nil => exact (looks_done _).still.tells
  | cons id rest ih =>
      simp only [distribute, bind_eq]
      refine .after (looks_find id) fun a c w hs ha => ?_
      obtain ⟨hfound, -⟩ := find_eq_ok.1 ha
      obtain rfl : a.id = id := Store.id_of_asset? hfound
      split
      · have hmove := tells_move (c := c) hs hfound .distributed
        rw [Action.andThen]
        rcases hrun : move a .distributed c w with ⟨e | a', w₁⟩ <;> rw [hrun] at hmove
        · exact hmove
        · obtain ⟨hedge, rfl, hw₁⟩ := move_ok hrun
          have hrest := ih c w₁ (hw₁ ▸ hs.putAsset _)
          obtain ⟨paid, hpaid⟩ := paidOut_distribute vaultId rest c w₁
          have hids : w₁.store.assets.map Asset.id = w.store.assets.map Asset.id := by
            rw [hw₁]
            exact map_key_replaced Asset.id _ _
          -- The first asset is paid out now, so none of the later payouts is of it.
          have honce := statusIn_paidOut_after hfound (hw₁ ▸ hpaid)
          rw [← hw₁] at honce
          obtain ⟨assets, hassets⟩ := hpaid.rest
          have htold := hmove.trans hrest hids (by rw [hw₁]; rfl) (by rw [hassets]) honce
          change w.Told (((distribute vaultId rest).andThen fun others =>
            done (a.moved .distributed c.now :: others)) c w₁).2
          rw [Action.andThen]
          rcases hothers : distribute vaultId rest c w₁ with ⟨e | others, w₂⟩ <;>
            rw [hothers] at htold <;> exact htold
      · exact (looks_refuse _).still.tells c w hs

end Asset

namespace Vault

theorem tells_moveAssets (id : Uuid) (target : VaultStage) : (moveAssets id target).Tells := by
  rw [moveAssets]
  split
  · exact Asset.tells_moveAll _ (by decide)
  · split
    · exact Asset.tells_moveAll _ (by decide)
    · exact (looks_done 0).still.tells

/-- Moving the assets of a vault has a result and leaves the vaults. -/
theorem moveAssets_run (id : Uuid) (target : VaultStage) (c : Context) (w : World) :
    ∃ n w', moveAssets id target c w = (.ok n, w') ∧ w'.store.vaults = w.store.vaults := by
  obtain ⟨n, hn⟩ := succeeds_moveAssets id target c w
  obtain ⟨assets, hassets⟩ := w.store.settleAssets_rest id target c.now
  have hrun : moveAssets id target c w = (.ok n, (moveAssets id target c w).2) := Prod.ext hn rfl
  exact ⟨n, _, hrun, by rw [moveAssets_ok hrun, hassets]⟩

theorem tells_advance (id : Uuid) (target : VaultStage) (reason : Option String) :
    (advance id target reason).Tells := by
  simp only [advance, bind_eq]
  refine .after (looks_find id) fun v c w hs hv => ?_
  obtain ⟨hfound, -⟩ := find_eq_ok.1 hv
  obtain rfl : v.id = id := Store.id_of_vault? hfound
  split
  · next hedge =>
    split
    · have hne : v.stage ≠ target := by
        rintro rfl
        revert hedge
        cases v.stage <;> decide
      let w₁ : World := { w with store := w.store.putVault (v.entered target reason c.now) }
      have hmoves := tells_moveAssets v.id target c w₁ (hs.putVault _)
      obtain ⟨n, w₂, hrun, hvaults⟩ := moveAssets_run v.id target c w₁
      rw [hrun] at hmoves
      change w.Told ((moveAssets v.id target).andThen (fun _ =>
        (record (.stageEntered target)).andThen fun _ => done (v.entered target reason c.now))
          c w₁).2
      rw [andThen_of_ok hrun]
      change w.Told ⟨w₂.store, .stageEntered target :: w₂.events⟩
      exact {
        moved := fun source' target' => by
          rw [List.count_cons_of_ne (by simp)]
          exact hmoves.moved source' target'
        entered := fun stage => by
          rw [List.count_cons, hmoves.entered, Store.entries_of_vaults hvaults,
            Store.entries_putVault hs hfound hne reason c.now hvaults, Nat.add_zero]
          simp only [beq_iff_eq, Event.stageEntered.injEq]
          rfl
        voted := by
          rw [votesNoted, List.count_cons_of_ne (by simp), List.count_cons_of_ne (by simp)]
          exact hmoves.voted }
    · exact (looks_refuse _).still.tells c w hs
  · exact (looks_refuse _).still.tells c w hs

end Vault

namespace Vote

theorem tells_cast (proposalId : Uuid) (voterId : Option String) (optionRef : Json)
    (address : Option String) : (cast proposalId voterId optionRef address).Tells := by
  simp only [cast, bind_eq]
  refine .afterLook (Proposal.looks_find _) fun p => .afterLook looks_now fun _ => .check fun _ =>
    .check fun _ => .afterLook looks_store fun _ => .check fun _ => ?_
  split
  · exact (looks_refuse _).still.tells
  · split
    · exact (looks_refuse _).still.tells
    · refine .check fun _ => ?_
      cases voterId with
      | none => exact (looks_refuse _).still.tells
      | some voterId =>
          cases address with
          | none => exact (looks_refuse _).still.tells
          | some address =>
              refine .afterLook looks_now fun _ => fun c w hs => ?_
              exact {
                moved := fun source target => by
                  rw [Store.moves_of_assets (by rfl), Nat.add_zero]
                  exact List.count_cons_of_ne (by simp)
                entered := fun stage => by
                  rw [Store.entries_of_vaults (by rfl), Nat.add_zero]
                  exact List.count_cons_of_ne (by simp)
                voted := by
                  change votesNoted (.voteCast p.hasCustomOptions :: w.events) + _ =
                    _ + (w.store.votes ++ [_]).length
                  rw [votesNoted, votesNoted, List.count_cons, List.count_cons,
                    List.length_append, List.length_singleton]
                  cases p.hasCustomOptions <;> simp <;> omega }

end Vote

namespace Proposal

theorem tells_applyEffects (p : Proposal) (v : Vault) : (applyEffects p v).Tells := by
  rw [applyEffects]
  cases p.type with
  | distribution =>
      change Action.Tells (if v.dispatchScript.isNull then _ else _)
      split
      · exact (looks_refuse _).still.tells
      · exact .check fun ids => (Asset.tells_distribute v.id ids).discarded
  | termination => exact (Vault.tells_advance v.id .terminating none).discarded
  | staking | burning | marketplaceAction | expansion => exact (looks_done ()).still.tells

theorem tells_execute (id : Uuid) : (execute id).Tells := by
  simp only [execute, bind_eq]
  refine .afterLook (looks_find id) fun p => ?_
  split
  · refine .afterLook (Vault.looks_find _) fun v => (tells_applyEffects p v).before fun _ c w => ?_
    rw [enter]
    split
    · exact ⟨rfl, rfl, rfl, rfl⟩
    · exact ⟨rfl, rfl, rfl, rfl⟩
  · exact (looks_refuse _).still.tells

end Proposal

/-- Every operation notes what it does, also one that fails. -/
theorem Operation.tells (op : Operation) : op.action.Tells := by
  by_cases hcounted : op.isCounted = false
  · exact (still hcounted).tells
  cases op with
  | advanceVault => exact (Vault.tells_advance _ _ _).discarded
  | failVault => exact (Vault.tells_advance _ _ _).discarded
  | transitionAsset => exact (Asset.tells_transition _ _).discarded
  | lockPendingAssets => exact (Asset.tells_moveAll _ (by decide)).discarded
  | releaseLockedAssets => exact (Asset.tells_moveAll _ (by decide)).discarded
  | distributeAssets => exact (Asset.tells_distribute _ _).discarded
  | executeProposal => exact (Proposal.tells_execute _).discarded
  | castVote => exact (Vote.tells_cast _ _ _ _).discarded
  | _ => exact absurd rfl hcounted

/-! ## Operations that fail -/

/-- The operations that pay out assets one after the other. -/
def Operation.PaysOut : Operation → Prop
  | distributeAssets .. | executeProposal _ => True
  | _ => False

/-- What an operation that fails leaves to be undone: no vault in another stage, no vote,
and no asset in another status, unless it paid out locked assets. -/
structure Operation.Leaves (op : Operation) (s s' : Store) : Prop where
  stages : ∀ stage, s.entries stage s' = 0
  votes : s'.votes = s.votes
  statuses : ∀ source target, s.moves source target s' ≠ 0 →
    source = .locked ∧ target = .distributed ∧ op.PaysOut

namespace Operation.Leaves

variable {op : Operation} {s s' : Store}

theorem of_eq (h : s' = s) : op.Leaves s s' where
  stages _ := by rw [h, Store.entries_of_vaults rfl]
  votes := by rw [h]
  statuses _ _ hmoved := absurd (by rw [h, Store.moves_of_assets rfl]) hmoved

theorem of_paidOut {time : Timestamp} {vaultId : Uuid} {ids : List Uuid}
    (h : PaidOut time vaultId ids s s') (hop : op.PaysOut) : op.Leaves s s' := by
  obtain ⟨assets, hrest⟩ := h.rest
  refine ⟨fun _ => Store.entries_of_vaults (by rw [hrest]), by rw [hrest],
    fun source target hmoved => ?_⟩
  obtain ⟨id, -, hid⟩ := List.countP_pos_iff.1 (Nat.pos_of_ne_zero hmoved)
  obtain ⟨hne, hbefore, hafter⟩ := of_decide_eq_true hid
  obtain ⟨a, ha, rfl⟩ := Option.map_eq_some_iff.1 hbefore
  rw [Asset.statusIn, h.asset?, ha, Option.map_some, Option.map_some] at hafter
  split at hafter
  · next hpaid =>
    obtain ⟨b, hb, -, hlocked⟩ := h.locked id hpaid
    obtain rfl := Option.some.inj (ha.symm.trans hb)
    exact ⟨hlocked, (Option.some.inj hafter).symm, hop⟩
  · exact absurd (Option.some.inj hafter) hne

end Operation.Leaves

theorem Operation.leaves_of_error {op : Operation} {c : Context} {w w' : World} {e : Fault}
    (h : op.action c w = (.error e, w')) : op.Leaves w.store w'.store := by
  have atomic {α : Type} {act : Action α} (hact : act.Atomic)
      (h : act.discarded c w = (.error e, w')) : op.Leaves w.store w'.store :=
    .of_eq (hact.discarded _ _ _ _ h)
  by_cases hcounted : op.isCounted = false
  · have hstill := still hcounted c w
    rw [h] at hstill
    exact ⟨fun _ => Store.entries_eq_zero fun _ _ => hstill.stages, hstill.votes,
      fun _ _ hmoved => absurd (Store.moves_eq_zero fun _ _ => hstill.statuses) hmoved⟩
  cases op with
  | advanceVault => exact atomic (Vault.atomic_advance _ _ _) h
  | failVault => exact atomic (Vault.atomic_advance _ _ _) h
  | transitionAsset => exact atomic (Asset.atomic_transition _ _) h
  | lockPendingAssets => exact atomic (Asset.succeeds_moveAll _ _ _).atomic h
  | releaseLockedAssets => exact atomic (Asset.succeeds_moveAll _ _ _).atomic h
  | distributeAssets =>
      obtain ⟨paid, hpaid⟩ := Asset.distribute_error (Action.error_of_discarded h)
      exact .of_paidOut hpaid trivial
  | executeProposal =>
      rcases Proposal.execute_error (Action.error_of_discarded h) with hw | ⟨p, paid, -, hpaid⟩
      · exact .of_eq hw
      · exact .of_paidOut hpaid trivial
  | castVote => exact atomic (Vote.atomic_cast _ _ _ _) h
  | _ => exact absurd rfl hcounted

/-! ## Calls and runs -/

/-- What a call did to the store before it was taken back; nothing where it has a
result. -/
def Call.undone (f : Store → Store → Nat) (w : World) (k : Call) : Nat :=
  match k.operation.action k.context w with
  | (.ok _, _) => 0
  | (.error _, left) => f w.store left.store

namespace World

/-- What calls do to the store, one after the other. -/
def committed (f : Store → Store → Nat) : World → List Call → Nat
  | _, [] => 0
  | w, k :: calls => f w.store (w.called k).store + committed f (w.called k) calls

/-- What calls did to the store and was taken back. -/
def undone (f : Store → Store → Nat) : World → List Call → Nat
  | _, [] => 0
  | w, k :: calls => k.undone f w + undone f (w.called k) calls

/-- A call notes what it does to the store, and what of it is taken back. -/
theorem noted_called {w : World} (hs : w.store.Numbered) (k : Call) :
    (∀ source target, (w.called k).events.count (.assetMoved source target) =
      w.events.count (.assetMoved source target) +
        (w.store.moves source target (w.called k).store +
          k.undone (Store.moves source target) w)) ∧
    (∀ stage, (w.called k).events.count (.stageEntered stage) =
      w.events.count (.stageEntered stage) + w.store.entries stage (w.called k).store) ∧
    votesNoted (w.called k).events + w.store.votes.length =
      votesNoted w.events + (w.called k).store.votes.length := by
  have htold := k.operation.tells k.context w hs
  simp only [called, transaction, Call.undone]
  rcases hrun : k.operation.action k.context w with ⟨e | u, w'⟩ <;> rw [hrun] at htold
  · have hleft := Operation.leaves_of_error hrun
    refine ⟨fun source target => ?_, fun stage => ?_, ?_⟩
    · rw [Store.moves_of_assets rfl, Nat.zero_add]
      exact htold.moved source target
    · rw [Store.entries_of_vaults rfl]
      exact (hleft.stages stage) ▸ htold.entered stage
    · have hvoted := htold.voted
      rwa [hleft.votes] at hvoted
  · exact ⟨htold.moved, htold.entered, htold.voted⟩

/-- Whatever was noted over a run was committed by its calls or taken back. -/
theorem noted_after {w : World} (hs : w.store.Numbered) (calls : List Call) :
    (∀ source target, (w.after calls).events.count (.assetMoved source target) =
      w.events.count (.assetMoved source target) +
        (w.committed (Store.moves source target) calls +
          w.undone (Store.moves source target) calls)) ∧
    (∀ stage, (w.after calls).events.count (.stageEntered stage) =
      w.events.count (.stageEntered stage) + w.committed (Store.entries stage) calls) ∧
    votesNoted (w.after calls).events + w.store.votes.length =
      votesNoted w.events + (w.after calls).store.votes.length := by
  induction calls generalizing w with
  | nil => exact ⟨fun _ _ => rfl, fun _ => rfl, rfl⟩
  | cons k calls ih =>
      obtain ⟨hmoved, hentered, hvoted⟩ := noted_called hs k
      obtain ⟨hmoved', hentered', hvoted'⟩ := ih ((change_called w k).numbered hs)
      rw [after_cons]
      refine ⟨fun source target => ?_, fun stage => ?_, ?_⟩
      · rw [hmoved', hmoved, committed, undone]
        omega
      · rw [hentered', hentered, committed]
        omega
      · omega

/-- What was taken back was taken back from some call. -/
theorem exists_of_undone {f : Store → Store → Nat} {w : World} {calls : List Call}
    (h : w.undone f calls ≠ 0) :
    ∃ earlier k later, calls = earlier ++ k :: later ∧ k.undone f (w.after earlier) ≠ 0 := by
  induction calls generalizing w with
  | nil => exact absurd rfl h
  | cons k calls ih =>
      by_cases hk : k.undone f w = 0
      · rw [undone, hk, Nat.zero_add] at h
        obtain ⟨earlier, k', later, rfl, hk'⟩ := ih h
        exact ⟨k :: earlier, k', later, rfl, hk'⟩
      · exact ⟨[], k, calls, rfl, hk⟩

end World

/-- Counters show what was committed, and the payouts that failed on the way.  After any
calls from an empty store and no events, the counter of vaults that came to a stage shows
the entries that were committed, and the counters of votes show the votes in the store.
The counter of moves of assets shows the moves that were committed and those that were
taken back, and what was taken back is moves of locked assets that a call which pays out
one asset after the other made before it failed. -/
theorem counters_show_committed_and_undone_payouts (calls : List Call) :
    let w := World.after {} calls
    let shown := counters w.events
    (∀ source target, Count.valueIn "asset_transitions_total"
        [("from_status", Choice.text source), ("to_status", Choice.text target)] shown =
      World.committed (Store.moves source target) {} calls +
        World.undone (Store.moves source target) {} calls) ∧
    (∀ stage, Count.valueIn "vault_stage_changes_total" [("to_stage", Choice.text stage)] shown =
      World.committed (Store.entries stage) {} calls) ∧
    Count.valueIn "votes_cast_total" [("option_kind", "fixed")] shown +
        Count.valueIn "votes_cast_total" [("option_kind", "custom")] shown =
      w.store.votes.length ∧
    (∀ source target, World.undone (Store.moves source target) {} calls ≠ 0 →
      source = .locked ∧ target = .distributed ∧
        ∃ earlier k later e left, calls = earlier ++ k :: later ∧ k.operation.PaysOut ∧
          k.operation.action k.context (World.after {} earlier) = (.error e, left)) := by
  intro w shown
  obtain ⟨hmoved, hentered, hvoted⟩ := World.noted_after (w := {}) .empty calls
  refine ⟨fun source target => ?_, fun stage => ?_, ?_, fun source target hundone => ?_⟩
  · rw [valueIn_assetMoved, hmoved]
    exact Nat.zero_add _
  · rw [valueIn_stageEntered, hentered]
    exact Nat.zero_add _
  · have hfixed : Count.valueIn _ _ shown = _ := valueIn_voteCast false
    have hcustom : Count.valueIn _ _ shown = _ := valueIn_voteCast true
    rw [if_neg Bool.false_ne_true] at hfixed
    rw [if_pos rfl] at hcustom
    rw [hfixed, hcustom]
    exact hvoted.trans (Nat.zero_add _)
  · obtain ⟨earlier, k, later, hcalls, hk⟩ := World.exists_of_undone hundone
    rw [Call.undone] at hk
    rcases hrun : k.operation.action k.context (World.after {} earlier) with ⟨e | u, left⟩ <;>
      simp only [hrun] at hk
    · obtain ⟨hsource, htarget, hop⟩ := (Operation.leaves_of_error hrun).statuses source target hk
      exact ⟨hsource, htarget, earlier, k, later, e, left, hcalls, hop, hrun⟩
    · exact absurd rfl hk

namespace Sample

/-- A second asset, recorded after the snapshot. -/
def secondId : Uuid := .ofSerial 4

/-- A decided payout of both assets finds the second one released, after it paid out the
first. -/
def interrupted : List Call :=
  let payoutId := .ofSerial 5
  opening.take 10 ++
    [call 11 (.createAsset vaultId { policyId := some "policy", assetName := some "deed" }),
      call 12 (.transitionAsset secondId .locked),
      call 13 (.createProposal vaultId { draft with
        payload := [(Distribution.field, .arr [.str assetId.text, .str secondId.text])] }),
      call 14 (.markFeePaid payoutId),
      call 15 (.openVoting payoutId),
      call 16 (.castVote payoutId (some "Alice") (.str "yes") (some "alice")),
      call 17 (.finalizeProposal payoutId),
      call 18 (.transitionAsset secondId .released),
      call 19 (.executeProposal payoutId)]

end Sample

/-- The counter shows a payout that was not committed: the first asset is locked still. -/
theorem counter_shows_undone_payout :
    let w := World.after {} Sample.interrupted
    Count.valueIn "asset_transitions_total"
        [("from_status", "locked"), ("to_status", "distributed")] (counters w.events) = 1 ∧
      World.committed (Store.moves .locked .distributed) {} Sample.interrupted = 0 ∧
      Asset.statusIn Sample.assetId w.store = some .locked := by
  decide +kernel

end VaultGovernance
