import Mathlib.Data.List.Count
import VaultGovernance.Metrics.Event
import VaultGovernance.Proofs.AssetHistory
import VaultGovernance.Proofs.Atomicity
import VaultGovernance.Proofs.Conversion
import VaultGovernance.Proofs.VaultHistory

/-!
# VaultGovernance.Proofs.Counters

What the counters show.  A counter of moves, stages or votes shows how many events of
its kind there were.  Most operations leave such counters alone and what they count as
well: no asset that was there changes its status, no vault its stage, and no vote comes
in (`World.Still`), and that is so whether they succeed or fail.
-/

namespace VaultGovernance

open VaultGovernance.Action

/-! ## Counters and events -/

namespace Count

variable {name : String} {labels : List (String × String)}

/-- What is shown under a name and labels; a counter that is not there shows nothing. -/
def valueIn (name : String) (labels : List (String × String)) : List Count → Nat
  | [] => 0
  | c :: rest => if c.name = name ∧ c.labels = labels then c.amount else valueIn name labels rest

theorem valueIn_addTo (c : Count) (counted : List Count) :
    valueIn name labels (c.addTo counted) =
      valueIn name labels counted + if c.name = name ∧ c.labels = labels then c.amount else 0 := by
  induction counted with
  | nil => rw [addTo, valueIn, valueIn, valueIn, Nat.zero_add]
  | cons d rest ih =>
      rw [addTo]
      by_cases hsame : d.name = c.name ∧ d.labels = c.labels
      · rw [if_pos hsame, valueIn, valueIn, hsame.1, hsame.2]
        split
        · rfl
        · rfl
      · rw [if_neg hsame, valueIn, valueIn]
        by_cases hd : d.name = name ∧ d.labels = labels
        · have hc : ¬ (c.name = name ∧ c.labels = labels) := fun hc =>
            hsame ⟨hd.1.trans hc.1.symm, hd.2.trans hc.2.symm⟩
          rw [if_pos hd, if_pos hd, if_neg hc, Nat.add_zero]
        · rw [if_neg hd, if_neg hd, ih]

end Count

variable {name : String} {labels : List (String × String)} {events : List Event}

theorem counterValue_cons (e : Event) :
    counterValue name labels (e :: events) =
      if e.count.name = name ∧ e.count.labels = labels then
        e.count.amount + counterValue name labels events
      else counterValue name labels events := rfl

/-- What a counter shows is what the events add to it. -/
theorem valueIn_counters :
    Count.valueIn name labels (counters events) = counterValue name labels events := by
  have hfold (counted : List Count) :
      Count.valueIn name labels (events.foldl (fun cs e => e.count.addTo cs) counted) =
        Count.valueIn name labels counted + counterValue name labels events := by
    induction events generalizing counted with
    | nil => rfl
    | cons e rest ih =>
        rw [List.foldl_cons, ih, Count.valueIn_addTo, counterValue_cons]
        split
        · rw [Nat.add_assoc]
        · rfl
  rw [counters, hfold []]
  exact Nat.zero_add _

/-- A counter that one event only adds to shows how often this event was. -/
theorem counterValue_eq_count {e : Event} (hone : e.count.amount = 1)
    (honly : ∀ e' : Event, e'.count.name = e.count.name → e'.count.labels = e.count.labels →
      e' = e) : counterValue e.count.name e.count.labels events = events.count e := by
  induction events with
  | nil => rfl
  | cons e' rest ih =>
      rw [counterValue_cons, ih, List.count_cons]
      by_cases hsame : e' = e
      · rw [hsame, if_pos ⟨rfl, rfl⟩, if_pos (beq_self_eq_true e), hone, Nat.add_comm]
      · rw [if_neg fun h => hsame (honly e' h.1 h.2), if_neg (by simpa using hsame), Nat.add_zero]

theorem Event.eq_assetMoved {e : Event} {source target : AssetStatus}
    (hname : e.count.name = (assetMoved source target).count.name)
    (hlabels : e.count.labels = (assetMoved source target).count.labels) :
    e = assetMoved source target := by
  cases e with
  | assetMoved source' target' =>
      revert hlabels
      cases source <;> cases target <;> cases source' <;> cases target' <;> decide
  | _ => simp [count] at hname

theorem Event.eq_stageEntered {e : Event} {stage : VaultStage}
    (hname : e.count.name = (stageEntered stage).count.name)
    (hlabels : e.count.labels = (stageEntered stage).count.labels) : e = stageEntered stage := by
  cases e with
  | stageEntered stage' =>
      revert hlabels
      cases stage <;> cases stage' <;> decide
  | _ => simp [count] at hname

theorem Event.eq_voteCast {e : Event} {custom : Bool}
    (hname : e.count.name = (voteCast custom).count.name)
    (hlabels : e.count.labels = (voteCast custom).count.labels) : e = voteCast custom := by
  cases e with
  | voteCast custom' =>
      revert hlabels
      cases custom <;> cases custom' <;> decide
  | _ => simp [count] at hname

/-- The counter of moves from one status to another. -/
theorem valueIn_assetMoved (source target : AssetStatus) :
    Count.valueIn "asset_transitions_total"
      [("from_status", Choice.text source), ("to_status", Choice.text target)] (counters events) =
      events.count (.assetMoved source target) :=
  valueIn_counters.trans (counterValue_eq_count rfl fun _ => Event.eq_assetMoved)

/-- The counter of entries into a stage. -/
theorem valueIn_stageEntered (stage : VaultStage) :
    Count.valueIn "vault_stage_changes_total" [("to_stage", Choice.text stage)]
      (counters events) = events.count (.stageEntered stage) :=
  valueIn_counters.trans (counterValue_eq_count rfl fun _ => Event.eq_stageEntered)

/-- The counter of votes on a kind of ballot. -/
theorem valueIn_voteCast (custom : Bool) :
    Count.valueIn "votes_cast_total" [("option_kind", if custom then "custom" else "fixed")]
      (counters events) = events.count (.voteCast custom) :=
  valueIn_counters.trans (counterValue_eq_count rfl fun _ => Event.eq_voteCast)

/-! ## Worlds in which nothing counted happened -/

/-- No counted event was noted but normalized claims, and the assets, the vaults and the
votes that were there are as they were, as far as they are counted. -/
structure World.Still (w w' : World) : Prop where
  events : ∀ e : Event, (∀ n, e ≠ .claimsNormalized n) → w'.events.count e = w.events.count e
  statuses : ∀ {id status}, Asset.statusIn id w.store = some status →
    Asset.statusIn id w'.store = some status
  stages : ∀ {id stage}, Vault.stageIn id w.store = some stage →
    Vault.stageIn id w'.store = some stage
  votes : w'.store.votes = w.store.votes

namespace World.Still

variable {w w' w'' : World}

theorem refl (w : World) : w.Still w := ⟨fun _ _ => rfl, fun h => h, fun h => h, rfl⟩

theorem trans (h : w.Still w') (h' : w'.Still w'') : w.Still w'' where
  events e he := (h'.events e he).trans (h.events e he)
  statuses hs := h'.statuses (h.statuses hs)
  stages hs := h'.stages (h.stages hs)
  votes := h'.votes.trans h.votes

/-- Writing to other tables. -/
theorem of_tables {s : Store} (hassets : s.assets = w.store.assets)
    (hvaults : s.vaults = w.store.vaults) (hvotes : s.votes = w.store.votes) :
    w.Still { w with store := s } where
  events _ _ := rfl
  statuses {id status} h := by
    rw [Asset.statusIn, Store.asset?] at h ⊢
    rwa [hassets]
  stages {id stage} h := by
    rw [Vault.stageIn, Store.vault?] at h ⊢
    rwa [hvaults]
  votes := hvotes

theorem addVault (v : Vault) : w.Still { w with store := w.store.addVault v } where
  events _ _ := rfl
  statuses h := h
  stages h := by
    obtain ⟨u, hu, rfl⟩ := Option.map_eq_some_iff.1 h
    rw [Vault.stageIn, Store.vault?_addVault hu, Option.map_some]
  votes := rfl

theorem addAsset (a : Asset) : w.Still { w with store := w.store.addAsset a } where
  events _ _ := rfl
  statuses h := by
    obtain ⟨b, hb, rfl⟩ := Option.map_eq_some_iff.1 h
    rw [Asset.statusIn, Store.asset?_addAsset hb, Option.map_some]
  stages h := h
  votes := rfl

/-- A vault whose row is written in its stage. -/
theorem putVault {v v' : Vault} (found : w.store.vault? v.id = some v) (hid : v'.id = v.id)
    (hstage : v'.stage = v.stage) : w.Still { w with store := w.store.putVault v' } where
  events _ _ := rfl
  statuses h := h
  stages {id stage} h := by
    rw [Vault.stageIn, Store.vault?_putVault, hid]
    split
    · next hsame =>
      rw [Vault.stageIn, hsame, found, Option.map_some] at h
      rw [hsame, found, Option.map_some, Option.map_some, hstage, h]
    · exact h
  votes := rfl

/-- An asset whose row is written in its status. -/
theorem putAsset {a a' : Asset} (found : w.store.asset? a.id = some a) (hid : a'.id = a.id)
    (hstatus : a'.status = a.status) : w.Still { w with store := w.store.putAsset a' } where
  events _ _ := rfl
  statuses {id status} h := by
    rw [Asset.statusIn, Store.asset?_putAsset, hid]
    split
    · next hsame =>
      rw [Asset.statusIn, hsame, found, Option.map_some] at h
      rw [hsame, found, Option.map_some, Option.map_some, hstatus, h]
    · exact h
  stages h := h
  votes := rfl

end World.Still

namespace Action

variable {α β : Type} {act : Action α} {f : α → Action β}

/-- Whatever its outcome, nothing counted happens in the action. -/
def Still (act : Action α) : Prop := ∀ (c : Context) (w : World), w.Still (act c w).2

theorem Looks.still (h : act.Looks) : act.Still := by
  intro c w
  rw [h c w]
  exact .refl w

theorem Still.andThen (h : act.Still) (hf : ∀ a, (f a).Still) : (act.andThen f).Still := by
  intro c w
  have hfirst := h c w
  rw [Action.andThen]
  rcases hrun : act c w with ⟨e | a, w₁⟩ <;> rw [hrun] at hfirst
  · exact hfirst
  · exact hfirst.trans (hf a c w₁)

/-- What is checked first changes nothing. -/
theorem Still.check {x : Except Fault α} (hf : ∀ a, (f a).Still) :
    ((ofExcept x).andThen f).Still := (looks_ofExcept x).still.andThen hf

/-- After an action that only looks, what it found may be used. -/
theorem Still.after (h : act.Looks)
    (hf : ∀ a c (w : World), act c w = (.ok a, w) → w.Still (f a c w).2) :
    (act.andThen f).Still := by
  intro c w
  have hlooks := h c w
  rw [Action.andThen]
  rcases hrun : act c w with ⟨e | a, w₁⟩ <;> rw [hrun] at hlooks
  · obtain rfl : w₁ = w := hlooks
    exact .refl _
  · obtain rfl : w₁ = w := hlooks
    exact hf a c w₁ hrun

/-- A check that is made on a condition changes nothing. -/
theorem Still.checkIf {P : Prop} [Decidable P] {check : Store → Except Fault Unit}
    {rest : Action β} (h : rest.Still) :
    (if P then store.andThen fun s => (ofExcept (check s)).andThen fun _ => rest
      else rest).Still := by
  split
  · exact looks_store.still.andThen fun _ => .check fun _ => h
  · exact h

theorem Still.discarded (h : act.Still) : act.discarded.Still :=
  h.andThen fun _ => (looks_done ()).still

theorem still_modify {g : Store → Store} (hassets : ∀ s, (g s).assets = s.assets)
    (hvaults : ∀ s, (g s).vaults = s.vaults) (hvotes : ∀ s, (g s).votes = s.votes) :
    (modify g).Still := fun _ w => .of_tables (hassets w.store) (hvaults w.store) (hvotes w.store)

theorem still_addSnapshot (x : Snapshot) : (modify fun s => s.addSnapshot x).Still :=
  still_modify (fun _ => rfl) (fun _ => rfl) fun _ => rfl

theorem still_addProposal (p : Proposal) : (modify fun s => s.addProposal p).Still :=
  still_modify (fun _ => rfl) (fun _ => rfl) fun _ => rfl

theorem still_putProposal (p : Proposal) : (modify fun s => s.putProposal p).Still :=
  still_modify (fun _ => rfl) (fun _ => rfl) fun _ => rfl

theorem still_putClaim (x : Claim) : (modify fun s => s.putClaim x).Still :=
  still_modify (fun _ => rfl) (fun _ => rfl) fun _ => rfl

theorem still_putSettings (row : SettingsRow) : (modify fun s => s.putSettings row).Still :=
  still_modify (fun _ => rfl) (fun _ => rfl) fun _ => rfl

theorem still_claimsNormalized (n : Nat) : (record (.claimsNormalized n)).Still := by
  intro c w
  refine ⟨fun e he => ?_, fun h => h, fun h => h, rfl⟩
  change List.count e (.claimsNormalized n :: w.events) = _
  rw [List.count_cons_of_ne (he n).symm]

end Action

/-! ## Operations in which nothing counted happens -/

namespace Vault

theorem still_create (name : Option String) (execution participation : Option Decimal) :
    (create name execution participation).Still := by
  simp only [create, bind_eq]
  refine looks_store.still.andThen fun s => .check fun _ => .check fun _ => .check fun _ =>
    looks_now.still.andThen fun _ => ?_
  exact Still.andThen (fun _ _ => .addVault _) fun _ => (looks_done _).still

theorem still_reconfigure (id : Uuid) {change : Vault → Vault}
    (hid : ∀ v, (change v).id = v.id) (hstage : ∀ v, (change v).stage = v.stage) :
    (reconfigure id change).Still := by
  simp only [reconfigure, bind_eq]
  refine .after (looks_find id) fun v c w hv => ?_
  obtain ⟨hfound, -⟩ := find_eq_ok.1 hv
  obtain rfl : v.id = id := Store.id_of_vault? hfound
  exact .putVault hfound (hid v) (hstage v)

theorem still_recordApplyParams (id : Uuid) (result : Json) :
    (recordApplyParams id result).Still := by
  rw [recordApplyParams]
  exact still_reconfigure id (fun _ => rfl) fun _ => rfl

theorem still_recordDispatchScript (id : Uuid) (script : Json) :
    (recordDispatchScript id script).Still := by
  rw [recordDispatchScript]
  exact still_reconfigure id (fun _ => rfl) fun _ => rfl

theorem still_recordAcquireResults (id : Uuid) (multiplier distribution : Json) :
    (recordAcquireResults id multiplier distribution).Still := by
  simp only [recordAcquireResults, bind_eq]
  refine (looks_find id).still.andThen fun v => ?_
  split
  · exact (looks_refuse _).still
  · exact still_reconfigure id (fun _ => rfl) fun _ => rfl

end Vault

namespace Asset

theorem still_create (vaultId : Uuid) (draft : Draft) : (create vaultId draft).Still := by
  simp only [create, bind_eq]
  refine looks_store.still.andThen fun s => ?_
  cases s.vault? vaultId with
  | none => exact (looks_refuse _).still
  | some vault =>
      refine .check fun _ => .check fun _ => .check fun _ => .check fun _ => .check fun _ =>
        .check fun _ => looks_now.still.andThen fun _ => ?_
      exact Still.andThen (fun _ _ => .addAsset _) fun _ => (looks_done _).still

theorem still_update (id : Uuid) (fields : OrderedMap Json) : (update id fields).Still := by
  rw [update]
  split
  · exact (looks_fail _).still
  · refine .after (looks_find id) fun a c w ha => ?_
    obtain ⟨hfound, -⟩ := find_eq_ok.1 ha
    obtain rfl : a.id = id := Store.id_of_asset? hfound
    cases hcheck : checkFields a.id fields.keys with
    | error e => exact .refl w
    | ok _ =>
        cases hrow : a.withFields fields c.now with
        | error e =>
            simp only [bind_eq, ofExcept_ok_andThen, now_andThen, hrow, ofExcept_error_andThen]
            exact .refl w
        | ok a' =>
            have hedited := edited_of_withFields hrow
            simp only [bind_eq, ofExcept_ok_andThen, now_andThen, hrow, modify_andThen]
            exact .putAsset hfound (by rw [hedited]) (by rw [hedited])

end Asset

namespace Snapshot

theorem still_create (vaultId : Uuid) (assetId : Option String) (balances : OrderedMap Json) :
    (create vaultId assetId balances).Still := by
  simp only [create, bind_eq]
  refine (looks_governedVault _ _).still.andThen fun v => .check fun _ => .check fun _ =>
    looks_store.still.andThen fun _ => looks_now.still.andThen fun _ => ?_
  exact (still_addSnapshot _).andThen fun _ => (looks_done _).still

end Snapshot

namespace Proposal

theorem still_create (vaultId : Uuid) (draft : Draft) : (create vaultId draft).Still := by
  simp only [create, bind_eq]
  refine .check fun _ => (Snapshot.looks_governedVault _ _).still.andThen fun v =>
    .check fun fields => .checkIf ((Snapshot.looks_latest _).still.andThen fun latest => ?_)
  cases latest with
  | none => exact (looks_refuse _).still
  | some x =>
      refine (Settings.looks_proposalFee _).still.andThen fun _ => .check fun _ =>
        looks_store.still.andThen fun _ => looks_now.still.andThen fun _ => .check fun _ => ?_
      exact (still_addProposal _).andThen fun _ => (looks_done _).still

theorem still_enter (p : Proposal) (target : ProposalStatus)
    (finish : Timestamp → Proposal → Proposal) : (enter p target finish).Still := by
  simp only [enter, bind_eq]
  split
  · exact looks_now.still.andThen fun _ => (still_putProposal _).andThen fun _ =>
      (looks_done _).still
  · exact (looks_refuse _).still

theorem still_markFeePaid (id : Uuid) : (markFeePaid id).Still :=
  (looks_find id).still.andThen fun _ => still_enter _ _ _

theorem still_openVoting (id : Uuid) : (openVoting id).Still :=
  (looks_find id).still.andThen fun _ => still_enter _ _ _

theorem still_finalize (id : Uuid) : (finalize id).Still := by
  simp only [finalize, bind_eq]
  refine (looks_find id).still.andThen fun p => ?_
  split
  · refine looks_store.still.andThen fun s => ?_
    cases s.vault? p.vaultId with
    | none => exact (looks_fail _).still
    | some v =>
        exact looks_configuration.still.andThen fun _ => .check fun _ =>
          (still_enter _ _ _).andThen fun _ => (looks_done _).still
  · exact (looks_refuse _).still

end Proposal

namespace Claim

theorem still_get (id : Uuid) : (get id).Still := by
  simp only [get, bind_eq]
  refine looks_store.still.andThen fun s => ?_
  cases s.claim? id with
  | none => exact (looks_refuse _).still
  | some claim =>
      refine .check fun amounts => ?_
      cases amounts with
      | none => exact (looks_done _).still
      | some amounts =>
          exact looks_now.still.andThen fun _ => .check fun _ => (still_putClaim _).andThen
            fun _ => (still_claimsNormalized 1).andThen fun _ => (looks_done _).still

theorem still_backfill (limit : Option Int) (dryRun : Bool) : (backfill limit dryRun).Still := by
  have hrows (rows : List Claim) : (modify fun s => rows.foldl Store.putClaim s).Still := by
    refine still_modify (fun s => ?_) (fun s => ?_) fun s => ?_ <;>
      obtain ⟨claims, hclaims⟩ := foldl_putClaim rows s <;> rw [hclaims]
  simp only [backfill, bind_eq]
  refine looks_store.still.andThen fun s => .check fun candidates => ?_
  split
  · exact (looks_done _).still
  · refine .check fun converted => looks_now.still.andThen fun _ => .check fun rows =>
      (hrows rows).andThen fun _ => ?_
    split
    · exact (looks_done _).still.andThen fun _ => (looks_done _).still
    · exact (still_claimsNormalized _).andThen fun _ => (looks_done _).still

end Claim

namespace Settings

theorem still_ensure : ensure.Still := by
  simp only [ensure, bind_eq]
  refine looks_store.still.andThen fun s => ?_
  cases s.settings with
  | some row => exact (looks_done row).still
  | none =>
      exact looks_now.still.andThen fun _ => (still_putSettings _).andThen fun _ =>
        (looks_done _).still

theorem still_overwrite (row : SettingsRow) (document : OrderedMap Json) :
    (overwrite row document).Still := by
  rw [overwrite]
  split
  · exact (looks_done ()).still
  · exact looks_now.still.andThen fun _ => still_putSettings _

theorem still_update (values : OrderedMap Json) : (update values).Still := by
  refine still_ensure.andThen fun row => ?_
  dsimp only
  split
  · exact (still_overwrite _ _).andThen fun _ => (looks_done _).still
  · exact (looks_fail _).still

theorem still_delete (key : String) : (delete key).Still := by
  simp only [delete, bind_eq]
  refine looks_store.still.andThen fun s => ?_
  cases s.settings with
  | none => exact (looks_done false).still
  | some row =>
      change Action.Still (if row.data.hasField key then _ else _)
      split
      · exact (still_overwrite _ _).andThen fun _ => (looks_done true).still
      · exact (looks_done false).still

theorem still_seed : seed.Still := by
  simp only [seed, bind_eq]
  refine still_ensure.andThen fun row => ?_
  split
  · exact (looks_done _).still
  · exact (still_update _).andThen fun _ => (looks_done _).still

end Settings

/-- The operations that move assets, take a vault to a stage or take a vote. -/
def Operation.isCounted : Operation → Bool
  | advanceVault .. | failVault .. | transitionAsset .. | lockPendingAssets _
  | releaseLockedAssets _ | distributeAssets .. | executeProposal _ | castVote .. => true
  | _ => false

/-- In any other operation nothing counted happens. -/
theorem Operation.still {op : Operation} (h : op.isCounted = false) : op.action.Still := by
  cases op with
  | createVault => exact (Vault.still_create _ _ _).discarded
  | getVault => exact (Vault.looks_find _).still.discarded
  | recordApplyParams => exact (Vault.still_recordApplyParams _ _).discarded
  | recordDispatchScript => exact (Vault.still_recordDispatchScript _ _).discarded
  | recordAcquireResults => exact (Vault.still_recordAcquireResults _ _ _).discarded
  | createAsset => exact (Asset.still_create _ _).discarded
  | getAsset => exact (Asset.looks_find _).still.discarded
  | listAssets => exact (Asset.looks_list _ _).still.discarded
  | updateAsset => exact (Asset.still_update _ _).discarded
  | createSnapshot => exact (Snapshot.still_create _ _ _).discarded
  | latestSnapshot => exact (Snapshot.looks_latest _).still.discarded
  | listSnapshots => exact (Snapshot.looks_list _).still.discarded
  | createProposal => exact (Proposal.still_create _ _).discarded
  | getProposal => exact (Proposal.looks_find _).still.discarded
  | proposalFee => exact (Settings.looks_proposalFee _).still.discarded
  | markFeePaid => exact (Proposal.still_markFeePaid _).discarded
  | openVoting => exact (Proposal.still_openVoting _).discarded
  | finalizeProposal => exact (Proposal.still_finalize _).discarded
  | tally => exact (Vote.looks_tally _).still.discarded
  | getClaim => exact (Claim.still_get _).discarded
  | normalizeClaims => exact (Claim.still_backfill _ _).discarded
  | ensureSettings => exact Settings.still_ensure.discarded
  | getSetting => exact (Settings.looks_get _ _).still.discarded
  | getAllSettings => exact Settings.looks_getAll.still.discarded
  | updateSettings => exact (Settings.still_update _).discarded
  | setSetting => exact (Settings.still_update _).discarded
  | deleteSetting => exact (Settings.still_delete _).discarded
  | votingFee => exact Settings.looks_votingFee.still.discarded
  | seedSettings => exact Settings.still_seed.discarded
  | _ => cases h

end VaultGovernance
