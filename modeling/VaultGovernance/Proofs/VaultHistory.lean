import VaultGovernance.Proofs.Trail

/-!
# VaultGovernance.Proofs.VaultHistory

The life of one vault.  Its stages follow `VaultStage.next` from the draft on,
which leads forward only.  The acquire results are needed to enter the locked
stage and are fixed from then on; a reason of failure is written when the vault
fails and not before.
-/

namespace VaultGovernance

/-! ## Stages -/

namespace VaultStage

/-- How far a stage is from the draft. -/
def rank : VaultStage → Nat
  | draft => 0
  | published => 1
  | contribution => 2
  | acquire => 3
  | locked => 4
  | terminating => 5
  | terminated => 6
  | failed => 7

/-- Stages lead forward. -/
theorem rank_lt_of_mem_next (a b : VaultStage) (h : b ∈ a.next) : a.rank < b.rank := by
  cases a <;> cases b <;> revert h <;> decide

/-- The acquire results are fixed by entering the locked stage. -/
theorem eq_locked_of_freezes {a b : VaultStage} (h : b ∈ a.next)
    (ha : a.freezesAcquireResults = false) (hb : b.freezesAcquireResults = true) :
    a = .acquire ∧ b = .locked := by
  cases a <;> cases b <;> revert h ha hb <;> decide

/-- Acquire results that are fixed stay fixed. -/
theorem freezes_of_mem_next {a b : VaultStage} (h : b ∈ a.next)
    (ha : a.freezesAcquireResults = true) : b.freezesAcquireResults = true := by
  cases a <;> cases b <;> revert h ha <;> decide

/-- A vault that has failed goes nowhere. -/
theorem ne_failed_of_mem_next {a b : VaultStage} (h : b ∈ a.next) : a ≠ .failed := by
  rintro rfl
  cases h

end VaultStage

/-! ## One change -/

/-- How the row of a vault goes on. -/
inductive Vault.Step (time : Timestamp) (v : Vault) : Vault → Prop
  | kept : Step time v v
  | entered {target : VaultStage} (reason : Option String) (edge : target ∈ v.stage.next)
      (ready : v.missingFor target = []) : Step time v (v.entered target reason time)
  | recorded {v' : Vault} (row : Reconfigured time v v') : Step time v v'

/-- The row of a new vault: a draft with thresholds as its columns keep them. -/
def Vault.IsNew (id : Uuid) (time : Timestamp) (v : Vault) : Prop :=
  ∃ name execution participation,
    (∃ d, Column.optionalNumeric Column.moneyPlaces d = .ok execution) ∧
    (∃ d, Column.optionalNumeric Column.moneyPlaces d = .ok participation) ∧
    v = drafted id name execution participation time

section Change

variable {c : Context} {s s' : Store} {id : Uuid} {v v' : Vault}

/-- A change adds a vault, takes one a step further, or leaves them alone. -/
theorem Change.vaults (h : Change c s s') :
    RowWrite Vault.id (Vault.IsNew s.nextId c.now) (Vault.Step c.now) s.vaults s'.vaults := by
  obtain ⟨op, h⟩ := h
  cases h with
  | vaultAdded name storedExecution storedParticipation =>
      exact .added ⟨name, _, _, storedExecution, storedParticipation, rfl⟩
  | @vaultAdvanced op v target reason found edge ready =>
      obtain ⟨assets, h⟩ := (s.putVault (v.entered target reason c.now)).settleAssets_rest v.id
        target c.now
      rw [h]
      exact .replaced found rfl (.entered reason edge ready)
  | vaultRecorded found row =>
      exact .replaced found (Vault.Follows.of_reconfigured row).id (.recorded row)
  | assetsPaidOut paid =>
      obtain ⟨assets, rfl⟩ := paid.rest
      exact .none
  | proposalMoved found step moved =>
      cases moved with
      | @executed v s₁ status vault effect =>
          cases effect with
          | distribution type script read paid =>
              obtain ⟨assets, rfl⟩ := paid.rest
              exact .none
          | termination type stage =>
              have hid : v.id = _ := Store.id_of_vault? vault
              refine .replaced (r := v) (hid ▸ vault) rfl (.entered none ?_ rfl)
              rw [stage]
              decide
          | none type => exact .none
      | _ => exact .none
  | _ => exact .none

/-- A vault that is there stays there and goes on. -/
theorem Change.vault_later (h : Change c s s') (hv : s.vault? id = some v) :
    ∃ v', s'.vault? id = some v' ∧ v.Step c.now v' :=
  h.vaults.later (fun _ => .kept) hv

/-- A vault that was not there before is a draft. -/
theorem Change.vault_new (h : Change c s s') (hnone : s.vault? id = none)
    (hv : s'.vault? id = some v) : v.stage = .draft := by
  obtain ⟨name, execution, participation, -, -, rfl⟩ := h.vaults.new_of_none hnone hv
  rfl

end Change

namespace Vault.Step

variable {time : Timestamp} {v v' : Vault}

theorem follows (h : v.Step time v') : v.Follows v' := by
  cases h with
  | kept => exact .refl v
  | entered reason edge ready => exact .of_entered reason time edge
  | recorded row => exact .of_reconfigured row

theorem stage (h : v.Step time v') : v'.stage = v.stage ∨ v'.stage ∈ v.stage.next := by
  cases h with
  | kept => exact .inl rfl
  | entered reason edge ready => exact .inr edge
  | recorded row => exact .inl (by rw [row.rest])

/-- Results that are fixed stay as they are. -/
theorem results (h : v.Step time v') (hfixed : v.stage.freezesAcquireResults = true) :
    v'.acquireMultiplier = v.acquireMultiplier ∧ v'.adaDistribution = v.adaDistribution := by
  cases h with
  | kept => exact ⟨rfl, rfl⟩
  | entered reason edge ready => exact ⟨rfl, rfl⟩
  | recorded row => exact row.frozen hfixed

/-- Results stay fixed. -/
theorem freezes (h : v.Step time v') (hfixed : v.stage.freezesAcquireResults = true) :
    v'.stage.freezesAcquireResults = true := by
  cases h.stage with
  | inl hsame => rw [hsame]; exact hfixed
  | inr hedge => exact VaultStage.freezes_of_mem_next hedge hfixed

end Vault.Step

/-! ## What the stage says about a row -/

namespace Vault

/-- The acquire results are there where they are fixed, and a reason of failure
is there for failed vaults only. -/
structure Staged (v : Vault) : Prop where
  results : v.stage.freezesAcquireResults = true →
    v.acquireMultiplier ≠ .null ∧ v.adaDistribution ≠ .null
  failure : v.failureReason ≠ none → v.stage = .failed

variable {time : Timestamp} {v v' : Vault}

theorem staged_drafted (id : Uuid) (name : String) (execution participation : Option Decimal)
    (time : Timestamp) : (drafted id name execution participation time).Staged := by
  constructor
  · intro hfixed
    cases hfixed
  · intro hreason
    exact absurd rfl hreason

/-- A vault that is ready for the locked stage has its acquire results. -/
theorem results_of_ready (h : v.missingFor .locked = []) :
    v.acquireMultiplier ≠ .null ∧ v.adaDistribution ≠ .null := by
  constructor <;> intro hnull <;> simp [missingFor, requirements, hnull, Json.isNull] at h

/-- A reason is written for a vault that fails. -/
theorem reasonAfter_of_ne_failed {target : VaultStage} (h : target ≠ .failed)
    (reason : Option String) : v.reasonAfter target reason = v.failureReason := by
  unfold reasonAfter
  rw [if_neg h]

theorem Step.staged (h : v.Step time v') (hv : v.Staged) : v'.Staged := by
  cases h with
  | kept => exact hv
  | @entered target reason edge ready =>
      constructor
      · intro hfixed
        cases hfrom : v.stage.freezesAcquireResults with
        | true => exact hv.results hfrom
        | false =>
            obtain ⟨-, rfl⟩ := VaultStage.eq_locked_of_freezes edge hfrom hfixed
            exact results_of_ready ready
      · intro hreason
        by_cases hfailed : target = .failed
        · exact hfailed
        · change v.reasonAfter target reason ≠ none at hreason
          rw [reasonAfter_of_ne_failed hfailed] at hreason
          exact absurd (hv.failure hreason) (VaultStage.ne_failed_of_mem_next edge)
  | recorded row =>
      have hstage : v'.stage = v.stage := by rw [row.rest]
      constructor
      · intro hfixed
        rw [hstage] at hfixed
        obtain ⟨hmultiplier, hdistribution⟩ := row.frozen hfixed
        rw [hmultiplier, hdistribution]
        exact hv.results hfixed
      · intro hreason
        rw [row.rest] at hreason
        rw [hstage]
        exact hv.failure hreason

end Vault

theorem storeAfter_staged (calls : List Call) : ∀ v ∈ (storeAfter calls).vaults, v.Staged := by
  refine storeAfter_invariant (P := fun s => ∀ v ∈ s.vaults, v.Staged) (by simp) ?_ calls
  intro c s s' h hc
  refine hc.vaults.forall_mem h ?_ fun v v' hstep => hstep.staged
  rintro v ⟨name, execution, participation, -, -, rfl⟩
  exact Vault.staged_drafted _ _ _ _ _

/-! ## The trail of a vault -/

namespace Vault

/-- The stage of a vault in a store. -/
def stageIn (id : Uuid) (s : Store) : Option VaultStage := (s.vault? id).map (·.stage)

/-- A call of a run took a vault into the locked stage with these acquire
results. -/
def LockedWith (id : Uuid) (multiplier distribution : Json) (calls : List Call) : Prop :=
  ∃ earlier k later u v, calls = earlier ++ k :: later ∧
    (storeAfter earlier).vault? id = some u ∧ u.stage = .acquire ∧
    (storeAfter (earlier ++ [k])).vault? id = some v ∧ v.stage = .locked ∧
    v.acquireMultiplier = multiplier ∧ v.adaDistribution = distribution

variable {id : Uuid} {v : Vault}

/-- A call leaves the stage of a vault or moves it along the table. -/
theorem stageIn_called (w : World) (k : Call) {stage : VaultStage}
    (h : stageIn id w.store = some stage) :
    ∃ stage', stageIn id (w.called k).store = some stage' ∧
      (stage' = stage ∨ stage' ∈ stage.next) := by
  obtain ⟨v, hv, rfl⟩ := Option.map_eq_some_iff.1 h
  obtain ⟨v', hv', hstep⟩ := (World.change_called w k).vault_later hv
  exact ⟨v'.stage, by rw [stageIn, hv', Option.map_some], hstep.stage⟩

/-- The stages that a run shows for a vault. -/
def stages (id : Uuid) (calls : List Call) : List VaultStage :=
  (World.trail (stageIn id) {} calls).map Prod.snd

theorem head?_stages {calls : List Call} {stage : VaultStage}
    (h : (stages id calls).head? = some stage) : stage = .draft := by
  rw [stages, List.head?_map] at h
  obtain ⟨⟨k, _⟩, hhead, rfl⟩ := Option.map_eq_some_iff.1 h
  obtain ⟨earlier, later, v, -, hnone, hv, rfl⟩ := World.head?_trail_row (by rfl) hhead
  exact (change_storeAfter earlier k).vault_new hnone hv

theorem isChain_stages (id : Uuid) (calls : List Call) :
    (stages id calls).IsChain fun a b => b = a ∨ b ∈ a.next := by
  rw [stages, List.isChain_map]
  exact World.isChain_trail (R := fun _ a b => b = a ∨ b ∈ a.next)
    (fun w k _ h => stageIn_called w k h) {} calls

/-- An earlier stage leads to a later one. -/
theorem pairwise_stages (id : Uuid) (calls : List Call) :
    (stages id calls).Pairwise (Leads VaultStage.next) := by
  have hchain : (stages id calls).IsChain (Leads VaultStage.next) := by
    refine (isChain_stages id calls).imp fun a b h => ?_
    rcases h with rfl | hedge
    · exact .refl _
    · exact .of_edge hedge
  exact hchain.pairwise

/-- Acquire results that are fixed are found unchanged after any run. -/
theorem results_after {w : World} (hv : w.store.vault? id = some v)
    (hfixed : v.stage.freezesAcquireResults = true) (calls : List Call) :
    ∃ v', (w.after calls).store.vault? id = some v' ∧
      v'.acquireMultiplier = v.acquireMultiplier ∧ v'.adaDistribution = v.adaDistribution := by
  have h := World.after_invariant
    (P := fun s => ∃ v', s.vault? id = some v' ∧ v'.stage.freezesAcquireResults = true ∧
      v'.acquireMultiplier = v.acquireMultiplier ∧ v'.adaDistribution = v.adaDistribution)
    ⟨v, hv, hfixed, rfl, rfl⟩ ?_ calls
  · obtain ⟨v', hv', -, hresults⟩ := h
    exact ⟨v', hv', hresults⟩
  · rintro c s s' ⟨u, hu, hufixed, hmultiplier, hdistribution⟩ hc
    obtain ⟨u', hu', hstep⟩ := hc.vault_later hu
    obtain ⟨hmultiplier', hdistribution'⟩ := hstep.results hufixed
    exact ⟨u', hu', hstep.freezes hufixed, hmultiplier'.trans hmultiplier,
      hdistribution'.trans hdistribution⟩

/-- The acquire results that a vault has are those with which it was locked. -/
theorem lockedWith_of_freezes {calls : List Call} (hv : (storeAfter calls).vault? id = some v)
    (hfixed : v.stage.freezesAcquireResults = true) :
    LockedWith id v.acquireMultiplier v.adaDistribution calls := by
  obtain ⟨earlier, k, later, rfl, hbefore, u', hu', hu'fixed⟩ :=
    World.exists_call (P := fun s => ∃ v, s.vault? id = some v ∧
      v.stage.freezesAcquireResults = true) (w := {}) (by rintro ⟨u, hu, -⟩; cases hu)
      ⟨v, hv, hfixed⟩
  -- The results were free before `k` and are fixed after it, so `k` locked the vault.
  have hc := change_storeAfter earlier k
  cases hu : (storeAfter earlier).vault? id with
  | none =>
      rw [hc.vault_new hu hu'] at hu'fixed
      cases hu'fixed
  | some u =>
      have hufree : u.stage.freezesAcquireResults = false := by
        by_contra hne
        exact hbefore ⟨u, hu, by simpa using hne⟩
      obtain ⟨_, hfound, hstep⟩ := hc.vault_later hu
      obtain rfl := Option.some.inj (hu'.symm.trans hfound)
      have hedge : u'.stage ∈ u.stage.next :=
        hstep.stage.resolve_left fun hsame => by rw [hsame, hufree] at hu'fixed; cases hu'fixed
      obtain ⟨hacquire, hlocked⟩ := VaultStage.eq_locked_of_freezes hedge hufree hu'fixed
      obtain ⟨_, hend, hmultiplier, hdistribution⟩ := results_after hu' hu'fixed later
      rw [← World.after_append, List.append_assoc] at hend
      obtain rfl := Option.some.inj (hv.symm.trans hend)
      exact ⟨earlier, k, later, u, u', rfl, hu, hacquire, hu', hlocked, hmultiplier.symm,
        hdistribution.symm⟩

end Vault

/-- The life of a vault in a run.  Its stages follow the table from the draft on,
none comes back after it was left, and a vault that has failed or is terminated
stays so.  A vault that is locked, terminating or terminated has the acquire
results with which it was locked; only a failed vault has a reason of failure;
its name and its thresholds are those of every earlier row. -/
theorem vault_lifecycle (calls : List Call) (id : Uuid) :
    let stages := Vault.stages id calls
    (∀ stage, stages.head? = some stage → stage = .draft) ∧
      stages.IsChain (fun a b => b = a ∨ b ∈ a.next) ∧
      (∀ a b d, [a, b, d].Sublist stages → b ≠ a → d ≠ a) ∧
      (∀ a b, [a, b].Sublist stages → a = .failed ∨ a = .terminated → b = a) ∧
      ∀ v, (storeAfter calls).vault? id = some v →
        (v.stage = .locked ∨ v.stage = .terminating ∨ v.stage = .terminated →
          v.acquireMultiplier ≠ .null ∧ v.adaDistribution ≠ .null ∧
            Vault.LockedWith id v.acquireMultiplier v.adaDistribution calls) ∧
          (v.failureReason ≠ none → v.stage = .failed) ∧
          ∀ earlier later u, calls = earlier ++ later →
            (storeAfter earlier).vault? id = some u →
            v.name = u.name ∧ v.executionThreshold = u.executionThreshold ∧
              v.participationThreshold = u.participationThreshold := by
  intro stages
  have hpairs := Vault.pairwise_stages id calls
  refine ⟨fun stage h => Vault.head?_stages h, Vault.isChain_stages id calls, ?_, ?_, ?_⟩
  · rintro a b d hsub hleft rfl
    have hleads := hpairs.sublist hsub
    simp only [List.pairwise_cons, List.mem_cons, forall_eq_or_imp] at hleads
    exact hleft (Leads.antisymm VaultStage.rank VaultStage.rank_lt_of_mem_next
      hleads.1.1 hleads.2.1.1).symm
  · intro a b hsub hfinal
    have hleads := hpairs.sublist hsub
    simp only [List.pairwise_cons, List.mem_cons, forall_eq_or_imp] at hleads
    rcases hfinal with rfl | rfl <;> exact hleads.1.1.eq_of_final rfl
  · intro v hv
    have hstaged := storeAfter_staged calls v (List.mem_of_find?_eq_some hv)
    refine ⟨fun hstage => ?_, hstaged.failure, ?_⟩
    · have hfixed : v.stage.freezesAcquireResults = true := by
        rcases hstage with hstage | hstage | hstage <;> rw [hstage] <;> rfl
      obtain ⟨hmultiplier, hdistribution⟩ := hstaged.results hfixed
      exact ⟨hmultiplier, hdistribution, Vault.lockedWith_of_freezes hv hfixed⟩
    · rintro earlier later u rfl hu
      obtain ⟨v', hv', hf⟩ := (storeAfter_before earlier later).vaults hu
      obtain rfl := Option.some.inj (hv.symm.trans hv')
      exact ⟨hf.name, hf.executionThreshold, hf.participationThreshold⟩

/-- A vault that was locked, and acquire results that come too late. -/
theorem vault_lifecycle_of_sample :
    let calls := Sample.opening ++
      [Sample.call 14 (.recordAcquireResults Sample.vaultId (.str "late") (.str "late"))]
    let v := (storeAfter calls).vaults.headD default
    (Vault.stages Sample.vaultId calls).dedup =
        [.draft, .published, .contribution, .acquire, .locked] ∧
      v.stage = .locked ∧ v.acquireMultiplier = .arr [] ∧
      Vault.LockedWith Sample.vaultId v.acquireMultiplier v.adaDistribution calls := by
  intro calls v
  have hv : (storeAfter calls).vault? Sample.vaultId = some v := by decide +kernel
  have hstage : v.stage = .locked := by decide +kernel
  obtain ⟨-, -, -, -, hrow⟩ := vault_lifecycle calls Sample.vaultId
  exact ⟨by decide +kernel, hstage, by decide +kernel, ((hrow v hv).1 (.inl hstage)).2.2⟩

end VaultGovernance
