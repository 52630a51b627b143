import VaultGovernance.Proofs.Atomicity
import VaultGovernance.Proofs.Listing

/-!
# VaultGovernance.Proofs.Enactment

Executing a proposal.  What executing asks of the store beyond a proposal that passed is
a condition on the rows that its effects are about: the dispatch script of the vault and
the statuses of the listed assets for a distribution, the stage of the vault for a
termination.  Nothing else can stop an execution, since lists can be read, name distinct
assets of the vault, and the vault is there.

`Store.enacted` is the store as an execution leaves it, written down row by row.
-/

namespace VaultGovernance

open VaultGovernance.Action

/-! ## Rows that are replaced in place -/

/-- Where identifiers are distinct, putting a changed row in its place changes the one
row that has its identifier. -/
theorem map_replaced_eq {α : Type} (key : α → Uuid) {rows : List α}
    (hdistinct : (rows.map key).Nodup) {r : α} (hr : r ∈ rows) (f : α → α)
    (hkey : key (f r) = key r) :
    (rows.map fun x => if key x = key (f r) then f r else x) =
      rows.map fun x => if key x = key r then f x else x := by
  refine List.map_congr_left fun x hx => ?_
  rw [hkey]
  by_cases hsame : key x = key r
  · have hrow : x = r := List.inj_on_of_nodup_map hdistinct hx hr hsame
    rw [if_pos hsame, if_pos hsame, hrow]
  · rw [if_neg hsame, if_neg hsame]

/-! ## Paying out a list -/

/-- The store after listed assets are paid out. -/
def Store.paidOut (s : Store) (ids : List Uuid) (time : Timestamp) : Store :=
  { s with assets := s.assets.map fun a => if a.id ∈ ids then a.moved .distributed time else a }

/-- Paying out one after the other changes the rows that are listed. -/
theorem PaidOut.store_eq {time : Timestamp} {vaultId : Uuid} {ids : List Uuid} {s s' : Store}
    (h : PaidOut time vaultId ids s s') (hdistinct : (s.assets.map Asset.id).Nodup) :
    s' = s.paidOut ids time := by
  induction h with
  | nil s => simp [Store.paidOut]
  | @cons a rest s s' found owner locked others ih =>
      have hfirst : (s.putAsset (a.moved .distributed time)).assets =
          s.assets.map fun x => if x.id = a.id then x.moved .distributed time else x :=
        map_replaced_eq Asset.id hdistinct (List.mem_of_find?_eq_some found)
          (·.moved .distributed time)
          (Asset.id_moved a .distributed time)
      have hids : (s.putAsset (a.moved .distributed time)).assets.map Asset.id =
          s.assets.map Asset.id := map_key_replaced Asset.id _ _
      have hnew : a.id ∉ rest := by
        have hnodup := (PaidOut.cons found owner locked others).nodup
        exact (List.nodup_cons.1 hnodup).1
      rw [ih (hids ▸ hdistinct)]
      have hrest : s.putAsset (a.moved .distributed time) = { s with
          assets := (s.putAsset (a.moved .distributed time)).assets } := rfl
      rw [hrest, hfirst]
      simp only [Store.paidOut, List.map_map]
      congr 1
      refine List.map_congr_left fun x _ => ?_
      by_cases hx : x.id = a.id
      · simp [hx, hnew]
      · simp [hx]

/-- Another row leaves an asset in its status. -/
theorem Store.AssetIn.putAsset {s : Store} {vaultId id : Uuid} {status : AssetStatus} {a : Asset}
    (h : s.AssetIn vaultId status id) (hid : id ≠ a.id) :
    (s.putAsset a).AssetIn vaultId status id := by
  obtain ⟨b, hb, hrest⟩ := h
  refine ⟨b, ?_, hrest⟩
  rw [asset?_putAsset, if_neg hid]
  exact hb

section Actions

variable {c : Context} {w : World}

namespace Asset

/-- A status that may follow is entered. -/
theorem move_of_mem_next {a : Asset} {target : AssetStatus} (h : target ∈ a.status.next) :
    move a target c w = (.ok (a.moved target c.now),
      ⟨w.store.putAsset (a.moved target c.now), .assetMoved a.status target :: w.events⟩) := by
  rw [move, if_pos (List.contains_iff_mem.2 h)]
  rfl

/-- Distinct locked assets of a vault can be paid out. -/
theorem distribute_of_locked {vaultId : Uuid} {ids : List Uuid} (hnodup : ids.Nodup)
    (hlocked : ∀ id ∈ ids, w.store.AssetIn vaultId .locked id) :
    ∃ as w', distribute vaultId ids c w = (.ok as, w') := by
  induction ids generalizing w with
  | nil => exact ⟨_, _, rfl⟩
  | cons id rest ih =>
      obtain ⟨hnew, hrest⟩ := List.nodup_cons.1 hnodup
      obtain ⟨hfirst, hlater⟩ := List.forall_mem_cons.1 hlocked
      obtain ⟨a, ha, howner, hstatus⟩ := hfirst
      obtain rfl : a.id = id := Store.id_of_asset? ha
      have hmove := move_of_mem_next (c := c) (w := w) (distributed_mem_next.2 hstatus)
      obtain ⟨others, w', hothers⟩ := ih (w := ⟨w.store.putAsset (a.moved .distributed c.now),
        .assetMoved a.status .distributed :: w.events⟩) hrest fun id hid =>
          (hlater id hid).putAsset fun hsame => hnew (hsame ▸ hid)
      refine ⟨a.moved .distributed c.now :: others, w', ?_⟩
      rw [distribute, bind_eq, andThen_of_ok (find_eq_ok.2 ⟨ha, rfl⟩), if_pos howner, bind_eq,
        andThen_of_ok hmove, bind_eq, andThen_of_ok hothers]
      rfl

end Asset

/-- A locked vault can be terminated. -/
theorem Vault.advance_of_locked {v : Vault} (hv : w.store.vault? v.id = some v)
    (hstage : v.stage = .locked) :
    ∃ v' w', Vault.advance v.id .terminating none c w = (.ok v', w') := by
  have hedge : v.stage.next.contains .terminating = true := by rw [hstage]; decide
  rw [advance, bind_eq, andThen_of_ok (find_eq_ok.2 ⟨hv, rfl⟩), if_pos hedge]
  exact ⟨_, _, rfl⟩

namespace Proposal

variable {p : Proposal} {v : Vault}

/-! ## What an execution asks for -/

/-- What executing a proposal asks of the store. -/
structure Executable (s : Store) (p : Proposal) : Prop where
  passed : p.status = .passed
  distribution : p.type = .distribution →
    (∃ v, s.vault? p.vaultId = some v ∧ v.dispatchScript.isNull = false) ∧
      ∀ id ∈ p.listed, ∃ a, s.asset? id = some a ∧ a.status = .locked
  termination : p.type = .termination → ∃ v, s.vault? p.vaultId = some v ∧ v.stage = .locked

/-- The effects of a proposal that may be executed succeed. -/
theorem applyEffects_of_executable (h : p.Executable w.store)
    (hv : w.store.vault? p.vaultId = some v) (hlist : p.type = .distribution → p.Readable w.store) :
    ∃ w', applyEffects p v c w = (.ok (), w') := by
  have hid : v.id = p.vaultId := Store.id_of_vault? hv
  rw [applyEffects]
  cases htype : p.type with
  | distribution =>
      obtain ⟨⟨v', hv', hscript⟩, hlocked⟩ := h.distribution htype
      obtain rfl := Option.some.inj (hv.symm.trans hv')
      obtain ⟨hread, hnodup, howned⟩ := hlist htype
      have hpayable : ∀ id ∈ p.listed, w.store.AssetIn v.id .locked id := by
        intro id hid'
        obtain ⟨a, ha, hstatus⟩ := hlocked id hid'
        obtain ⟨b, hb, howner⟩ := howned id hid'
        obtain rfl := Option.some.inj (ha.symm.trans hb)
        exact ⟨a, ha, howner.trans hid.symm, hstatus⟩
      obtain ⟨as, w', hpaid⟩ := Asset.distribute_of_locked (c := c) hnodup hpayable
      refine ⟨w', ?_⟩
      dsimp only
      rw [if_neg (Bool.eq_false_iff.1 hscript), bind_eq,
        andThen_of_ok (ofExcept_eq_ok.2 ⟨hread, rfl⟩), bind_eq, andThen_of_ok hpaid]
      rfl
  | termination =>
      obtain ⟨v', hv', hstage⟩ := h.termination htype
      obtain rfl := Option.some.inj (hv.symm.trans hv')
      obtain ⟨v', w', hadvance⟩ := Vault.advance_of_locked (c := c) (hid ▸ hv) hstage
      refine ⟨w', ?_⟩
      dsimp only
      rw [bind_eq, andThen_of_ok hadvance]
      rfl
  | staking | burning | marketplaceAction | expansion => exact ⟨w, rfl⟩

/-- A proposal that may be executed is executed. -/
theorem execute_of_executable {id : Uuid} (hp : w.store.proposal? id = some p)
    (h : p.Executable w.store) (hv : w.store.vault? p.vaultId = some v)
    (hlist : p.type = .distribution → p.Readable w.store) :
    ∃ q, (execute id c w).1 = .ok q := by
  obtain ⟨w₁, heffects⟩ := applyEffects_of_executable (c := c) h hv hlist
  have hedge : .executed ∈ p.status.next := by rw [h.passed]; decide
  obtain ⟨q, henter⟩ := succeeds_enter hedge
    (fun time p => { p with executionDate := some time }) c w₁
  refine ⟨q, ?_⟩
  rw [execute, bind_eq, andThen_of_ok (find_eq_ok.2 ⟨hp, rfl⟩), if_pos h.passed, bind_eq,
    andThen_of_ok (Vault.find_eq_ok.2 ⟨hv, rfl⟩), bind_eq, andThen_of_ok heffects]
  exact henter

end Proposal

end Actions

/-! ## What an execution leaves -/

/-- The store as executing a proposal leaves it. -/
def Store.enacted (s : Store) (p : Proposal) (time : Timestamp) : Store :=
  { s with
    vaults := s.vaults.map fun v =>
      if p.type = .termination ∧ v.id = p.vaultId then
        { v with stage := .terminating, updatedAt := some time }
      else v
    assets := s.assets.map fun a =>
      if p.type = .distribution ∧ a.id ∈ p.listed then
        { a with status := .distributed, distributedAt := some time, updatedAt := some time }
      else a
    proposals := s.proposals.map fun q =>
      if q.id = p.id then
        { q with status := .executed, executionDate := some time, updatedAt := some time }
      else q }

section Enacted

variable {time : Timestamp} {s s₁ : Store} {p : Proposal} {v : Vault}

/-- A proposal with effects may be executed, as far as these go. -/
theorem Effect.executable (h : Effect time p v s s₁) (hpassed : p.status = .passed)
    (hv : s.vault? p.vaultId = some v) : p.Executable s where
  passed := hpassed
  distribution := by
    intro htype
    cases h with
    | distribution type script read paid =>
        rw [Proposal.listed_of_identifiers read]
        refine ⟨⟨v, hv, script⟩, fun id hid => ?_⟩
        obtain ⟨a, ha, -, hstatus⟩ := paid.locked id hid
        exact ⟨a, ha, hstatus⟩
    | termination type stage => rw [htype] at type; cases type
    | none type => exact absurd htype type.1
  termination := fun htype => ⟨v, hv, (h.terminated htype).1⟩

/-- The effects of a proposal are those on the vaults and on the assets. -/
theorem Effect.store_eq (h : Effect time p v s s₁) (hs : s.Numbered)
    (hv : s.vault? p.vaultId = some v) :
    s₁ = { s with vaults := (s.enacted p time).vaults, assets := (s.enacted p time).assets } := by
  cases h with
  | @distribution ids s₁ type script read paid =>
      have hvaults : (s.enacted p time).vaults = s.vaults := by simp [Store.enacted, type]
      have hassets : (s.enacted p time).assets = (s.paidOut ids time).assets := by
        simp only [Store.enacted, type, Proposal.listed_of_identifiers read, true_and]
        rfl
      rw [hvaults, hassets]
      exact paid.store_eq hs.assets.distinct
  | termination type stage =>
      have hassets : (s.enacted p time).assets = s.assets := by simp [Store.enacted, type]
      have hvaults : (s.enacted p time).vaults =
          (s.putVault (v.entered .terminating Option.none time)).vaults := by
        have hid : v.id = p.vaultId := Store.id_of_vault? hv
        have hreplaced := map_replaced_eq Vault.id hs.vaults.distinct
          (List.mem_of_find?_eq_some hv) (·.entered .terminating Option.none time) rfl
        rw [Store.putVault, hreplaced, hid]
        simp only [Store.enacted, type, true_and]
        rfl
      rw [hvaults, hassets]
      rfl
  | none type => simp [Store.enacted, type]

/-- Executing leads to the executed status. -/
theorem ProposalStatus.Step.of_execute {id : Uuid} {source target : ProposalStatus}
    (h : Step id (.executeProposal id) source target) : target = .executed := by
  cases h
  rfl

/-- A proposal that is executed leaves the store written down. -/
theorem Proposal.Moved.store_eq {c : Context} {q : Proposal} (hs : s.Numbered)
    (hp : s.proposal? p.id = some p) (h : Proposal.Moved c s p q s₁) (hq : q.status = .executed) :
    p.Executable s ∧ s₁.putProposal q = s.enacted p c.now := by
  cases h with
  | feePaid status => cases hq
  | opened status => cases hq
  | @closed v passed result status vault decision => cases passed <;> cases hq
  | @executed v s₁ status vault effect =>
      refine ⟨effect.executable status vault, ?_⟩
      have hreplaced := map_replaced_eq Proposal.id hs.proposals.distinct
        (List.mem_of_find?_eq_some hp)
        (fun q => { q.entered .executed c.now with executionDate := some c.now }) rfl
      rw [effect.store_eq hs vault, Store.putProposal, hreplaced]
      rfl

end Enacted

/-- Executing a proposal after any run.  It succeeds exactly when the proposal is there,
has passed, and: for a distribution, its vault holds a dispatch script and every listed
asset is locked; for a termination, its vault is locked.  It then marks the proposal as
executed, the listed assets of a distribution as distributed, and the vault of a
termination as terminating, each with the time, and leaves every other row and column.
When it fails, no row changes. -/
theorem execution_exact (calls : List Call) (c : Context) (id : Uuid) :
    let w := World.after {} calls
    let s := w.store
    let r := transaction (Proposal.execute id) c w
    ((∃ q, r.1 = .ok q) ↔ ∃ p, s.proposal? id = some p ∧ p.Executable s) ∧
      (∀ q, r.1 = .ok q → ∃ p, s.proposal? id = some p ∧ r.2.store = s.enacted p c.now) ∧
      ∀ e, r.1 = .error e → r.2.store = s := by
  intro w s r
  have hnumbered : s.Numbered := storeAfter_numbered calls
  have hdone : ∀ q, r.1 = .ok q →
      ∃ p, s.proposal? id = some p ∧ p.Executable s ∧ r.2.store = s.enacted p c.now := by
    intro q hq
    have hrun : transaction (Proposal.execute id) c w = (.ok q, r.2) := Prod.ext hq rfl
    obtain ⟨p, s₁, hp, hstep, hmoved, hstore⟩ := Proposal.execute_ok (transaction_eq_ok.1 hrun)
    obtain rfl := Store.id_of_proposal? hp
    have hstatus : q.status = .executed := hstep.of_execute
    obtain ⟨hexecutable, heq⟩ := hmoved.store_eq hnumbered hp hstatus
    exact ⟨p, hp, hexecutable, hstore.trans heq⟩
  refine ⟨⟨?_, ?_⟩, ?_, ?_⟩
  · rintro ⟨q, hq⟩
    obtain ⟨p, hp, hexecutable, -⟩ := hdone q hq
    exact ⟨p, hp, hexecutable⟩
  · rintro ⟨p, hp, hexecutable⟩
    have hmem : p ∈ s.proposals := List.mem_of_find?_eq_some hp
    obtain ⟨v, hv, -⟩ := (references_intact calls).proposals p hmem
    obtain ⟨q, hq⟩ := Proposal.execute_of_executable (c := c) hp hexecutable hv
      (storeAfter_listed calls p hmem)
    have hrun : r = (.ok q, _) := transaction_eq_ok.2 (Prod.ext hq rfl)
    exact ⟨q, congrArg Prod.fst hrun⟩
  · intro q hq
    obtain ⟨p, hp, -, hstore⟩ := hdone q hq
    exact ⟨p, hp, hstore⟩
  · exact fun e he => store_of_transaction_error (Prod.ext he rfl)

namespace Sample

/-- The sample run up to the decision to pay out. -/
def decided : List Call := opening ++ voting ++ closing.take 1

/-- The same vault, whose termination is proposed and decided. -/
def ending : List Call :=
  opening.take 10 ++
    [call 11 (.createProposal vaultId {
        type := .termination
        creatorId := some "alice"
        title := some "Close"
        payload := [("termination_reason", .str "done"),
          (Proposal.dateField, .str "2027-01-01")] }),
      call 12 (.markFeePaid proposalId), call 13 (.openVoting proposalId)] ++
    voting ++ closing.take 1

/-- When a decision is executed. -/
def due : Context := (call 17 .getAllSettings).context

end Sample

/-- The distribution of the sample run is executed. -/
theorem execution_exact_of_sample :
    ∃ p, (World.after {} Sample.decided).store.proposal? Sample.proposalId = some p ∧
      (transaction (Proposal.execute Sample.proposalId) Sample.due
        (World.after {} Sample.decided)).2.store =
        (World.after {} Sample.decided).store.enacted p Sample.due.now := by
  let s := (World.after {} Sample.decided).store
  have hp : s.proposal? Sample.proposalId = some (s.proposals.headD default) := by decide +kernel
  have hlisted : (s.proposals.headD default).listed = [Sample.assetId] := by decide +kernel
  have hexecutable : (s.proposals.headD default).Executable s :=
    { passed := by decide +kernel
      distribution := fun _ =>
        ⟨⟨s.vaults.headD default, by decide +kernel⟩, by
          rw [hlisted, List.forall_mem_singleton]
          exact ⟨s.assets.headD default, by decide +kernel⟩⟩
      termination := fun htype => absurd htype (by decide +kernel) }
  obtain ⟨q, hq⟩ :=
    (execution_exact Sample.decided Sample.due Sample.proposalId).1.2 ⟨_, hp, hexecutable⟩
  exact (execution_exact Sample.decided Sample.due Sample.proposalId).2.1 q hq

/-- Executing a termination changes more of its vault than the stage: the time of the
latest change is written as well. -/
theorem termination_stamps_vault :
    let w := World.after {} Sample.ending
    let r := transaction (Proposal.execute Sample.proposalId) Sample.due w
    r.1.toOption.isSome = true ∧ w.store.vaults.map (·.updatedAt) = [some ⟨9000000⟩] ∧
      r.2.store.vaults.map (·.updatedAt) = [some ⟨17000000⟩] ∧
      r.2.store.vaults ≠ w.store.vaults.map fun v => { v with stage := .terminating } := by
  decide +kernel

end VaultGovernance
