import VaultGovernance.Proofs.Execution
import VaultGovernance.Proofs.Trail

/-!
# VaultGovernance.Proofs.AssetHistory

The life of one asset.  Single moves, bulk moves, payouts and edits all write asset
rows, some of them many at once; `Change.assets` says that to every single row they
do one thing: it stays, it moves along one edge of the table of statuses with the
time stamp of the status it enters, or its free fields are edited.

So the time stamps tell the history of the row.  A status that was entered has its
stamp, one that was not has none, and a stamp is never written again.
-/

namespace VaultGovernance

/-! ## Statuses and stamps -/

/-- The table of statuses, edge by edge. -/
theorem AssetStatus.mem_next_iff {a b : AssetStatus} :
    b ∈ a.next ↔ a = .pending ∧ b = .locked ∨
      a = .locked ∧ (b = .released ∨ b = .distributed) := by
  cases a <;> cases b <;> decide

/-- How far a status is from pending. -/
def AssetStatus.rank : AssetStatus → Nat
  | pending => 0
  | locked => 1
  | released => 2
  | distributed => 2

/-- Statuses lead forward. -/
theorem AssetStatus.rank_lt_of_mem_next {a b : AssetStatus} (h : b ∈ a.next) :
    a.rank < b.rank := by
  cases a <;> cases b <;> revert h <;> decide

namespace Timestamp

theorem le_refl (t : Timestamp) : t.le t = true := by
  simp [le]

theorem le_trans {t u v : Timestamp} (h : t.le u = true) (h' : u.le v = true) :
    t.le v = true := by
  simp only [le, decide_eq_true_iff] at *
  omega

/-- Finitely many points in time have one that is not before any of them. -/
theorem exists_latest (times : List Timestamp) : ∃ now : Timestamp, ∀ t ∈ times, t.le now := by
  induction times with
  | nil => exact ⟨default, by simp⟩
  | cons t times ih =>
      obtain ⟨now, hnow⟩ := ih
      refine ⟨⟨max t.micros now.micros⟩, List.forall_mem_cons.2 ⟨?_, fun u hu => ?_⟩⟩
      · simp [le]
      · refine le_trans (hnow u hu) ?_
        simp [le]

end Timestamp

namespace Asset

/-- When an asset entered a status, as far as its row says so. -/
def enteredAt (a : Asset) : AssetStatus → Option Timestamp
  | .pending => some a.createdAt
  | .locked => a.lockedAt
  | .released => a.releasedAt
  | .distributed => a.distributedAt

/-- How the row of an asset goes on. -/
inductive Step (time : Timestamp) (a : Asset) : Asset → Prop
  | kept : Step time a a
  | moved {target : AssetStatus} (edge : target ∈ a.status.next) :
      Step time a (a.moved target time)
  | edited {a' : Asset} (row : Edited time a a') : Step time a a'

variable {time : Timestamp} {a a' : Asset}

/-- A move writes one stamp. -/
theorem enteredAt_moved {target : AssetStatus} (edge : target ∈ a.status.next)
    (status : AssetStatus) : (a.moved target time).enteredAt status =
      if status = target then some time else a.enteredAt status := by
  rcases AssetStatus.mem_next_iff.1 edge with ⟨-, rfl⟩ | ⟨-, rfl | rfl⟩ <;>
    cases status <;> rfl

/-- An edit writes none. -/
theorem Edited.enteredAt (h : Edited time a a') : a'.enteredAt = a.enteredAt := by
  rw [h]
  funext status
  cases status <;> rfl

namespace Step

theorem follows (h : a.Step time a') : a.Follows a' := by
  cases h with
  | kept => exact .refl a
  | moved edge => exact .of_moved time edge
  | edited row => exact .of_edited row

theorem status (h : a.Step time a') : a'.status = a.status ∨ a'.status ∈ a.status.next := by
  cases h with
  | kept => exact .inl rfl
  | moved edge => exact .inr edge
  | edited row => exact .inl (by rw [row])

/-- A stamp that a step writes is the time of the step, and the step enters its
status. -/
theorem entered (h : a.Step time a') {status : AssetStatus} {t : Timestamp}
    (ht : a'.enteredAt status = some t) :
    a.enteredAt status = some t ∨ t = time ∧ a.status ≠ status ∧ a'.status = status := by
  cases h with
  | kept => exact .inl ht
  | @moved target edge =>
      rw [enteredAt_moved edge] at ht
      split at ht
      · next hstatus =>
        refine .inr ⟨(Option.some.inj ht).symm, ?_, hstatus.symm⟩
        rintro rfl
        rw [hstatus] at edge
        cases target <;> exact absurd edge (by decide)
      · exact .inl ht
  | edited row => exact .inl (row.enteredAt ▸ ht)

end Step

/-! ## What the status says about the stamps -/

/-- Exactly the statuses that were entered have their stamps. -/
structure Stamped (a : Asset) : Prop where
  locked : a.lockedAt ≠ none ↔ a.status ≠ .pending
  released : a.releasedAt ≠ none ↔ a.status = .released
  distributed : a.distributedAt ≠ none ↔ a.status = .distributed

theorem Recorded.stamped {c : Context} {s : Store} (h : Recorded c s a) : a.Stamped := by
  constructor <;> simp [h.status, h.lockedAt, h.releasedAt, h.distributedAt]

theorem Step.stamped (h : a.Step time a') (ha : a.Stamped) : a'.Stamped := by
  cases h with
  | kept => exact ha
  | moved edge =>
      obtain ⟨hlocked, hreleased, hdistributed⟩ := ha
      rcases AssetStatus.mem_next_iff.1 edge with ⟨hfrom, rfl⟩ | ⟨hfrom, rfl | rfl⟩ <;>
        rw [hfrom] at hlocked hreleased hdistributed <;>
        constructor <;> simp_all [Asset.moved, Asset.stamped]
  | edited row =>
      rw [row]
      exact ⟨ha.locked, ha.released, ha.distributed⟩

/-- A status that was not entered yet has no stamp. -/
theorem Stamped.enteredAt_eq_none (h : a.Stamped) {status : AssetStatus}
    (hlater : a.status.rank < status.rank) : a.enteredAt status = none := by
  rw [← not_not (a := a.enteredAt status = none)]
  intro hne
  cases status with
  | pending => cases hlater
  | locked =>
      have hleft := h.locked.1 hne
      cases hstatus : a.status <;> simp_all [AssetStatus.rank]
  | released =>
      rw [h.released.1 hne] at hlater
      exact absurd hlater (Nat.lt_irrefl _)
  | distributed =>
      rw [h.distributed.1 hne] at hlater
      exact absurd hlater (Nat.lt_irrefl _)

/-- A stamp that was written stays. -/
theorem Step.enteredAt_later (h : a.Step time a') (ha : a.Stamped) {status : AssetStatus}
    {t : Timestamp} (ht : a.enteredAt status = some t) : a'.enteredAt status = some t := by
  cases h with
  | kept => exact ht
  | moved edge =>
      rw [enteredAt_moved edge, if_neg ?_]
      · exact ht
      · rintro rfl
        rw [ha.enteredAt_eq_none (AssetStatus.rank_lt_of_mem_next edge)] at ht
        cases ht
  | edited row => rw [row.enteredAt]; exact ht

/-! ## Stamps and the clock -/

/-- The stamps of a row are in order, and none is later than a point in time. -/
structure InOrder (now : Timestamp) (a : Asset) : Prop where
  past : ∀ status t, a.enteredAt status = some t → t.le now
  along : ∀ status status' t t', status' ∈ status.next → a.enteredAt status = some t →
    a.enteredAt status' = some t' → t.le t'

theorem InOrder.mono {now now' : Timestamp} (h : a.InOrder now) (hle : now.le now') :
    a.InOrder now' :=
  { h with past := fun status t ht => Timestamp.le_trans (h.past status t ht) hle }

theorem Recorded.inOrder {c : Context} {s : Store} (h : Recorded c s a) : a.InOrder c.now := by
  -- The only stamp of a new row is that of its making.
  have honly : ∀ status t, a.enteredAt status = some t → status = .pending ∧ t = c.now := by
    intro status t ht
    cases status <;>
      simp_all [enteredAt, h.createdAt, h.lockedAt, h.releasedAt, h.distributedAt]
  constructor
  · intro status t ht
    rw [(honly status t ht).2]
    exact Timestamp.le_refl _
  · intro status status' t t' hedge ht ht'
    rw [(honly status t ht).2, (honly status' t' ht').2]
    exact Timestamp.le_refl _

/-- A step at a time that is not before the stamps keeps them in order. -/
theorem Step.inOrder (h : a.Step time a') (ha : a.Stamped) (horder : a.InOrder time) :
    a'.InOrder time := by
  cases h with
  | kept => exact horder
  | @moved target edge =>
      have hpast : ∀ status t, (a.moved target time).enteredAt status = some t → t.le time := by
        intro status t ht
        rw [enteredAt_moved edge] at ht
        split at ht
        · rw [Option.some.inj ht]
          exact Timestamp.le_refl t
        · exact horder.past status t ht
      refine ⟨hpast, fun status status' t t' hnext ht ht' => ?_⟩
      have hto := hpast status t ht
      rw [enteredAt_moved edge] at ht ht'
      split at ht'
      · rw [← Option.some.inj ht']
        exact hto
      · split at ht
        · next hfrom =>
          -- What follows the status that is entered now was not entered before.
          have hrank := AssetStatus.rank_lt_of_mem_next edge
          have hrank' := AssetStatus.rank_lt_of_mem_next hnext
          rw [hfrom] at hrank'
          rw [ha.enteredAt_eq_none (hrank.trans hrank')] at ht'
          cases ht'
        · exact horder.along status status' t t' hnext ht ht'
  | edited row =>
      constructor
      · rw [row.enteredAt]
        exact horder.past
      · rw [row.enteredAt]
        exact horder.along

end Asset

/-! ## One change -/

/-- A payout moves the assets on its list. -/
theorem PaidOut.asset? {time : Timestamp} {vaultId : Uuid} {ids : List Uuid} {s s' : Store}
    (h : PaidOut time vaultId ids s s') (id : Uuid) :
    s'.asset? id = (s.asset? id).map fun a =>
      if id ∈ ids then a.moved .distributed time else a := by
  induction h with
  | nil s => simp
  | @cons a rest s s' found owner locked others ih =>
      rw [ih, Store.asset?_putAsset, Asset.id_moved]
      by_cases hid : id = a.id
      · have hnodup := (PaidOut.cons found owner locked others).nodup
        have hrest : id ∉ rest := hid ▸ (List.nodup_cons.1 hnodup).1
        rw [if_pos hid, hid, found]
        simp [hid ▸ hrest]
      · simp [hid]

/-- Moving the assets of a vault does one step at most to each. -/
theorem Asset.step_held (vaultId : Uuid) (source target : AssetStatus) (time : Timestamp)
    (hedge : target ∈ source.next) (a : Asset) :
    a.Step time (if Asset.isHeld vaultId source a then a.moved target time else a) := by
  split
  · next hheld =>
    rw [Asset.isHeld_iff] at hheld
    exact .moved (hheld.2 ▸ hedge)
  · exact .kept

/-- Settling the assets of a vault does one step at most to each. -/
theorem Store.asset?_settleAssets (s : Store) (vaultId : Uuid) (target : VaultStage)
    (time : Timestamp) :
    ∃ f : Asset → Asset, (∀ a : Asset, a.Step time (f a)) ∧
      ∀ id, (s.settleAssets vaultId target time).asset? id = (s.asset? id).map f := by
  rw [settleAssets]
  split
  · exact ⟨_, Asset.step_held vaultId .pending .locked time (by decide),
      s.asset?_moveHeld vaultId .pending .locked time⟩
  · split
    · exact ⟨_, Asset.step_held vaultId .locked .released time (by decide),
        s.asset?_moveHeld vaultId .locked .released time⟩
    · exact ⟨id, fun _ => .kept, fun _ => Option.map_id_apply.symm⟩

/-- Every asset that is found goes on by a step, and one that was not there before
was recorded now. -/
structure Store.AssetsGoOn (c : Context) (s s' : Store) : Prop where
  later : ∀ {id a}, s.asset? id = some a → ∃ a', s'.asset? id = some a' ∧ a.Step c.now a'
  new : ∀ {id a}, s.asset? id = none → s'.asset? id = some a → a.Recorded c s

namespace Store.AssetsGoOn

variable {c : Context} {s s' : Store}

theorem of_eq (h : s'.assets = s.assets) : AssetsGoOn c s s' where
  later {_ a} ha := ⟨a, by rw [asset?, h]; exact ha, .kept⟩
  new hnone ha := by
    rw [asset?, h] at ha
    rw [asset?, ha] at hnone
    cases hnone

/-- One row is written. -/
theorem of_rowWrite
    (h : RowWrite Asset.id (Asset.Recorded c s) (Asset.Step c.now) s.assets s'.assets) :
    AssetsGoOn c s s' where
  later := h.later fun _ => .kept
  new := h.new_of_none

/-- Every row is changed in place. -/
theorem of_map {f : Asset → Asset} (h : ∀ id, s'.asset? id = (s.asset? id).map f)
    (hstep : ∀ id a, s.asset? id = some a → a.Step c.now (f a)) : AssetsGoOn c s s' where
  later {id a} ha := ⟨f a, by rw [h, ha, Option.map_some], hstep id a ha⟩
  new hnone ha := by
    rw [h, hnone] at ha
    cases ha

theorem of_paidOut {vaultId : Uuid} {ids : List Uuid} (h : PaidOut c.now vaultId ids s s') :
    AssetsGoOn c s s' where
  later {id a} ha := by
    refine ⟨_, by rw [h.asset?, ha, Option.map_some], ?_⟩
    split
    · next hid =>
      obtain ⟨b, hb, -, hlocked⟩ := h.locked id hid
      obtain rfl := Option.some.inj (ha.symm.trans hb)
      exact .moved (Asset.distributed_mem_next.2 hlocked)
    · exact .kept
  new hnone ha := by
    rw [h.asset?, hnone] at ha
    cases ha

/-- An asset of the second store was recorded now, or goes on from one of the first. -/
theorem mem (h : s.AssetsGoOn c s') (hs : s'.Numbered) {a' : Asset} (ha' : a' ∈ s'.assets) :
    a'.Recorded c s ∨ ∃ a ∈ s.assets, a.Step c.now a' := by
  have hfound := hs.asset?_of_mem ha'
  cases hold : s.asset? a'.id with
  | none => exact .inl (h.new hold hfound)
  | some a =>
      obtain ⟨_, hlater, hstep⟩ := h.later hold
      obtain rfl := Option.some.inj (hfound.symm.trans hlater)
      exact .inr ⟨a, List.mem_of_find?_eq_some hold, hstep⟩

end Store.AssetsGoOn

/-- To every asset a change does one step at most. -/
theorem Change.assets {c : Context} {s s' : Store} (h : Change c s s') :
    s.AssetsGoOn c s' := by
  obtain ⟨op, h⟩ := h
  cases h with
  | @vaultAdvanced op v target reason found edge ready =>
      obtain ⟨f, hstep, hsettled⟩ :=
        (s.putVault (v.entered target reason c.now)).asset?_settleAssets
        v.id target c.now
      exact .of_map hsettled fun _ a _ => hstep a
  | assetAdded row => exact .of_rowWrite (.added row)
  | assetMoved found edge =>
      exact .of_rowWrite (.replaced found (Asset.id_moved _ _ _) (.moved edge))
  | assetsMoved vaultId step =>
      exact .of_map (s.asset?_moveHeld _ _ _ _) fun _ a _ => Asset.step_held _ _ _ _ step.edge a
  | assetsPaidOut paid => exact .of_paidOut paid
  | assetEdited found row =>
      exact .of_rowWrite (.replaced found (Asset.Follows.of_edited row).id (.edited row))
  | proposalMoved found step moved =>
      cases moved with
      | executed status vault effect =>
          cases effect with
          | distribution type script read paid => exact { Store.AssetsGoOn.of_paidOut paid with }
          | termination type stage => exact .of_eq rfl
          | none type => exact .of_eq rfl
      | _ => exact .of_eq rfl
  | _ => exact .of_eq rfl

/-! ## Runs -/

theorem storeAfter_stamped (calls : List Call) : ∀ a ∈ (storeAfter calls).assets, a.Stamped := by
  refine storeAfter_numbered_invariant (P := fun s => ∀ a ∈ s.assets, a.Stamped) (by simp) ?_ calls
  intro c s s' hs hstamped hc a' ha'
  rcases hc.assets.mem (hc.numbered hs) ha' with hnew | ⟨a, ha, hstep⟩
  · exact hnew.stamped
  · exact hstep.stamped (hstamped a ha)

/-- The clock of a run never goes back. -/
def ClockAdvances (calls : List Call) : Prop :=
  calls.Pairwise fun k k' => k.context.now.le k'.context.now

/-- Where the clock never goes back, the stamps are in order. -/
theorem storeAfter_inOrder {calls : List Call} (hclock : ClockAdvances calls) {now : Timestamp}
    (hnow : ∀ k ∈ calls, k.context.now.le now) :
    ∀ a ∈ (storeAfter calls).assets, a.InOrder now := by
  induction calls using List.reverseRecOn generalizing now with
  | nil => simp [storeAfter]
  | append_singleton calls k ih =>
      intro a' ha'
      obtain ⟨hclock, -, hlast⟩ := List.pairwise_append.1 hclock
      have hbefore := ih hclock fun k' hk' => hlast k' hk' k (List.mem_singleton.2 rfl)
      refine Asset.InOrder.mono ?_ (hnow k (by simp))
      have hassets := (change_storeAfter calls k).assets
      rcases hassets.mem (storeAfter_numbered (calls ++ [k])) ha' with hnew | ⟨a, ha, hstep⟩
      · exact hnew.inOrder
      · exact hstep.inOrder (storeAfter_stamped calls a ha) (hbefore a ha)

/-! ## The trail of an asset -/

namespace Asset

/-- The status of an asset in a store. -/
def statusIn (id : Uuid) (s : Store) : Option AssetStatus := (s.asset? id).map (·.status)

/-- The statuses that a run shows for an asset. -/
def statuses (id : Uuid) (calls : List Call) : List AssetStatus :=
  (World.trail (statusIn id) {} calls).map Prod.snd

/-- A call of a run brought an asset into a status at a point in time. -/
def EntersAt (id : Uuid) (status : AssetStatus) (time : Timestamp) (calls : List Call) : Prop :=
  ∃ earlier k later, calls = earlier ++ k :: later ∧ k.context.now = time ∧
    statusIn id (storeAfter earlier) ≠ some status ∧
    statusIn id (storeAfter (earlier ++ [k])) = some status

variable {id : Uuid} {a : Asset}

/-- A call leaves the status of an asset or moves it along the table. -/
theorem statusIn_called (w : World) (k : Call) {status : AssetStatus}
    (h : statusIn id w.store = some status) :
    ∃ status', statusIn id (w.called k).store = some status' ∧
      (status' = status ∨ status' ∈ status.next) := by
  obtain ⟨a, ha, rfl⟩ := Option.map_eq_some_iff.1 h
  obtain ⟨a', ha', hstep⟩ := (World.change_called w k).assets.later ha
  exact ⟨a'.status, by rw [statusIn, ha', Option.map_some], hstep.status⟩

theorem head?_statuses {calls : List Call} {status : AssetStatus}
    (h : (statuses id calls).head? = some status) : status = .pending := by
  rw [statuses, List.head?_map] at h
  obtain ⟨⟨k, _⟩, hhead, rfl⟩ := Option.map_eq_some_iff.1 h
  obtain ⟨earlier, later, a, -, hnone, ha, rfl⟩ := World.head?_trail_row (by rfl) hhead
  exact ((change_storeAfter earlier k).assets.new hnone ha).status

theorem isChain_statuses (id : Uuid) (calls : List Call) :
    (statuses id calls).IsChain fun a b => b = a ∨ b ∈ a.next := by
  rw [statuses, List.isChain_map]
  exact World.isChain_trail (R := fun _ a b => b = a ∨ b ∈ a.next)
    (fun w k _ h => statusIn_called w k h) {} calls

/-- Whatever a row says of when a status was entered, a call of the run entered it
then. -/
theorem entersAt_of_enteredAt {calls : List Call} (ha : (storeAfter calls).asset? id = some a)
    {status : AssetStatus} {time : Timestamp} (ht : a.enteredAt status = some time) :
    EntersAt id status time calls := by
  obtain ⟨earlier, k, later, rfl, hbefore, b', hb', hstamp⟩ :=
    World.exists_call (P := fun s => ∃ b, s.asset? id = some b ∧ b.enteredAt status = some time)
      (w := {}) (by rintro ⟨b, hb, -⟩; cases hb) ⟨a, ha, ht⟩
  refine ⟨earlier, k, later, rfl, ?_⟩
  have hc := change_storeAfter earlier k
  have hstatus : statusIn id (storeAfter (earlier ++ [k])) = some b'.status := by
    rw [statusIn, storeAfter, hb', Option.map_some]
  cases hb : (storeAfter earlier).asset? id with
  | none =>
      have hnew := hc.assets.new hb hb'
      have hnow : time = k.context.now ∧ status = .pending := by
        cases status <;>
          simp_all [enteredAt, hnew.createdAt, hnew.lockedAt, hnew.releasedAt, hnew.distributedAt]
      obtain ⟨rfl, rfl⟩ := hnow
      refine ⟨rfl, ?_, by rw [hstatus, hnew.status]⟩
      rw [statusIn, hb]
      simp
  | some b =>
      obtain ⟨_, hlater, hstep⟩ := hc.assets.later hb
      obtain rfl := Option.some.inj (hb'.symm.trans hlater)
      rcases hstep.entered hstamp with hold | ⟨rfl, hfrom, hto⟩
      · exact absurd ⟨b, hb, hold⟩ hbefore
      · refine ⟨rfl, ?_, by rw [hstatus, hto]⟩
        rw [statusIn, hb, Option.map_some]
        simpa using hfrom

/-- A stamp that was written stays however the run goes on. -/
theorem enteredAt_after {earlier : List Call} (ha : (storeAfter earlier).asset? id = some a)
    {status : AssetStatus} {time : Timestamp} (ht : a.enteredAt status = some time)
    (later : List Call) :
    ∃ a', (storeAfter (earlier ++ later)).asset? id = some a' ∧
      a'.enteredAt status = some time := by
  induction later using List.reverseRecOn with
  | nil => exact ⟨a, by rw [List.append_nil]; exact ha, ht⟩
  | append_singleton later k ih =>
      obtain ⟨b, hb, hstamp⟩ := ih
      rw [← List.append_assoc]
      obtain ⟨b', hb', hstep⟩ := (change_storeAfter (earlier ++ later) k).assets.later hb
      have hstamped := storeAfter_stamped (earlier ++ later) b (List.mem_of_find?_eq_some hb)
      exact ⟨b', hb', hstep.enteredAt_later hstamped hstamp⟩

end Asset

/-- The life of an asset in a run.  Its statuses begin with pending and follow the
path from there to locked and on to released or distributed.  It has the stamps of
exactly the statuses that it has entered; each of them is the time of a call of the
run that brought the asset into that status, and stays however the run goes on, as
the vault and the origin do.  Where the clock never goes back, the stamps are in
order.  Writing the origin of an asset directly changes nothing. -/
theorem asset_lifecycle (calls : List Call) (id : Uuid) :
    let statuses := Asset.statuses id calls
    (∀ status, statuses.head? = some status → status = .pending) ∧
      statuses.IsChain (fun a b => b = a ∨ a = .pending ∧ b = .locked ∨
        a = .locked ∧ (b = .released ∨ b = .distributed)) ∧
      (∀ a, (storeAfter calls).asset? id = some a →
        (a.lockedAt ≠ none ↔ a.status ≠ .pending) ∧
          (a.releasedAt ≠ none ↔ a.status = .released) ∧
          (a.distributedAt ≠ none ↔ a.status = .distributed) ∧
          (∀ status time, a.enteredAt status = some time →
            Asset.EntersAt id status time calls) ∧
          (∀ earlier later u, calls = earlier ++ later →
            (storeAfter earlier).asset? id = some u →
            a.vaultId = u.vaultId ∧ a.origin = u.origin ∧
              ∀ status time, u.enteredAt status = some time → a.enteredAt status = some time) ∧
          (ClockAdvances calls → ∀ time, a.lockedAt = some time → a.createdAt.le time ∧
            ∀ time', a.releasedAt = some time' ∨ a.distributedAt = some time' →
              time.le time')) ∧
      ∀ c w, (Action.transaction (Asset.writeOrigin id) c w).2.store = w.store := by
  intro statuses
  refine ⟨fun status h => Asset.head?_statuses h, ?_, ?_, ?_⟩
  · refine (Asset.isChain_statuses id calls).imp fun a b h => ?_
    rw [← AssetStatus.mem_next_iff]
    exact h
  · intro a ha
    have hmem := List.mem_of_find?_eq_some ha
    have hstamped := storeAfter_stamped calls a hmem
    refine ⟨hstamped.locked, hstamped.released, hstamped.distributed,
      fun status time ht => Asset.entersAt_of_enteredAt ha ht, ?_, ?_⟩
    · rintro earlier later u rfl hu
      obtain ⟨a', ha', hf⟩ := (storeAfter_before earlier later).assets hu
      obtain rfl := Option.some.inj (ha.symm.trans ha')
      refine ⟨hf.vaultId, hf.origin, fun status time ht => ?_⟩
      obtain ⟨_, hfound, hstamp⟩ := Asset.enteredAt_after hu ht later
      obtain rfl := Option.some.inj (ha.symm.trans hfound)
      exact hstamp
    · intro hclock time htime
      obtain ⟨now, hnow⟩ := Timestamp.exists_latest (calls.map (·.context.now))
      have horder := storeAfter_inOrder hclock (List.forall_mem_map.1 hnow) a hmem
      refine ⟨horder.along .pending .locked _ _ (by decide) rfl htime, ?_⟩
      rintro time' (htime' | htime')
      · exact horder.along .locked .released _ _ (by decide) htime htime'
      · exact horder.along .locked .distributed _ _ (by decide) htime htime'
  · intro c w
    simp only [Action.transaction, Asset.writeOrigin, Asset.find, Action.bind_eq, Action.andThen,
      Action.store]
    cases w.store.asset? id <;> rfl

/-- The asset of an executed distribution, under a clock that never goes back. -/
theorem asset_lifecycle_of_sample :
    let calls := Sample.opening ++ Sample.voting ++ Sample.closing
    let a := (storeAfter calls).assets.headD default
    (Asset.statuses Sample.assetId calls).dedup = [.pending, .locked, .distributed] ∧
      a.releasedAt = none ∧
      Asset.EntersAt Sample.assetId .distributed ⟨17 * Timestamp.second⟩ calls ∧
      a.createdAt.le ⟨8 * Timestamp.second⟩ ∧
      Timestamp.le ⟨8 * Timestamp.second⟩ ⟨17 * Timestamp.second⟩ := by
  intro calls a
  have ha : (storeAfter calls).asset? Sample.assetId = some a := by decide +kernel
  have hlocked : a.lockedAt = some ⟨8 * Timestamp.second⟩ := by decide +kernel
  have hpaid : a.distributedAt = some ⟨17 * Timestamp.second⟩ := by decide +kernel
  have hclock : ClockAdvances calls := by unfold ClockAdvances; decide +kernel
  obtain ⟨-, -, hrow, -⟩ := asset_lifecycle calls Sample.assetId
  obtain ⟨-, hreleased, -, hentered, -, horder⟩ := hrow a ha
  have hstatus : a.status ≠ .released := by decide +kernel
  obtain ⟨hcreated, hleft⟩ := horder hclock _ hlocked
  exact ⟨by decide +kernel, not_not.1 fun hne => hstatus (hreleased.1 hne),
    hentered .distributed _ hpaid, hcreated, hleft _ (.inr hpaid)⟩

end VaultGovernance
