import VaultGovernance.Proofs.Change.Run
import VaultGovernance.Proofs.Conversion

/-!
# VaultGovernance.Proofs.Backfill

Many reads and backfills, one after the other.  Each of them leaves some claims as they
are and normalizes others (`Store.Visited`), a claim is normalized at most once, and the
amounts that it takes do not depend on when.  So reads and backfills may be interleaved
in any way before a last full backfill.
-/

namespace VaultGovernance

open VaultGovernance.Action

/-! ## Visited claims -/

/-- Some claims of the first store were normalized in the second, the others are as they
were. -/
def Store.Visited (s s' : Store) : Prop :=
  ∃ f : Claim → Claim, s'.claims = s.claims.map f ∧
    ∀ x, f x = x ∨ ∃ time, f x = x.normalized time

namespace Store.Visited

variable {s s' s'' : Store}

theorem refl (s : Store) : s.Visited s :=
  ⟨fun x => x, (List.map_id' _).symm, fun _ => .inl rfl⟩

theorem trans (h : s.Visited s') (h' : s'.Visited s'') : s.Visited s'' := by
  obtain ⟨f, hf, hfx⟩ := h
  obtain ⟨g, hg, hgx⟩ := h'
  refine ⟨g ∘ f, by rw [hg, hf, List.map_map], fun x => ?_⟩
  rw [Function.comp_apply]
  rcases hfx x with hsame | ⟨time, hnormalized⟩
  · rw [hsame]
    exact hgx x
  · rw [hnormalized]
    rcases hgx (x.normalized time) with hsame | ⟨time', hagain⟩
    · exact .inr ⟨time, hsame⟩
    · exact .inr ⟨time, hagain.trans (Claim.normalized_normalized time time')⟩

/-- Normalizing some of the claims at one time. -/
theorem of_map (p : Claim → Prop) [DecidablePred p] {time : Timestamp}
    (h : s'.claims = s.claims.map fun x => if p x then x.normalized time else x) :
    s.Visited s' := by
  refine ⟨_, h, fun x => ?_⟩
  by_cases hx : p x
  · exact .inr ⟨time, if_pos hx⟩
  · exact .inl (if_neg hx)

theorem map_id (h : s.Visited s') : s'.claims.map Claim.id = s.claims.map Claim.id := by
  obtain ⟨f, hf, hfx⟩ := h
  rw [hf, List.map_map]
  refine List.map_congr_left fun x _ => ?_
  rw [Function.comp_apply]
  rcases hfx x with hsame | ⟨time, hnormalized⟩
  · rw [hsame]
  · rw [hnormalized, Claim.id_normalized]

/-- A claim that still carries a legacy key is as it was. -/
theorem mem_of_needs (h : s.Visited s') {x : Claim} (hx : x ∈ s'.claims)
    (hneeds : x.needsNormalization = true) : x ∈ s.claims := by
  obtain ⟨f, hf, hfx⟩ := h
  rw [hf] at hx
  obtain ⟨y, hy, rfl⟩ := List.mem_map.1 hx
  rcases hfx y with hsame | ⟨time, hnormalized⟩
  · rwa [hsame]
  · rw [hnormalized] at hneeds ⊢
    rwa [Claim.normalized_eq_of_needs hneeds]

end Store.Visited

/-- The operations that normalize claims: reading one, and backfills. -/
def Operation.Normalizes : Operation → Prop
  | getClaim _ => True
  | normalizeClaims _ _ => True
  | _ => False

/-- Reading a claim and any backfill visit claims; where they fail they do nothing. -/
theorem World.visited_called {w : World} (hs : (w.store.claims.map Claim.id).Nodup) {k : Call}
    (hk : k.operation.Normalizes) : w.store.Visited (w.called k).store := by
  obtain ⟨c, op⟩ := k
  rw [called]
  rcases hrun : transaction op.action c w with ⟨e | u, w'⟩
  · rw [store_of_transaction_error hrun]
    exact .refl _
  · rw [transaction_eq_ok] at hrun
    cases op with
    | getClaim id =>
        obtain ⟨x, hget⟩ := discarded_eq_ok.1 hrun
        obtain ⟨y, -, -, hw⟩ := Claim.get_effect hs hget
        exact .of_map (fun z => z = y) (by rw [hw])
    | normalizeClaims limit dryRun =>
        obtain ⟨stats, hbackfill⟩ := discarded_eq_ok.1 hrun
        cases dryRun with
        | true =>
            rw [Claim.backfill_dryRun (Claim.legible_of_backfill hbackfill), Prod.mk.injEq]
              at hbackfill
            rw [← hbackfill.2]
            exact .refl _
        | false =>
            obtain ⟨-, -, -, hw⟩ := Claim.backfill_effect hs hbackfill
            exact .of_map (fun x => x ∈ Claim.window limit w.store) (by rw [hw])
    | _ => exact hk.elim

/-- Reads and backfills in any order visit claims. -/
theorem World.visited_after {w : World} (hs : (w.store.claims.map Claim.id).Nodup)
    {calls : List Call} (hcalls : ∀ k ∈ calls, k.operation.Normalizes) :
    w.store.Visited (w.after calls).store := by
  induction calls generalizing w with
  | nil => exact .refl _
  | cons k calls ih =>
      obtain ⟨hk, hcalls⟩ := List.forall_mem_cons.1 hcalls
      have hvisited := visited_called hs hk
      exact hvisited.trans (ih (hvisited.map_id ▸ hs) hcalls)

/-- A backfill with a result, as a call. -/
theorem World.called_backfill {c : Context} {w w' : World} {limit : Option Int} {dryRun : Bool}
    {stats : Claim.BackfillStats} (h : Claim.backfill limit dryRun c w = (.ok stats, w')) :
    w.called ⟨c, .normalizeClaims limit dryRun⟩ = w' := called_of_ok rfl h

/-! ## Full backfills -/

namespace Claim

variable {c : Context} {w w' : World} {stats : BackfillStats}

/-- Without a limit the window holds every claim with a legacy key. -/
theorem mem_window_none {s : Store} {x : Claim} :
    x ∈ window none s ↔ x ∈ s.claims ∧ x.needsNormalization = true := by
  change x ∈ (byAge s.claims).filter needsNormalization ↔ _
  rw [List.mem_filter, mem_byAge]

/-- A full backfill with a result normalizes every claim. -/
theorem claims_of_full_backfill (hs : (w.store.claims.map Claim.id).Nodup)
    (h : backfill none false c w = (.ok stats, w')) :
    w'.store.claims = w.store.claims.map fun x => x.normalized c.now := by
  obtain ⟨-, -, -, hw⟩ := backfill_effect hs h
  rw [hw]
  refine List.map_congr_left fun x hx => ?_
  split
  · rfl
  · next hout =>
    have hlegacy : x.needsNormalization = false := by
      simpa [mem_window_none, hx] using hout
    exact (normalized_of_not_needs hlegacy).symm

/-- A full backfill has a result exactly where no claim has a fault but refusals. -/
theorem legible_and_regular_iff {s : Store} :
    (s.Legible ∧ ∀ x ∈ window none s, x.Regular) ↔ ∀ x ∈ s.claims, x.Regular := by
  constructor
  · rintro ⟨hlegible, hwindow⟩ x hx
    cases hneeds : x.needsNormalization with
    | true => exact hwindow x (mem_window_none.2 ⟨hx, hneeds⟩)
    | false => exact .inl ⟨none, outcome_eq_none_iff.2 ⟨hlegible x hx, hneeds⟩⟩
  · intro hall
    exact ⟨fun x hx => (hall x hx).legible, fun x hx => hall x (mem_window_none.1 hx).1⟩

/-- A backfill of claims that have no fault but refusals has a result. -/
theorem backfill_of_regular (limit : Option Int) (h : ∀ x ∈ w.store.claims, x.Regular) :
    ∃ stats w', backfill limit false c w = (.ok stats, w') :=
  backfill_total (fun x hx => (h x hx).legible) fun x hx => h x (mem_claims_of_mem_window hx).1

/-- Where no claim has a fault but refusals after claims were visited, none had one before. -/
theorem regular_of_visited {s s' : Store} (h : s.Visited s')
    (hall : ∀ x ∈ s'.claims, x.Regular) : ∀ x ∈ s.claims, x.Regular := by
  obtain ⟨f, hf, hfx⟩ := h
  intro x hx
  rcases x.normalized_cases with ⟨k, hk, -⟩ | hkept
  · exact .inl ⟨_, hk⟩
  · have hsame : f x = x := by
      rcases hfx x with hsame | ⟨time, hnormalized⟩
      · exact hsame
      · rw [hnormalized, hkept]
    refine hall x ?_
    rw [hf, ← hsame]
    exact List.mem_map_of_mem hx

end Claim

/-- A call fails, if at all, because a legacy amount is no number. -/
def Call.FailsOnAmountsOnly (k : Call) (w : World) : Prop :=
  ∀ e, (transaction k.operation.action k.context w).1 = .error e →
    ∃ claimId key value, e = .refusal (.invalidClaimAmount claimId key value)

/-- A full backfill that fails on amounts only does not fail: it reports them. -/
theorem Claim.full_backfill_total {c : Context} {w : World}
    (h : Call.FailsOnAmountsOnly ⟨c, .normalizeClaims none false⟩ w) :
    ∃ stats w', backfill none false c w = (.ok stats, w') := by
  rcases hrun : backfill none false c w with ⟨e | stats, w'⟩
  · have haction : (Operation.normalizeClaims none false).action c w = (.error e, w') :=
      andThen_of_error hrun
    obtain ⟨claimId, key, value, he⟩ := h e.atCommit (by rw [transaction, haction])
    have hne : ∀ d, e ≠ .refusal d := by
      rintro d rfl
      exact neverRefuses_backfill false d (congrArg Prod.fst hrun)
    cases e with
    | refusal d => exact absurd rfl (hne d)
    | _ => cases he
  · exact ⟨stats, w', rfl⟩

/-- Visiting claims gives none of them a fault. -/
theorem Store.Visited.regular {s s' : Store} (h : s.Visited s')
    (hregular : ∀ x ∈ s.claims, x.Regular) : ∀ x ∈ s'.claims, x.Regular := by
  obtain ⟨f, hf, hfx⟩ := h
  rw [hf, List.forall_mem_map]
  intro x hx
  rcases hfx x with hsame | ⟨time, hnormalized⟩
  · rw [hsame]
    exact hregular x hx
  · rw [hnormalized]
    rcases x.normalized_cases with ⟨k, hk, hsome⟩ | hsame
    · exact .inl ⟨none, hsome time ▸ Claim.outcome_taking hk⟩
    · rw [hsame]
      exact hregular x hx

/-- A backfill of claims that have no fault but refusals does not fail. -/
theorem Call.failsOnAmountsOnly_of_regular {w : World} (h : ∀ x ∈ w.store.claims, x.Regular)
    (c : Context) (limit : Option Int) :
    Call.FailsOnAmountsOnly ⟨c, .normalizeClaims limit false⟩ w := by
  obtain ⟨stats, w', hrun⟩ := Claim.backfill_of_regular (c := c) limit h
  have haction : transaction (Operation.normalizeClaims limit false).action c w = (.ok (), w') :=
    transaction_eq_ok.2 (discarded_eq_ok.2 ⟨stats, hrun⟩)
  intro e he
  rw [haction] at he
  cases he

/-- Reading claims and backfills of any kind, in any order and with any failures, do not
change what a full backfill makes of the claims: if it has no failure of another kind at
the end, it had none at the beginning, and every claim ends up with the same amounts,
multiplier and metadata. -/
theorem lazy_and_eager_normalization_agree {w : World}
    (distinct : (w.store.claims.map Claim.id).Nodup) {calls : List Call}
    (normalizing : ∀ k ∈ calls, k.operation.Normalizes) {last single : Context}
    (amountsOnly : Call.FailsOnAmountsOnly ⟨last, .normalizeClaims none false⟩ (w.after calls)) :
    let lazily := (w.after calls).called ⟨last, .normalizeClaims none false⟩
    let eagerly := w.called ⟨single, .normalizeClaims none false⟩
    (∃ stats, (Claim.backfill none false single w).1 = .ok stats) ∧
      lazily.store.claims.map (fun x => (x.id, x.amounts)) =
        eagerly.store.claims.map (fun x => (x.id, x.amounts)) := by
  intro lazily eagerly
  have hvisited := World.visited_after distinct normalizing
  have hdistinct : ((w.after calls).store.claims.map Claim.id).Nodup :=
    hvisited.map_id ▸ distinct
  obtain ⟨stats, w', hlast⟩ := Claim.full_backfill_total amountsOnly
  have hregular := Claim.legible_and_regular_iff.1
    ((Claim.backfill_total_iff hdistinct).1 ⟨stats, w', hlast⟩)
  obtain ⟨stats', w'', hsingle⟩ := Claim.backfill_of_regular (c := single) none
    (Claim.regular_of_visited hvisited hregular)
  refine ⟨⟨stats', congrArg Prod.fst hsingle⟩, ?_⟩
  obtain ⟨f, hf, hfx⟩ := hvisited
  have hlazily : lazily = w' := World.called_backfill hlast
  have heagerly : eagerly = w'' := World.called_backfill hsingle
  rw [hlazily, heagerly, Claim.claims_of_full_backfill hdistinct hlast,
    Claim.claims_of_full_backfill distinct hsingle, hf]
  simp only [List.map_map]
  refine List.map_congr_left fun x _ => ?_
  simp only [Function.comp_apply, Claim.id_normalized, Prod.mk.injEq]
  rcases hfx x with hsame | ⟨time, hnormalized⟩
  · rw [hsame]
    exact ⟨rfl, Claim.amounts_normalized _ _⟩
  · rw [hnormalized, Claim.normalized_normalized, Claim.id_normalized]
    exact ⟨rfl, Claim.amounts_normalized _ _⟩

namespace Sample

/-- A claim with legacy metadata. -/
def legacyClaim (second : Nat) (metadata : Json) : Claim where
  id := .ofSerial second
  userId := none
  vaultId := none
  kind := .lp
  status := .available
  amount := 0
  lovelaceAmount := none
  multiplier := none
  description := none
  metadata
  createdAt := ⟨second * Timestamp.second⟩
  updatedAt := none

/-- A claim whose amount is no number, and a younger one whose amount is. -/
def backlog : World where
  store :=
    { claims :=
        [legacyClaim 1 (.obj [(Claim.adaAmountKey, .str "abc")]),
          legacyClaim 2 (.obj [(Claim.adaAmountKey, .str "3"), ("note", .str "kept")])]
      serial := 2 }

theorem distinct_backlog : (backlog.store.claims.map Claim.id).Nodup := by decide +kernel

theorem regular_backlog : ∀ x ∈ backlog.store.claims, x.Regular := by
  simp only [backlog, List.forall_mem_cons]
  refine ⟨.inr (by decide +kernel), .inl ⟨some ⟨some 3000000, none, ?_⟩, ?_⟩, by simp⟩
  · exact .obj [("note", .str "kept")]
  · decide +kernel

/-- Both claims are read, the first one without success, and a backfill looks at the
older one. -/
def visits : List Call :=
  [call 3 (.getClaim (.ofSerial 1)), call 4 (.normalizeClaims (some 1) false),
    call 5 (.getClaim (.ofSerial 2)), call 6 (.getClaim (.ofSerial 2))]

end Sample

/-- Claims that are read before the full backfill. -/
theorem lazy_and_eager_normalization_agree_of_sample :
    let last := Sample.call 7 (.normalizeClaims none false)
    (∀ k ∈ Sample.visits, k.operation.Normalizes) ∧
      last.FailsOnAmountsOnly (Sample.backlog.after Sample.visits) ∧
      ((Sample.backlog.after Sample.visits).called last).store.claims.map
          (fun x => (x.id, x.amounts)) =
        (Sample.backlog.called last).store.claims.map fun x => (x.id, x.amounts) := by
  intro last
  have normalizing : ∀ k ∈ Sample.visits, k.operation.Normalizes := by
    simp [Sample.visits, Sample.call, Operation.Normalizes]
  have amountsOnly : last.FailsOnAmountsOnly (Sample.backlog.after Sample.visits) :=
    Call.failsOnAmountsOnly_of_regular ((World.visited_after Sample.distinct_backlog
      normalizing).regular Sample.regular_backlog) _ _
  exact ⟨normalizing, amountsOnly,
    (lazy_and_eager_normalization_agree Sample.distinct_backlog normalizing amountsOnly).2⟩

end VaultGovernance
