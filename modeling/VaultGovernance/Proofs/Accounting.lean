import VaultGovernance.Proofs.Progress

/-!
# VaultGovernance.Proofs.Accounting

What the account of a backfill adds up to.  Every claim with a legacy key, up to the
limit, is counted as normalized or reported with an error, and every claim without one is
counted as skipped (`Claim.BackfillStats.Accounts`).  A dry run counts the same claims
without converting them, so it needs them to be legible and nothing else.

A second full backfill finds only the claims that the first one reported, in the same
order and as they were (`Claim.window_after_full_backfill`), so it reports them once more.
-/

namespace VaultGovernance

open VaultGovernance.Action

namespace Claim

variable {c : Context} {w w' : World} {s : Store} {limit : Option Nat} {stats : BackfillStats}

/-! ## Counting the claims -/

/-- How many claims carry a legacy key. -/
def legacyIn (s : Store) : Nat := s.claims.countP needsNormalization

/-- How many claims carry no legacy key. -/
def cleanIn (s : Store) : Nat := s.claims.countP fun x => !x.needsNormalization

theorem length_candidates (s : Store) :
    ((byAge s.claims).filter needsNormalization).length = legacyIn s := by
  rw [← List.countP_eq_length_filter, legacyIn]
  exact (List.mergeSort_perm _ _).countP_eq _

theorem length_claims (s : Store) : s.claims.length = legacyIn s + cleanIn s := by
  rw [legacyIn, cleanIn, List.length_eq_countP_add_countP needsNormalization]
  simp

theorem skippedIn_eq (s : Store) : skippedIn s = cleanIn s := by
  have hsorted : (byAge s.claims).length = s.claims.length := List.length_mergeSort _
  rw [skippedIn, length_candidates, hsorted, length_claims]
  omega

/-- A window has as many claims as there are with a legacy key, but no more than the
limit. -/
theorem length_window (limit : Option Nat) (s : Store) :
    (window (limit.map Nat.cast) s).length = limit.elim (legacyIn s) (min · (legacyIn s)) := by
  cases limit with
  | none => exact length_candidates s
  | some n =>
      rw [Option.map_some, window_some, List.length_take, length_candidates]
      rfl

/-- The account of a backfill adds up: the claims that were normalized and those that were
reported are the ones with a legacy key, up to the limit, the skipped ones are those
without, and each error names another claim. -/
structure BackfillStats.Accounts (s : Store) (limit : Option Nat) (stats : BackfillStats) :
    Prop where
  looked : stats.normalizedCount + stats.errors.length =
    limit.elim (legacyIn s) (min · (legacyIn s))
  skipped : stats.skippedCount = cleanIn s
  named : ∀ e ∈ stats.errors, ∃ x ∈ s.claims, x.id = e.claimId ∧ x.needsNormalization = true
  apart : (stats.errors.map BackfillError.claimId).Nodup

/-! ## Dry runs and real runs -/

/-- Claims that were gone through are those that were converted and those that were
refused. -/
theorem length_convertible_add_refused {xs : List Claim}
    (h : ∀ x ∈ xs, x.isConvertible = true ∨ x.isRefused = true) :
    (xs.filter isConvertible).length + (xs.filter isRefused).length = xs.length := by
  have hrest : xs.filter isRefused = xs.filter fun x => !x.isConvertible := by
    refine List.filter_congr fun x hx => ?_
    cases hconv : x.isConvertible with
    | true => exact not_isRefused_of_isConvertible hconv
    | false => exact (h x hx).resolve_left (by simp [hconv])
  rw [hrest]
  exact (List.length_eq_length_filter_add isConvertible).symm

theorem accounts_dryRun (limit : Option Nat) (s : Store) :
    BackfillStats.Accounts s limit ⟨(window (limit.map Nat.cast) s).length, skippedIn s, []⟩ where
  looked := length_window limit s
  skipped := skippedIn_eq s
  named := by simp
  apart := List.nodup_nil

/-- The account of a backfill with a result adds up. -/
theorem accounts_of_backfill (distinct : (w.store.claims.map Claim.id).Nodup)
    (h : backfill (limit.map Nat.cast) false c w = (.ok stats, w')) :
    stats.Accounts w.store limit := by
  obtain ⟨hregular, hconverted, herrors, -⟩ := backfill_effect distinct h
  obtain ⟨-, _, _, -, -, hstats, -⟩ := backfill_eq_ok_iff.1 h
  have hcases : ∀ x ∈ window (limit.map Nat.cast) w.store,
      x.isConvertible = true ∨ x.isRefused = true := fun x hx =>
    ((hregular x hx).cases (mem_claims_of_mem_window hx).2).imp_left And.left
  have hreported : stats.errors.length =
      ((window (limit.map Nat.cast) w.store).filter isRefused).length := by
    rw [← List.length_map (f := BackfillError.claimId), herrors, List.length_map]
  have hsub : ((window (limit.map Nat.cast) w.store).filter isRefused).Sublist
      (byAge w.store.claims) :=
    List.filter_sublist.trans ((sublist_takeLimit _).trans List.filter_sublist)
  constructor
  · rw [hconverted, hreported, length_convertible_add_refused hcases, length_window]
  · rw [hstats, skippedIn_eq]
  · intro e he
    have hmem : e.claimId ∈ ((window (limit.map Nat.cast) w.store).filter isRefused).map Claim.id :=
      herrors ▸ List.mem_map_of_mem he
    obtain ⟨x, hx, hid⟩ := List.mem_map.1 hmem
    obtain ⟨hclaim, hneeds⟩ := mem_claims_of_mem_window (List.mem_of_mem_filter hx)
    exact ⟨x, hclaim, hid, hneeds⟩
  · rw [herrors]
    have hsorted : ((byAge w.store.claims).map Claim.id).Nodup :=
      ((List.mergeSort_perm _ _).map Claim.id).nodup_iff.2 distinct
    exact hsorted.sublist (hsub.map Claim.id)

/-- A dry run has a result exactly if all claims are legible, without an error, and changes
nothing either way. -/
theorem dryRun_total_iff (limit : Option Int) (c : Context) (w : World) :
    let dryRun := backfill limit true c w
    dryRun.2 = w ∧ (∀ dry, dryRun.1 = .ok dry → dry.errors = []) ∧
      ((∃ dry, dryRun.1 = .ok dry) ↔ w.store.Legible) := by
  by_cases hlegible : w.store.Legible
  · simp [backfill_dryRun hlegible, hlegible]
  · obtain ⟨e, he⟩ := exists_candidates_error hlegible
    simp [backfill_of_candidates_error he, hlegible]

/-- A backfill on its own has the results that one within a transaction has. -/
theorem runBackfill_eq_ok_iff {limit : Option Int} {dryRun : Bool} :
    runBackfill limit dryRun c w = (.ok stats, w') ↔
      backfill limit dryRun c w = (.ok stats, w') := by
  cases dryRun with
  | true =>
      obtain ⟨hw, -⟩ := dryRun_total_iff limit c w
      have hsame : rolledBack (backfill limit true) c w = backfill limit true c w := by
        rw [rolledBack]
        generalize backfill limit true c w = run at hw ⊢
        obtain ⟨r, w'⟩ := run
        obtain rfl : w' = w := hw
        rfl
      rw [runBackfill, if_pos rfl, hsame]
  | false => exact transaction_eq_ok

/-! ## A second run -/

/-- Of claims that were gone through, the refused ones give the same errors by
themselves. -/
theorem convertAll_refused {xs : List Claim} {converted : List (Claim × Amounts)}
    {errors : List BackfillError} (hxs : ∀ x ∈ xs, x.Legible)
    (h : convertAll xs = .ok (converted, errors)) :
    convertAll (xs.filter isRefused) = .ok ([], errors) := by
  induction xs generalizing converted errors with
  | nil =>
      obtain ⟨rfl, rfl⟩ := Prod.mk.inj (Except.ok.inj h)
      rfl
  | cons x xs ih =>
      obtain ⟨hx, hxs⟩ := List.forall_mem_cons.1 hxs
      have hconversion := conversion_of_loads hx.loads
      rw [convertAll] at h
      split at h
      · next a ha =>
        simp only [bind_eq_ok, pure_eq_ok, Prod.mk.injEq] at h
        obtain ⟨⟨converted', errors'⟩, hrest, rfl, rfl⟩ := h
        have hkept : x.isRefused = false := by simp [isRefused, hconversion, ha]
        rw [List.filter_cons_of_neg (by simp [hkept])]
        exact ih hxs hrest
      · next e he =>
        simp only [bind_eq_ok, pure_eq_ok, Prod.mk.injEq] at h
        obtain ⟨⟨converted', errors'⟩, hrest, rfl, rfl⟩ := h
        have hrefused : x.isRefused = true := isRefused_iff.2 ⟨e, hconversion.trans he⟩
        rw [List.filter_cons_of_pos hrefused, convertAll, he, ih hxs hrest]
        rfl
      · cases h

/-- Normalizing claims does not change their order. -/
theorem byAge_normalized (xs : List Claim) (time : Timestamp) :
    byAge (xs.map fun x => x.normalized time) = (byAge xs).map fun x => x.normalized time := by
  have hkey (x : Claim) : (x.normalized time).createdAt = x.createdAt := by
    cases x.normalized_cases with
    | inl h =>
        obtain ⟨k, -, hk⟩ := h
        rw [hk]
        rfl
    | inr hsame => rw [hsame]
  refine (List.map_mergeSort fun x _ y _ => ?_).symm
  simp only [hkey, id_normalized]

/-- A claim without a fault carries a legacy key after normalizing only if it was
refused. -/
theorem needs_normalized {x : Claim} {time : Timestamp} (h : x.Regular) :
    (x.normalized time).needsNormalization = x.isRefused := by
  cases hrefused : x.isRefused with
  | true => rw [normalized_of_isRefused hrefused, needs_of_isRefused hrefused]
  | false =>
      cases hneeds : x.needsNormalization with
      | false =>
          rw [normalized_of_not_needs hneeds, hneeds]
      | true =>
          obtain ⟨-, k, hk⟩ := (h.cases hneeds).resolve_right (by simp [hrefused])
          rw [normalized_of_some hk]
          exact not_needs_taking hk

/-- A full backfill with a result found no claim with a fault but refusals, and leaves
none. -/
theorem regular_of_full_backfill (distinct : (w.store.claims.map Claim.id).Nodup)
    (h : backfill none false c w = (.ok stats, w')) :
    (∀ x ∈ w.store.claims, x.Regular) ∧ ∀ x ∈ w'.store.claims, x.Regular := by
  obtain ⟨hwindow, -, -, hw⟩ := backfill_effect distinct h
  have hbefore := legible_and_regular_iff.1 ⟨legible_of_backfill h, hwindow⟩
  have hvisited : w.store.Visited w'.store :=
    .of_map (fun x => x ∈ window none w.store) (by rw [hw])
  exact ⟨hbefore, hvisited.regular hbefore⟩

/-- After a full backfill the claims with a legacy key are those that were refused, in the
same order and as they were. -/
theorem window_after_full_backfill (distinct : (w.store.claims.map Claim.id).Nodup)
    (h : backfill none false c w = (.ok stats, w')) :
    window none w'.store = (window none w.store).filter isRefused := by
  have hall : ∀ x ∈ byAge w.store.claims, x.Regular := fun x hx =>
    (regular_of_full_backfill distinct h).1 x (mem_byAge.1 hx)
  have hrefused : (window none w.store).filter isRefused =
      (byAge w.store.claims).filter isRefused := by
    change List.filter _ (List.filter _ _) = _
    rw [List.filter_filter]
    refine List.filter_congr fun x _ => ?_
    cases hx : x.isRefused with
    | true => simp [needs_of_isRefused hx]
    | false => rfl
  calc window none w'.store
      = ((byAge w.store.claims).map fun x => x.normalized c.now).filter needsNormalization := by
        rw [← byAge_normalized, ← claims_of_full_backfill distinct h]
        rfl
    _ = ((byAge w.store.claims).filter isRefused).map fun x => x.normalized c.now := by
        rw [List.filter_map]
        congr 1
        exact List.filter_congr fun x hx => needs_normalized (hall x hx)
    _ = (byAge w.store.claims).filter isRefused := by
        refine (List.map_congr_left fun x hx => ?_).trans (List.map_id' _)
        exact normalized_of_isRefused (List.mem_filter.1 hx).2
    _ = (window none w.store).filter isRefused := hrefused.symm

/-- A second full backfill normalizes nothing, reports the same claims with the same errors,
and skips what the first one normalized as well. -/
theorem backfill_again (distinct : (w.store.claims.map Claim.id).Nodup)
    (h : backfill none false c w = (.ok stats, w')) (c' : Context) :
    backfill none false c' w' =
      (.ok ⟨0, stats.skippedCount + stats.normalizedCount, stats.errors⟩, w') := by
  have hwindow := window_after_full_backfill distinct h
  have haccounts : stats.Accounts w.store none := accounts_of_backfill distinct h
  obtain ⟨hbefore, _, _, hconverted, -⟩ := backfill_eq_ok_iff.1 h
  have hafter : w'.store.Legible := fun x hx =>
    ((regular_of_full_backfill distinct h).2 x hx).legible
  have hskipped : stats.skippedCount + stats.normalizedCount = skippedIn w'.store := by
    have hclaims : w'.store.claims.length = w.store.claims.length := by
      rw [claims_of_full_backfill distinct h, List.length_map]
    have hreported : legacyIn w'.store = stats.errors.length := by
      obtain ⟨-, -, herrors, -⟩ := backfill_effect distinct h
      rw [← length_candidates, ← List.length_map (f := BackfillError.claimId), herrors,
        List.length_map, ← hwindow]
      rfl
    have hlooked : stats.normalizedCount + stats.errors.length = legacyIn w.store :=
      haccounts.looked
    have hclean := haccounts.skipped
    rw [length_claims, length_claims] at hclaims
    rw [skippedIn_eq]
    omega
  refine backfill_eq_ok_iff.2 ⟨hafter, [], [], ?_, rfl, ?_, rfl⟩
  · rw [hwindow]
    exact convertAll_refused (fun x hx => (legible_of_mem_window hbefore x hx).1) hconverted
  · rw [hskipped]
    rfl

end Claim

/-- The account of every backfill that has a result adds up, whatever claims are stored,
with a limit and without, and also for a dry run.  A dry run changes nothing and reports no
error, and it has a result exactly if all claims are legible, as they are wherever a real run
has one: then it counts as normalized what the real run normalizes or reports, and as skipped
what the real run skips.  A second full backfill after a first one normalizes nothing, reports
the same errors and skips what the first one skipped or normalized; it changes nothing.  A
backfill on its own returns what one within a transaction does. -/
theorem backfill_accounts {w : World} (distinct : (w.store.claims.map Claim.id).Nodup) :
    (∀ (limit : Option Nat) dryRun c stats w',
      Claim.backfill (limit.map Nat.cast) dryRun c w = (.ok stats, w') →
        stats.Accounts w.store limit) ∧
    (∀ (limit : Option Nat) c,
      let dryRun := Claim.backfill (limit.map Nat.cast) true c w
      dryRun.2 = w ∧ (∀ dry, dryRun.1 = .ok dry → dry.errors = []) ∧
        ((∃ dry, dryRun.1 = .ok dry) ↔ w.store.Legible)) ∧
    (∀ (limit : Option Nat) c real w',
      Claim.backfill (limit.map Nat.cast) false c w = (.ok real, w') →
        ∀ c', ∃ dry, Claim.backfill (limit.map Nat.cast) true c' w = (.ok dry, w) ∧
          dry.errors = [] ∧
          dry.normalizedCount = real.normalizedCount + real.errors.length ∧
          dry.skippedCount = real.skippedCount) ∧
    (∀ c first w', Claim.backfill none false c w = (.ok first, w') →
      ∀ c', ∃ second, Claim.backfill none false c' w' = (.ok second, w') ∧
        second.normalizedCount = 0 ∧ second.errors = first.errors ∧
        second.skippedCount = first.skippedCount + first.normalizedCount) ∧
    ∀ limit dryRun c stats w', Claim.runBackfill limit dryRun c w = (.ok stats, w') ↔
      Claim.backfill limit dryRun c w = (.ok stats, w') := by
  refine ⟨fun limit dryRun c stats w' h => ?_,
    fun limit c => Claim.dryRun_total_iff (limit.map Nat.cast) c w, fun limit c real w' h c' => ?_,
    fun c first w' h c' => ?_, fun limit dryRun c stats w' => Claim.runBackfill_eq_ok_iff⟩
  · cases dryRun with
    | false => exact Claim.accounts_of_backfill distinct h
    | true =>
        rw [Claim.backfill_dryRun (Claim.legible_of_backfill h), Prod.mk.injEq,
          Except.ok.injEq] at h
        rw [← h.1]
        exact Claim.accounts_dryRun limit w.store
  · refine ⟨_, Claim.backfill_dryRun (Claim.legible_of_backfill h), rfl, ?_⟩
    have hdry := Claim.accounts_dryRun limit w.store
    have hreal := Claim.accounts_of_backfill distinct h
    exact ⟨hdry.looked.trans hreal.looked.symm, hdry.skipped.trans hreal.skipped.symm⟩
  · exact ⟨_, Claim.backfill_again distinct h c', rfl, rfl, rfl⟩

namespace Sample

/-- A claim without a legacy key, one that is refused and one that can be converted, in the
order of their identifiers; the oldest is the last one. -/
def medley : World where
  store :=
    { claims :=
        [{ legacyClaim 1 (.obj [("note", .str "kept")]) with createdAt := ⟨9⟩ },
          { legacyClaim 2 (.obj [(Claim.adaAmountKey, .str "abc")]) with createdAt := ⟨8⟩ },
          { legacyClaim 3 (.obj [(Claim.multiplierKey, .int 2)]) with createdAt := ⟨7⟩ }]
      serial := 3 }

theorem distinct_medley : (medley.store.claims.map Claim.id).Nodup := by decide +kernel

theorem regular_medley : ∀ x ∈ medley.store.claims, x.Regular := by
  simp only [medley, List.forall_mem_cons]
  refine ⟨.inl ⟨none, by decide +kernel⟩, .inr (by decide +kernel), .inl ⟨some ⟨none, ?_, ?_⟩, ?_⟩,
    by simp⟩
  · exact some (.finite false 20000000000 (-10))
  · exact .obj []
  · decide +kernel

end Sample

/-- Two of three claims carry a legacy key.  A dry run counts both of them; a real run
accounts for both, and a second one repeats its errors. -/
theorem backfill_accounts_of_sample :
    (Sample.medley.store.claims.map Claim.id).Nodup ∧
      ∃ dry first w' second,
        Claim.backfill none true default Sample.medley = (.ok dry, Sample.medley) ∧
        Claim.backfill none false default Sample.medley = (.ok first, w') ∧
        Claim.backfill none false default w' = (.ok second, w') ∧
        dry.normalizedCount = first.normalizedCount + first.errors.length ∧
        first.normalizedCount + first.errors.length = 2 ∧ first.skippedCount = 1 ∧
        second.normalizedCount = 0 ∧ second.errors = first.errors ∧
        second.skippedCount = 1 + first.normalizedCount := by
  obtain ⟨hadds, -, hdry, hagain, -⟩ := backfill_accounts Sample.distinct_medley
  obtain ⟨first, w', hfirst⟩ : ∃ first w',
      Claim.backfill none false default Sample.medley = (.ok first, w') :=
    Claim.backfill_of_regular none Sample.regular_medley
  obtain ⟨dry, hdry, -, hsame, -⟩ := hdry none default first w' hfirst default
  obtain ⟨second, hsecond, hnone, herrors, hskips⟩ := hagain default first w' hfirst default
  have haccounts := hadds none false default first w' hfirst
  have hlooked : first.normalizedCount + first.errors.length = 2 :=
    haccounts.looked.trans (by decide +kernel)
  have hskipped : first.skippedCount = 1 := haccounts.skipped.trans (by decide +kernel)
  rw [hskipped] at hskips
  exact ⟨Sample.distinct_medley, dry, first, w', second, hdry, hfirst, hsecond,
    hsame, hlooked, hskipped, hnone, herrors, hskips⟩

end VaultGovernance
