import VaultGovernance.Proofs.Backfill

/-!
# VaultGovernance.Proofs.Progress

Backfills with a limit, repeated.  A backfill looks at the oldest claims that carry a
legacy key, as many as the limit says.  A claim that is refused keeps its key, so it is
looked at again the next time; what is convertible leaves the window and makes room.

So each backfill with a result makes progress unless all claims in its window are
refused.  If they are and there are as many of them as the limit, the backfill has
stalled (`Store.Stalled`): it changes nothing now or ever.  Where a claim is not legible,
or one in the window has a fault other than a refusal, backfills have no result at all
(`Store.Blocked`), now or ever.  There is no third way in which repeated backfills end
before all convertible claims are normalized.
-/

namespace VaultGovernance

open VaultGovernance.Action

/-- Refused claims fill the window of backfills with a limit, in a store whose claims are
legible. -/
structure Store.Stalled (limit : Nat) (s : Store) : Prop where
  legible : s.Legible
  full : (Claim.window (some limit) s).length = limit
  refused : ∀ x ∈ Claim.window (some limit) s, x.isRefused = true

/-- Backfills with a limit cannot have a result: some claim is not legible, or one in their
window has a fault other than a refusal. -/
def Store.Blocked (limit : Nat) (s : Store) : Prop :=
  ¬ (s.Legible ∧ ∀ x ∈ Claim.window (some limit) s, x.Regular)

/-- A backfill with a limit, once in each context. -/
def Call.backfills (limit : Nat) (contexts : List Context) : List Call :=
  contexts.map fun c => ⟨c, .normalizeClaims (some limit) false⟩

namespace Claim

variable {c : Context} {w w' : World} {limit : Nat} {stats : BackfillStats} {s s' : Store}
  {x : Claim}

/-! ## One backfill -/

/-- Normalizing makes no claim refused. -/
theorem isRefused_of_normalized {time : Timestamp} (h : (x.normalized time).isRefused = true) :
    x.isRefused = true := by
  rw [normalized_eq_of_needs (needs_of_isRefused h)] at h
  exact h

/-- The window of a limit holds the oldest claims that carry a legacy key. -/
theorem window_some (limit : Nat) (s : Store) :
    window (some limit) s = ((byAge s.claims).filter needsNormalization).take limit := by
  have hlimit : (0 : Int) ≤ limit := Int.natCast_nonneg limit
  rw [window]
  simp only [takeLimit, hlimit, if_true, Int.toNat_natCast]

/-- A window is as long as the limit, or it holds every claim with a legacy key. -/
theorem window_cases (limit : Nat) (s : Store) :
    (window (some limit) s).length = limit ∨
      ∀ x ∈ s.claims, x.needsNormalization = true → x ∈ window (some limit) s := by
  rw [window_some]
  by_cases hle : limit ≤ ((byAge s.claims).filter needsNormalization).length
  · exact .inl (List.length_take_of_le hle)
  · right
    intro x hx hneeds
    rw [List.take_of_length_le (Nat.le_of_not_le hle), List.mem_filter, mem_byAge]
    exact ⟨hx, hneeds⟩

/-- Where all claims in the window are refused, a backfill counts nothing and changes
nothing. -/
theorem backfill_of_refused (hlegible : w.store.Legible)
    (h : ∀ x ∈ window (some limit) w.store, x.isRefused = true) :
    ∃ stats, backfill (some limit) false c w = (.ok stats, w) ∧ stats.normalizedCount = 0 := by
  obtain ⟨⟨converted, errors⟩, hconverted⟩ := convertAll_total fun x hx => .inr (h x hx)
  obtain ⟨hfst, -, -, -⟩ := convertAll_ok (legible_of_mem_window hlegible) hconverted
  have hnone : converted = [] := by
    rw [← List.map_eq_nil_iff (f := Prod.fst), hfst, List.filter_eq_nil_iff]
    intro x hx hconv
    have hrefused := h x hx
    rw [not_isRefused_of_isConvertible hconv] at hrefused
    cases hrefused
  subst hnone
  rw [backfill_run hlegible, hconverted]
  exact ⟨_, rfl, rfl⟩

/-- A backfill that counts nothing has a window of refused claims. -/
theorem refused_of_count_eq_zero (hs : (w.store.claims.map Claim.id).Nodup)
    (h : backfill (some limit) false c w = (.ok stats, w')) (hcount : stats.normalizedCount = 0) :
    ∀ x ∈ window (some limit) w.store, x.isRefused = true := by
  obtain ⟨hregular, hconvertible, -, -⟩ := backfill_effect hs h
  rw [hcount, eq_comm, List.length_eq_zero_iff, List.filter_eq_nil_iff] at hconvertible
  intro x hx
  rcases (hregular x hx).cases (mem_claims_of_mem_window hx).2 with ⟨hconv, -⟩ | hrefused
  · exact absurd hconv (hconvertible x hx)
  · exact hrefused

/-- A window of refused claims is full, or no claim is convertible. -/
theorem complete_or_stalled (hlegible : s.Legible)
    (h : ∀ x ∈ window (some limit) s, x.isRefused = true) :
    (∀ x ∈ s.claims, x.isConvertible = false) ∨ s.Stalled limit := by
  rcases window_cases limit s with hfull | hall
  · exact .inr ⟨hlegible, hfull, h⟩
  · left
    intro x hx
    by_contra hconv
    rw [Bool.not_eq_false] at hconv
    have hrefused := h x (hall x hx (needs_of_isConvertible hconv))
    rw [not_isRefused_of_isConvertible hconv] at hrefused
    cases hrefused

/-- Backfills that are blocked fail and change nothing, and only these fail. -/
theorem blocked_iff (hs : (w.store.claims.map Claim.id).Nodup) :
    w.store.Blocked limit ↔ ∃ e, backfill (some limit) false c w = (.error e, w) := by
  rw [Store.Blocked, ← backfill_total_iff (c := c) hs]
  rcases hrun : backfill (some limit) false c w with ⟨e | stats, w'⟩
  · rw [world_of_backfill_error hrun]
    simp
  · simp

/-! ## Repeated backfills -/

/-- A count over a list is less where a condition holds less often and fails for some
member that met the other one. -/
theorem countP_lt {α : Type} {p q : α → Bool} {xs : List α} (h : ∀ x ∈ xs, p x = true → q x = true)
    {x : α} (hx : x ∈ xs) (hp : p x = false) (hq : q x = true) : xs.countP p < xs.countP q := by
  obtain ⟨before, after, rfl⟩ := List.append_of_mem hx
  have hbefore : before.countP p ≤ before.countP q :=
    List.countP_mono_left fun y hy => h y (List.mem_append_left _ hy)
  have hafter : after.countP p ≤ after.countP q :=
    List.countP_mono_left fun y hy => h y (List.mem_append_right _ (List.mem_cons_of_mem _ hy))
  rw [List.countP_append, List.countP_append, List.countP_cons_of_neg (by simp [hp]),
    List.countP_cons_of_pos hq]
  omega

/-- Visiting claims makes none of them refused. -/
theorem countP_isRefused_le (h : s.Visited s') :
    s'.claims.countP isRefused ≤ s.claims.countP isRefused := by
  obtain ⟨f, hf, hfx⟩ := h
  rw [hf, List.countP_map]
  refine List.countP_mono_left fun x _ hx => ?_
  rw [Function.comp_apply] at hx
  rcases hfx x with hsame | ⟨time, hnormalized⟩
  · rwa [hsame] at hx
  · rw [hnormalized] at hx
    exact isRefused_of_normalized hx

/-- Visiting claims makes none of them convertible. -/
theorem not_convertible_of_visited (h : s.Visited s')
    (hnone : ∀ x ∈ s.claims, x.isConvertible = false) :
    ∀ x ∈ s'.claims, x.isConvertible = false := by
  intro x hx
  rw [← Bool.not_eq_true]
  intro hconv
  rw [hnone x (h.mem_of_needs hx (needs_of_isConvertible hconv))] at hconv
  cases hconv

/-- A claim that takes new amounts is not convertible any more. -/
theorem not_convertible_normalized {time : Timestamp} {k : Amounts}
    (h : x.outcome = .ok (some k)) : (x.normalized time).isConvertible = false := by
  rw [← Bool.not_eq_true]
  intro hconv
  have hneeds := needs_of_isConvertible hconv
  rw [normalized_of_some h, not_needs_taking h] at hneeds
  cases hneeds

/-- A backfill with a convertible claim in its window leaves fewer of them. -/
theorem countP_isConvertible_lt (hs : (w.store.claims.map Claim.id).Nodup)
    (h : backfill (some limit) false c w = (.ok stats, w'))
    (hx : x ∈ window (some limit) w.store) (hconv : x.isConvertible = true) :
    w'.store.claims.countP isConvertible < w.store.claims.countP isConvertible := by
  obtain ⟨hregular, -, -, hw⟩ := backfill_effect hs h
  obtain ⟨hmem, hneeds⟩ := mem_claims_of_mem_window hx
  rw [hw, List.countP_map]
  refine countP_lt (fun y _ hy => ?_) hmem ?_ hconv
  · rw [Function.comp_apply] at hy
    split at hy
    · rw [normalized_eq_of_needs (needs_of_isConvertible hy)] at hy
      exact hy
    · exact hy
  · rw [Function.comp_apply, if_pos hx]
    rcases (hregular x hx).cases hneeds with ⟨-, k, hk⟩ | hrefused
    · exact not_convertible_normalized hk
    · rw [not_isRefused_of_isConvertible hconv] at hrefused
      cases hrefused

/-- Backfills that have stalled are at least as many refused claims behind as the
limit. -/
theorem le_countP_of_stalled (h : s.Stalled limit) : limit ≤ s.claims.countP isRefused := by
  obtain ⟨-, hlength, hrefused⟩ := h
  have hsub : (window (some limit) s).Sublist (byAge s.claims) :=
    (sublist_takeLimit _).trans List.filter_sublist
  calc limit = (window (some limit) s).countP isRefused := by
        rw [List.countP_eq_length.2 hrefused, hlength]
    _ ≤ (byAge s.claims).countP isRefused := hsub.countP_le
    _ = s.claims.countP isRefused := (List.mergeSort_perm _ _).countP_eq _

/-- No backfill gets past a window of refused claims. -/
theorem after_of_stalled (h : w.store.Stalled limit) (contexts : List Context) :
    w.after (Call.backfills limit contexts) = w := by
  induction contexts with
  | nil => rfl
  | cons c contexts ih =>
      obtain ⟨stats, hrun, -⟩ := backfill_of_refused (c := c) h.legible h.refused
      rw [Call.backfills, List.map_cons, World.after_cons, World.called_backfill hrun]
      exact ih

/-- No backfill gets past a claim that blocks it. -/
theorem after_of_blocked (hs : (w.store.claims.map Claim.id).Nodup) (h : w.store.Blocked limit)
    (contexts : List Context) : w.after (Call.backfills limit contexts) = w := by
  induction contexts with
  | nil => rfl
  | cons c contexts ih =>
      obtain ⟨e, hrun⟩ := (blocked_iff (c := c) hs).1 h
      have haction : (Operation.normalizeClaims (some limit) false).action c w = (.error e, w) :=
        andThen_of_error hrun
      have hcalled : w.called ⟨c, .normalizeClaims (some limit) false⟩ = w := by
        rw [World.called, transaction, haction]
      rw [Call.backfills, List.map_cons, World.after_cons, hcalled]
      exact ih

/-- Repeated backfills visit claims. -/
theorem visited_backfills (hs : (w.store.claims.map Claim.id).Nodup) (contexts : List Context) :
    w.store.Visited (w.after (Call.backfills limit contexts)).store := by
  refine World.visited_after hs fun k hk => ?_
  obtain ⟨c, -, rfl⟩ := List.mem_map.1 hk
  trivial

/-- As many backfills as there are convertible claims normalize all of them, unless they
stall or are blocked. -/
theorem complete_or_stalled_after (hs : (w.store.claims.map Claim.id).Nodup)
    {contexts : List Context} (hmany : w.store.claims.countP isConvertible ≤ contexts.length) :
    let s := (w.after (Call.backfills limit contexts)).store
    (∀ x ∈ s.claims, x.isConvertible = false) ∨ s.Stalled limit ∨ s.Blocked limit := by
  intro s
  induction contexts generalizing w with
  | nil =>
      left
      intro x hx
      rw [List.length_nil, Nat.le_zero, List.countP_eq_zero] at hmany
      exact Bool.not_eq_true _ ▸ hmany x hx
  | cons c contexts ih =>
      by_cases hblocked : w.store.Blocked limit
      · refine .inr (.inr ?_)
        change (w.after _).store.Blocked limit
        rw [after_of_blocked hs hblocked]
        exact hblocked
      obtain ⟨hlegible, hwindow⟩ := not_not.1 hblocked
      obtain ⟨stats, w', hrun⟩ := backfill_total (c := c) hlegible hwindow
      have hafter : w.after (Call.backfills limit (c :: contexts)) =
          w'.after (Call.backfills limit contexts) := by
        rw [Call.backfills, List.map_cons, World.after_cons, World.called_backfill hrun]
        rfl
      have hvisited : w.store.Visited w'.store := by
        have hcalled := World.visited_called hs (k := ⟨c, .normalizeClaims (some limit) false⟩)
          trivial
        rwa [World.called_backfill hrun] at hcalled
      by_cases hsome : ∃ x ∈ window (some limit) w.store, x.isConvertible = true
      · obtain ⟨x, hx, hconv⟩ := hsome
        have hfewer := countP_isConvertible_lt hs hrun hx hconv
        have hs' : s = (w'.after (Call.backfills limit contexts)).store :=
          congrArg World.store hafter
        rw [hs']
        refine ih (hvisited.map_id ▸ hs) ?_
        rw [List.length_cons] at hmany
        omega
      · have hrefused : ∀ x ∈ window (some limit) w.store, x.isRefused = true := by
          intro x hx
          rcases (hwindow x hx).cases (mem_claims_of_mem_window hx).2 with ⟨hconv, -⟩ | hrefused
          · exact absurd ⟨x, hx, hconv⟩ hsome
          · exact hrefused
        rcases complete_or_stalled hlegible hrefused with hnone | hstalled
        · exact .inl (not_convertible_of_visited (visited_backfills hs _) hnone)
        · refine .inr (.inl ?_)
          change (w.after _).store.Stalled limit
          rw [after_of_stalled hstalled]
          exact hstalled

/-- Where no claim has a fault but refusals nothing is blocked. -/
theorem not_blocked_of_regular (h : ∀ x ∈ s.claims, x.Regular) : ¬ s.Blocked limit :=
  not_not.2 ⟨fun x hx => (h x hx).legible, fun x hx => h x (mem_claims_of_mem_window hx).1⟩

end Claim

/-- Repeated backfills with a limit, on any claims.  One that counts nothing changes nothing,
and then either no claim is convertible any more, or the backfills have stalled on as many
refused claims as the limit, the oldest with a legacy key.  Backfills that have stalled count
and change nothing however often they are repeated, and those that are blocked fail and change
nothing however often.  As many backfills as there were convertible claims normalize all of
them, or stall, or are blocked.  They cannot stall where fewer claims are refused than the
limit says, and cannot be blocked where no claim has a fault but refusals. -/
theorem limited_backfill_completes_unless_stalled {w : World}
    (distinct : (w.store.claims.map Claim.id).Nodup) (limit : Nat) :
    (∀ c stats w', Claim.backfill (some limit) false c w = (.ok stats, w') →
        stats.normalizedCount = 0 →
        w' = w ∧ ((∀ x ∈ w.store.claims, x.isConvertible = false) ∨ w.store.Stalled limit)) ∧
      (w.store.Stalled limit → ∀ contexts,
        w.after (Call.backfills limit contexts) = w ∧
          ∀ c, ∃ stats, Claim.backfill (some limit) false c w = (.ok stats, w) ∧
            stats.normalizedCount = 0) ∧
      (w.store.Blocked limit → ∀ contexts,
        w.after (Call.backfills limit contexts) = w ∧
          ∀ c, ∃ e, Claim.backfill (some limit) false c w = (.error e, w)) ∧
      ∀ contexts, w.store.claims.countP Claim.isConvertible ≤ contexts.length →
        let s := (w.after (Call.backfills limit contexts)).store
        (∀ x ∈ s.claims, x.isConvertible = false) ∨
          s.Stalled limit ∧ limit ≤ w.store.claims.countP Claim.isRefused ∨
          s.Blocked limit ∧ ∃ x ∈ w.store.claims, ¬ x.Regular := by
  refine ⟨fun c stats w' hrun hcount => ?_, fun hstalled contexts => ?_,
    fun hblocked contexts => ?_, fun contexts hmany => ?_⟩
  · have hlegible := Claim.legible_of_backfill hrun
    have hrefused := Claim.refused_of_count_eq_zero distinct hrun hcount
    obtain ⟨stats', hsame, -⟩ := Claim.backfill_of_refused (c := c) hlegible hrefused
    rw [hrun, Prod.mk.injEq] at hsame
    exact ⟨hsame.2, Claim.complete_or_stalled hlegible hrefused⟩
  · exact ⟨Claim.after_of_stalled hstalled contexts, fun c =>
      Claim.backfill_of_refused hstalled.legible hstalled.refused⟩
  · exact ⟨Claim.after_of_blocked distinct hblocked contexts, fun c =>
      (Claim.blocked_iff distinct).1 hblocked⟩
  · have hvisited : w.store.Visited (w.after (Call.backfills limit contexts)).store :=
      Claim.visited_backfills distinct contexts
    rcases Claim.complete_or_stalled_after distinct hmany with hnone | hstalled | hblocked
    · exact .inl hnone
    · refine .inr (.inl ⟨hstalled, ?_⟩)
      calc limit ≤ _ := Claim.le_countP_of_stalled hstalled
        _ ≤ _ := Claim.countP_isRefused_le hvisited
    · refine .inr (.inr ⟨hblocked, ?_⟩)
      by_contra hregular
      simp only [not_exists, not_and, not_not] at hregular
      exact Claim.not_blocked_of_regular (hvisited.regular hregular) hblocked

/-- One refused claim does not hold up backfills of two claims. -/
theorem limited_backfill_completes_unless_stalled_of_sample :
    Sample.backlog.store.claims.countP Claim.isConvertible = 1 ∧
      ∀ x ∈ (Sample.backlog.after (Call.backfills 2 [default])).store.claims,
        x.isConvertible = false := by
  obtain ⟨-, -, -, hcompletes⟩ :=
    limited_backfill_completes_unless_stalled Sample.distinct_backlog 2
  have hone : Sample.backlog.store.claims.countP Claim.isConvertible = 1 := by decide +kernel
  have hfew : ¬ 2 ≤ Sample.backlog.store.claims.countP Claim.isRefused := by decide +kernel
  refine ⟨hone, ?_⟩
  rcases hcompletes [default] (Nat.le_of_eq hone) with hnone | ⟨-, hmany⟩ | ⟨-, x, hx, hfault⟩
  · exact hnone
  · exact absurd hmany hfew
  · exact absurd (Sample.regular_backlog x hx) hfault

/-- One refused claim holds up backfills of one claim: the backfill counts nothing,
although a convertible claim is left. -/
theorem limited_backfill_stalls_on_backlog :
    ∃ stats w', Claim.backfill (some 1) false default Sample.backlog = (.ok stats, w') ∧
      stats.normalizedCount = 0 ∧ ∃ x ∈ w'.store.claims, x.isConvertible = true := by
  have hsorted : Claim.byAge Sample.backlog.store.claims = Sample.backlog.store.claims :=
    List.mergeSort_of_pairwise (by decide +kernel)
  have hwindow : ∀ x ∈ Claim.window (some (1 : Nat)) Sample.backlog.store,
      x.isRefused = true := by
    rw [Claim.window_some, hsorted]
    decide +kernel
  have hlegible : Sample.backlog.store.Legible := fun x hx => (Sample.regular_backlog x hx).legible
  obtain ⟨stats, hrun, hcount⟩ := Claim.backfill_of_refused (c := default) hlegible hwindow
  exact ⟨stats, Sample.backlog, hrun, hcount, by decide +kernel⟩

end VaultGovernance
