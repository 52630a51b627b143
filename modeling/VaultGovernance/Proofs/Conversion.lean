import Mathlib.Data.List.Induction
import Mathlib.Data.List.Nodup
import VaultGovernance.Proofs.Change.Records
import VaultGovernance.Proofs.Legible
import VaultGovernance.Proofs.Rows

/-!
# VaultGovernance.Proofs.Conversion

What normalizing does to a single claim, and what a read or a backfill makes of it.
Normalizing comes to one of three things (`Claim.outcome`): there is nothing to do, the
columns take the converted values, or a fault.  It depends on the claim alone, and the
time shows only in the stamp of the row that is written (`Claim.normalized`).

A backfill then is one `map` over the table: the claims in its window are normalized,
all others stay (`Claim.backfill_effect`).  It ends with a result exactly when every
claim can be read and looked through (`Store.Legible`), and no claim in the window has a
fault other than a refusal (`Claim.backfill_total_iff`).
-/

namespace VaultGovernance

open VaultGovernance.Action

namespace Claim

variable {x : Claim} {time : Timestamp}

/-! ## One claim -/

/-- The amounts as their columns keep them. -/
def keptAmounts (x : Claim) (a : Amounts) : Except Fault Amounts :=
  (x.withAmounts a x.createdAt).map amounts

/-- A document column keeps what the amounts have for it. -/
theorem metadata_of_keptAmounts {a k : Amounts} (h : x.keptAmounts a = .ok k) :
    k.metadata = Column.document a.metadata := by
  rw [keptAmounts, map_eq_ok] at h
  obtain ⟨r, hr, rfl⟩ := h
  rw [withAmounts, bind_eq_ok] at hr
  obtain ⟨lovelace, -, hr⟩ := hr
  rcases hx : x.multiplier with _ | old <;> rcases ha : a.multiplier with _ | m <;>
    simp only [hx, ha, bind_eq_ok, pure_eq_ok] at hr <;> obtain ⟨_, -, rfl⟩ := hr <;> rfl

/-- The row of a claim that takes new amounts. -/
def taking (x : Claim) (a : Amounts) (time : Timestamp) : Claim :=
  { x with
    lovelaceAmount := a.lovelaceAmount
    multiplier := a.multiplier
    metadata := a.metadata
    updatedAt := some time }

/-- The time of a write shows in the stamp alone. -/
theorem withAmounts_eq (a : Amounts) :
    x.withAmounts a time = (x.keptAmounts a).map fun k => x.taking k time := by
  rw [keptAmounts, withAmounts, withAmounts]
  cases Column.optionalBigint a.lovelaceAmount with
  | error e => rfl
  | ok lovelace =>
      rcases x.multiplier with _ | old <;> rcases a.multiplier with _ | m <;> try rfl
      dsimp only [bind, Except.bind]
      cases Column.numeric Column.multiplierPlaces m <;> rfl

/-- What normalizing a claim comes to: nothing to do, the amounts that its columns
keep, or a fault. -/
def outcome (x : Claim) : Except Fault (Option Amounts) :=
  match x.conversion with
  | .ok none => .ok none
  | .ok (some a) => (x.keptAmounts a).map some
  | .error e => .error e

/-- A claim that was normalized; it stays where there is nothing to do or a fault. -/
def normalized (x : Claim) (time : Timestamp) : Claim :=
  match x.outcome with
  | .ok (some a) => x.taking a time
  | _ => x

/-- Whether a claim carries legacy values, all of which can be converted. -/
def isConvertible (x : Claim) : Bool :=
  match x.conversion with
  | .ok (some _) => true
  | _ => false

/-- Whether a claim carries a legacy value that is refused. -/
def isRefused (x : Claim) : Bool :=
  match x.conversion with
  | .error (.refusal _) => true
  | _ => false

/-- Normalizing the claim has no fault, unless it is refused. -/
def Regular (x : Claim) : Prop :=
  (∃ r, x.outcome = .ok r) ∨ x.isRefused = true

theorem isConvertible_iff :
    x.isConvertible = true ↔ ∃ a, x.conversion = .ok (some a) := by
  rw [isConvertible]
  split
  · next a h => exact ⟨fun _ => ⟨a, h⟩, fun _ => rfl⟩
  · next h => exact ⟨fun hfalse => absurd hfalse (by decide), fun ⟨a, ha⟩ => absurd ha (h a)⟩

theorem isRefused_iff :
    x.isRefused = true ↔ ∃ e, x.conversion = .error (.refusal e) := by
  rw [isRefused]
  split
  · next e h => exact ⟨fun _ => ⟨e, h⟩, fun _ => rfl⟩
  · next h => exact ⟨fun hfalse => absurd hfalse (by decide), fun ⟨e, he⟩ => absurd he (h e)⟩

/-- A claim that is refused was legible. -/
theorem legible_of_isRefused (h : x.isRefused = true) : x.Legible := by
  obtain ⟨e, he⟩ := isRefused_iff.1 h
  rcases bind_eq_error.1 he with hload | ⟨_, hloads, he⟩
  · exact absurd hload (neverRefuses_load e)
  · rcases bind_eq_error.1 he with hfind | ⟨_, hfound, -⟩
    · exact absurd hfind (neverRefuses_findLegacy _ e)
    · exact ⟨hloads, (findLegacy_eq_ok_iff.1 hfound).1⟩

theorem neverRefuses_withAmounts (a : Amounts) : NeverRefuses (x.withAmounts a time) := by
  refine (Column.neverRefuses_optionalBigint _).bind fun _ => ?_
  cases x.multiplier with
  | some old => exact (neverRefuses_ok _).bind fun _ => neverRefuses_ok _
  | none =>
      cases a.multiplier with
      | some m => exact (Column.neverRefuses_numeric _ m).bind fun _ => neverRefuses_ok _
      | none => exact (neverRefuses_ok _).bind fun _ => neverRefuses_ok _

/-! ## Outcomes -/

theorem outcome_eq_none_iff :
    x.outcome = .ok none ↔ x.Legible ∧ x.needsNormalization = false := by
  rw [← conversion_eq_none_iff, outcome]
  rcases x.conversion with e | _ | a <;> simp [map_eq_ok]

/-- New amounts are converted ones, as their columns keep them. -/
theorem outcome_eq_some_iff {k : Amounts} : x.outcome = .ok (some k) ↔
    ∃ a, x.conversion = .ok (some a) ∧ x.keptAmounts a = .ok k := by
  rw [outcome]
  rcases x.conversion with e | _ | a <;> simp [map_eq_ok]

/-- Where normalizing has a result the claim was legible. -/
theorem legible_of_outcome {r : Option Amounts} (h : x.outcome = .ok r) : x.Legible := by
  cases r with
  | none => exact (outcome_eq_none_iff.1 h).1
  | some k =>
      obtain ⟨a, ha, -⟩ := outcome_eq_some_iff.1 h
      exact legible_of_conversion ha

theorem Regular.legible (h : x.Regular) : x.Legible := by
  rcases h with ⟨r, hr⟩ | hrefused
  · exact legible_of_outcome hr
  · exact legible_of_isRefused hrefused

theorem normalized_of_some {k : Amounts} (h : x.outcome = .ok (some k)) :
    x.normalized time = x.taking k time := by
  rw [normalized, h]

/-- Without new amounts a claim stays as it is. -/
theorem normalized_of_ne_some (h : ∀ k, x.outcome ≠ .ok (some k)) : x.normalized time = x := by
  rw [normalized]
  split
  · next k hk => exact absurd hk (h k)
  · rfl

/-- A claim without a legacy key is normalized already. -/
theorem normalized_of_not_needs (h : x.needsNormalization = false) : x.normalized time = x := by
  refine normalized_of_ne_some fun k hk => ?_
  obtain ⟨a, ha, -⟩ := outcome_eq_some_iff.1 hk
  rw [needs_of_conversion ha] at h
  cases h

/-- Either a claim has new amounts, or it is normalized already. -/
theorem normalized_cases (x : Claim) :
    (∃ k, x.outcome = .ok (some k) ∧ ∀ time, x.normalized time = x.taking k time) ∨
      ∀ time, x.normalized time = x := by
  by_cases h : ∃ k, x.outcome = .ok (some k)
  · obtain ⟨k, hk⟩ := h
    exact .inl ⟨k, hk, fun _ => normalized_of_some hk⟩
  · exact .inr fun _ => normalized_of_ne_some fun k hk => h ⟨k, hk⟩

@[simp] theorem id_normalized : (x.normalized time).id = x.id := by
  rcases x.normalized_cases with ⟨k, -, hk⟩ | hsame
  · rw [hk]
    rfl
  · rw [hsame]

/-- A claim that takes converted amounts has nothing left to convert. -/
theorem outcome_taking {k : Amounts} (h : x.outcome = .ok (some k)) :
    (x.taking k time).outcome = .ok none := by
  obtain ⟨a, ha, hk⟩ := outcome_eq_some_iff.1 h
  have hloads := (legible_of_conversion ha).loads
  rw [conversion_of_loads hloads] at ha
  obtain ⟨entries, hentries, -, ha⟩ := exists_of_normalizeAmounts ha
  have hx : x.metadata = .obj entries := hentries
  have hmetadata : (x.taking k time).metadata = withoutLegacy (.obj entries) := by
    change k.metadata = _
    rw [metadata_of_keptAmounts hk, ha, hentries]
    rfl
  rw [load_eq_ok_iff, hx] at hloads
  refine outcome_eq_none_iff.2 ⟨⟨load_eq_ok_iff.2 ?_, ?_⟩, ?_⟩
  · rw [hmetadata]
    exact canShow_withoutLegacy hloads
  · rw [hmetadata]
    rfl
  · rw [needsNormalization, hmetadata]
    exact carriesLegacy_withoutLegacy _

/-- A claim that took converted amounts carries no legacy key. -/
theorem not_needs_taking {k : Amounts} (h : x.outcome = .ok (some k)) :
    (x.taking k time).needsNormalization = false :=
  (outcome_eq_none_iff.1 (outcome_taking h)).2

/-- A claim that carries a legacy key after normalizing is as it was. -/
theorem normalized_eq_of_needs (h : (x.normalized time).needsNormalization = true) :
    x.normalized time = x := by
  rcases x.normalized_cases with ⟨k, hk, hsome⟩ | hsame
  · rw [hsome, not_needs_taking hk] at h
    cases h
  · exact hsame time

/-- Normalizing a second time does nothing. -/
theorem normalized_normalized (time time' : Timestamp) :
    (x.normalized time).normalized time' = x.normalized time := by
  rcases x.normalized_cases with ⟨k, hk, hsome⟩ | hsame
  · rw [hsome]
    refine normalized_of_ne_some fun k' hk' => ?_
    rw [outcome_taking hk] at hk'
    cases hk'
  · rw [hsame, hsame]

/-- The amounts do not depend on the time. -/
theorem amounts_normalized (time time' : Timestamp) :
    (x.normalized time).amounts = (x.normalized time').amounts := by
  rcases x.normalized_cases with ⟨k, -, hk⟩ | hsame
  · rw [hk, hk]
    rfl
  · rw [hsame, hsame]

/-- A claim with a legacy key that has no fault is convertible or refused, and its
new amounts are kept. -/
theorem Regular.cases (h : x.Regular) (hx : x.needsNormalization = true) :
    x.isConvertible = true ∧ (∃ k, x.outcome = .ok (some k)) ∨ x.isRefused = true := by
  rcases h with ⟨r, hr⟩ | hrefused
  · cases r with
    | none =>
        rw [outcome_eq_none_iff, hx] at hr
        cases hr.2
    | some k =>
        obtain ⟨a, ha, -⟩ := outcome_eq_some_iff.1 hr
        exact .inl ⟨isConvertible_iff.2 ⟨a, ha⟩, k, hr⟩
  · exact .inr hrefused

theorem needs_of_isConvertible (h : x.isConvertible = true) : x.needsNormalization = true := by
  obtain ⟨a, ha⟩ := isConvertible_iff.1 h
  exact needs_of_conversion ha

theorem needs_of_isRefused (h : x.isRefused = true) : x.needsNormalization = true := by
  obtain ⟨e, he⟩ := isRefused_iff.1 h
  rw [← Bool.not_eq_false]
  intro hnone
  rw [conversion_eq_none_iff.2 ⟨legible_of_isRefused h, hnone⟩] at he
  cases he

theorem not_isRefused_of_isConvertible (h : x.isConvertible = true) : x.isRefused = false := by
  obtain ⟨a, ha⟩ := isConvertible_iff.1 h
  simp [isRefused, ha]

/-- A claim that is refused stays as it is. -/
theorem normalized_of_isRefused (h : x.isRefused = true) : x.normalized time = x := by
  obtain ⟨e, he⟩ := isRefused_iff.1 h
  refine normalized_of_ne_some fun k hk => ?_
  obtain ⟨a, ha, -⟩ := outcome_eq_some_iff.1 hk
  rw [he] at ha
  cases ha

/-! ## Converting a list -/

/-- A conversion with a result kept the convertible claims, with their new amounts,
and reported the refused ones. -/
theorem convertAll_ok {xs : List Claim} {converted : List (Claim × Amounts)}
    {errors : List BackfillError} (hxs : ∀ x ∈ xs, x.Legible ∧ x.needsNormalization = true)
    (h : convertAll xs = .ok (converted, errors)) :
    converted.map Prod.fst = xs.filter isConvertible ∧
      (∀ e ∈ converted, e.1.conversion = .ok (some e.2)) ∧
      errors.map BackfillError.claimId = (xs.filter isRefused).map Claim.id ∧
      ∀ x ∈ xs, x.isConvertible = true ∨ x.isRefused = true := by
  induction xs generalizing converted errors with
  | nil =>
      simp only [convertAll, Except.ok.injEq, Prod.mk.injEq] at h
      obtain ⟨rfl, rfl⟩ := h
      simp
  | cons x xs ih =>
      obtain ⟨⟨hlegible, hx⟩, hxs⟩ := List.forall_mem_cons.1 hxs
      rw [convertAll, ← conversion_of_loads hlegible.loads] at h
      split at h
      · next a ha =>
        simp only [bind_eq_ok, pure_eq_ok, Prod.mk.injEq] at h
        obtain ⟨⟨converted', errors'⟩, hrest, rfl, rfl⟩ := h
        obtain ⟨hfst, hamounts, herrors, hall⟩ := ih hxs hrest
        cases a with
        | none =>
            rw [(conversion_eq_none_iff.1 ha).2] at hx
            cases hx
        | some a =>
            have hconv : x.isConvertible = true := isConvertible_iff.2 ⟨a, ha⟩
            have hrefused := not_isRefused_of_isConvertible hconv
            refine ⟨?_, ?_, ?_, ?_⟩
            · simp [hconv, hfst]
            · exact List.forall_mem_cons.2 ⟨ha, hamounts⟩
            · simp [hrefused, herrors]
            · exact List.forall_mem_cons.2 ⟨.inl hconv, hall⟩
      · next e he =>
        simp only [bind_eq_ok, pure_eq_ok, Prod.mk.injEq] at h
        obtain ⟨⟨converted', errors'⟩, hrest, rfl, rfl⟩ := h
        obtain ⟨hfst, hamounts, herrors, hall⟩ := ih hxs hrest
        have hrefused : x.isRefused = true := isRefused_iff.2 ⟨e, he⟩
        have hconv : x.isConvertible = false := by simp [isConvertible, he]
        refine ⟨?_, hamounts, ?_, ?_⟩
        · simp [hconv, hfst]
        · simp [hrefused, herrors]
        · exact List.forall_mem_cons.2 ⟨.inr hrefused, hall⟩
      · cases h

/-- Claims that are convertible or refused are all gone through. -/
theorem convertAll_total {xs : List Claim}
    (h : ∀ x ∈ xs, x.isConvertible = true ∨ x.isRefused = true) :
    ∃ r, convertAll xs = .ok r := by
  induction xs with
  | nil => exact ⟨_, rfl⟩
  | cons x xs ih =>
      obtain ⟨hx, hxs⟩ := List.forall_mem_cons.1 h
      obtain ⟨⟨converted, errors⟩, hrest⟩ := ih hxs
      have hlegible : x.Legible := by
        rcases hx with hconv | hrefused
        · obtain ⟨a, ha⟩ := isConvertible_iff.1 hconv
          exact legible_of_conversion ha
        · exact legible_of_isRefused hrefused
      rw [convertAll, ← conversion_of_loads hlegible.loads, hrest]
      rcases hx with hconv | hrefused
      · obtain ⟨a, ha⟩ := isConvertible_iff.1 hconv
        rw [ha]
        exact ⟨_, rfl⟩
      · obtain ⟨e, he⟩ := isRefused_iff.1 hrefused
        rw [he]
        exact ⟨_, rfl⟩

/-- Going through claims fails with no refusal: those of single claims are collected. -/
theorem neverRefuses_convertAll (xs : List Claim) : NeverRefuses (convertAll xs) := by
  induction xs with
  | nil => exact neverRefuses_ok ([], [])
  | cons x xs ih =>
      rw [convertAll]
      split
      · exact ih.bind fun _ => neverRefuses_ok _
      · exact ih.bind fun _ => neverRefuses_ok _
      · next f hf hne =>
        intro e h
        exact hf e (Except.error.inj h)

/-- The rows that are written are those of normalized claims. -/
theorem convertedRows_ok {converted : List (Claim × Amounts)} {rows : List Claim}
    (hamounts : ∀ e ∈ converted, e.1.conversion = .ok (some e.2))
    (h : convertedRows time converted = .ok rows) :
    rows = (converted.map Prod.fst).map (fun x => x.normalized time) ∧
      ∀ e ∈ converted, ∃ k, e.1.outcome = .ok (some k) := by
  induction converted generalizing rows with
  | nil =>
      rw [convertedRows] at h
      cases h
      simp
  | cons e converted ih =>
      obtain ⟨x, a⟩ := e
      obtain ⟨ha, hamounts⟩ := List.forall_mem_cons.1 hamounts
      simp only [convertedRows, bind_eq_ok, pure_eq_ok, withAmounts_eq, map_eq_ok] at h
      obtain ⟨row, ⟨k, hk, rfl⟩, rows, hrest, rfl⟩ := h
      obtain ⟨rfl, hall⟩ := ih hamounts hrest
      have hout : x.outcome = .ok (some k) := outcome_eq_some_iff.2 ⟨a, ha, hk⟩
      refine ⟨?_, List.forall_mem_cons.2 ⟨⟨k, hout⟩, hall⟩⟩
      rw [List.map_cons, List.map_cons, normalized_of_some hout]

theorem convertedRows_total {converted : List (Claim × Amounts)}
    (h : ∀ e ∈ converted, ∃ k, e.1.keptAmounts e.2 = .ok k) :
    ∃ rows, convertedRows time converted = .ok rows := by
  induction converted with
  | nil => exact ⟨_, rfl⟩
  | cons e converted ih =>
      obtain ⟨⟨k, hk⟩, hrest⟩ := List.forall_mem_cons.1 h
      obtain ⟨rows, hrows⟩ := ih hrest
      rw [convertedRows, withAmounts_eq, hk, hrows]
      exact ⟨_, rfl⟩

theorem neverRefuses_convertedRows (converted : List (Claim × Amounts)) :
    NeverRefuses (convertedRows time converted) := by
  induction converted with
  | nil => exact neverRefuses_ok []
  | cons entry converted ih =>
      exact (neverRefuses_withAmounts _).bind fun _ => ih.bind fun _ => neverRefuses_ok _

/-- Writing the rows of normalized claims normalizes these claims in the table. -/
theorem foldl_putClaim_normalized {s : Store} (hs : (s.claims.map Claim.id).Nodup)
    {xs : List Claim} (hxs : ∀ x ∈ xs, x ∈ s.claims) :
    (xs.map fun x => x.normalized time).foldl Store.putClaim s =
      { s with claims := s.claims.map fun x => if x ∈ xs then x.normalized time else x } := by
  induction xs using List.reverseRecOn with
  | nil => simp
  | append_singleton xs x ih =>
      rw [List.map_append, List.foldl_append, ih fun y hy => hxs y (List.mem_append_left _ hy)]
      have hx : x ∈ s.claims := hxs x (List.mem_append_right _ (List.mem_singleton_self x))
      simp only [List.map_cons, List.map_nil, List.foldl_cons, List.foldl_nil, Store.putClaim,
        List.map_map, id_normalized, Store.mk.injEq, true_and, and_true]
      refine List.map_congr_left fun y hy => ?_
      have hid : (if y ∈ xs then y.normalized time else y).id = y.id := by split <;> simp
      simp only [Function.comp_apply, hid, List.mem_append, List.mem_singleton]
      by_cases hyx : y.id = x.id
      · obtain rfl : y = x := List.inj_on_of_nodup_map hs hy hx hyx
        simp
      · have hne : y ≠ x := fun h => hyx (congrArg Claim.id h)
        simp [hyx, hne]

/-- Writing a row that is there already changes nothing. -/
theorem putClaim_self {s : Store} (hs : (s.claims.map Claim.id).Nodup) (hx : x ∈ s.claims) :
    s.putClaim x = s := by
  have hrows : s.claims.map (fun y => if y.id = x.id then x else y) = s.claims := by
    rw [List.map_congr_left (g := fun y => y), List.map_id_fun']
    · rfl
    · intro y hy
      by_cases hid : y.id = x.id
      · rw [if_pos hid, List.inj_on_of_nodup_map hs hy hx hid]
      · rw [if_neg hid]
  rw [Store.putClaim, hrows]

/-! ## Reading a claim -/

section Operations

variable {c : Context} {w w' : World} {id : Uuid} {limit : Option Int} {stats : BackfillStats}

/-- A claim that is read is normalized, in the table and for the reader. -/
theorem get_effect (hs : (w.store.claims.map Claim.id).Nodup)
    (h : get id c w = (.ok x, w')) :
    ∃ y, w.store.claim? id = some y ∧ x = y.normalized c.now ∧
      w'.store = { w.store with
        claims := w.store.claims.map fun z => if z = y then z.normalized c.now else z } := by
  simp only [get, bind_eq, store_andThen] at h
  cases hclaim : w.store.claim? id with
  | none => simp [hclaim] at h
  | some y =>
      have hy : y ∈ w.store.claims := List.mem_of_find?_eq_some hclaim
      have hwritten : ([y].map fun x => x.normalized c.now).foldl Store.putClaim w.store = _ :=
        foldl_putClaim_normalized hs (by simpa using hy)
      simp only [List.map_cons, List.map_nil, List.foldl_cons, List.foldl_nil,
        List.mem_singleton] at hwritten
      simp only [hclaim, ofExcept_andThen_eq_ok] at h
      obtain ⟨amounts, hamounts, h⟩ := h
      cases amounts with
      | none =>
          obtain ⟨rfl, rfl⟩ := done_eq_ok.1 h
          have hsame : y.normalized c.now = y :=
            normalized_of_not_needs (conversion_eq_none_iff.1 hamounts).2
          refine ⟨y, rfl, hsame.symm, ?_⟩
          rw [hsame] at hwritten
          rw [← hwritten, putClaim_self hs hy]
      | some a =>
          simp only [now_andThen, ofExcept_andThen_eq_ok, modify_andThen, record_andThen,
            done_eq_ok, withAmounts_eq, map_eq_ok] at h
          obtain ⟨_, ⟨k, hk, rfl⟩, rfl, rfl⟩ := h
          have hnormalized : y.normalized c.now = y.taking k c.now :=
            normalized_of_some (outcome_eq_some_iff.2 ⟨a, hamounts, hk⟩)
          refine ⟨y, rfl, hnormalized.symm, ?_⟩
          rw [← hwritten, hnormalized]

/-! ## Backfill -/

/-- The claims that a backfill goes through: those that carry a legacy key, by age, up
to the limit. -/
def window (limit : Option Int) (s : Store) : List Claim :=
  takeLimit limit ((byAge s.claims).filter needsNormalization)

theorem sublist_takeLimit {α : Type} (xs : List α) : (takeLimit limit xs).Sublist xs := by
  cases limit with
  | none => exact .refl xs
  | some n =>
      change (if 0 ≤ n then _ else _ : List α).Sublist xs
      split <;> exact List.take_sublist _ _

theorem mem_byAge {xs : List Claim} : x ∈ byAge xs ↔ x ∈ xs :=
  (List.mergeSort_perm _ _).mem_iff

theorem mem_claims_of_mem_window {s : Store} (h : x ∈ window limit s) :
    x ∈ s.claims ∧ x.needsNormalization = true := by
  have hmem := (sublist_takeLimit _).subset h
  rw [List.mem_filter, mem_byAge] at hmem
  exact hmem

/-- How many claims carry no legacy key. -/
def skippedIn (s : Store) : Nat :=
  (byAge s.claims).length - ((byAge s.claims).filter needsNormalization).length

/-- The claims with a legacy key are told exactly in a store whose claims are legible. -/
theorem candidates_of_legible {s : Store} (h : s.Legible) :
    candidates (byAge s.claims) = .ok ((byAge s.claims).filter needsNormalization) :=
  candidates_eq_ok_iff.2 ⟨fun x hx => h x (mem_byAge.1 hx), rfl⟩

theorem exists_candidates_error {s : Store} (h : ¬ s.Legible) :
    ∃ e, candidates (byAge s.claims) = .error e := by
  rcases hcandidates : candidates (byAge s.claims) with e | ys
  · exact ⟨e, rfl⟩
  · obtain ⟨hall, -⟩ := candidates_eq_ok_iff.1 hcandidates
    exact absurd (fun x hx => hall x (mem_byAge.2 hx)) h

/-- Where a claim is not legible a backfill fails before it begins, and so does a dry run. -/
theorem backfill_of_candidates_error {dryRun : Bool} {e : Fault}
    (h : candidates (byAge w.store.claims) = .error e) :
    backfill limit dryRun c w = (.error e, w) := by
  simp only [backfill, bind_eq, store_andThen, h]
  rfl

/-- A backfill with a result found all claims legible. -/
theorem legible_of_backfill {dryRun : Bool} (h : backfill limit dryRun c w = (.ok stats, w')) :
    w.store.Legible := by
  by_contra hnot
  obtain ⟨e, he⟩ := exists_candidates_error hnot
  rw [backfill_of_candidates_error he] at h
  cases h

/-- A dry run counts its window. -/
theorem backfill_dryRun (h : w.store.Legible) : backfill limit true c w =
    (.ok ⟨(window limit w.store).length, skippedIn w.store, []⟩, w) := by
  simp only [backfill, bind_eq, store_andThen, candidates_of_legible h]
  rfl

/-- A backfill of legible claims converts its window, then makes the rows, then writes them. -/
theorem backfill_run (h : w.store.Legible) : backfill limit false c w =
    match convertAll (window limit w.store) with
    | .error e => (.error e, w)
    | .ok (converted, errors) =>
      match convertedRows c.now converted with
      | .error e => (.error e, w)
      | .ok rows =>
        (.ok ⟨converted.length, skippedIn w.store, errors⟩,
          { store := rows.foldl Store.putClaim w.store
            events := (if converted.isEmpty then [] else [.claimsNormalized converted.length]) ++
              w.events }) := by
  simp only [backfill, bind_eq, store_andThen, candidates_of_legible h, ofExcept_ok_andThen,
    Bool.false_eq_true, if_false]
  change (Action.ofExcept (convertAll (window limit w.store))).andThen _ c w = _
  rcases convertAll (window limit w.store) with e | ⟨converted, errors⟩
  · rfl
  · simp only [ofExcept_ok_andThen, now_andThen]
    rcases convertedRows c.now converted with e | rows
    · rfl
    · cases converted <;> rfl

/-- A backfill has a result exactly where all claims are legible, its window is converted and
the rows are made. -/
theorem backfill_eq_ok_iff : backfill limit false c w = (.ok stats, w') ↔
    w.store.Legible ∧
    ∃ converted rows, convertAll (window limit w.store) = .ok (converted, stats.errors) ∧
      convertedRows c.now converted = .ok rows ∧
      stats = ⟨converted.length, skippedIn w.store, stats.errors⟩ ∧
      w' = { store := rows.foldl Store.putClaim w.store
             events := (if converted.isEmpty then [] else [.claimsNormalized converted.length]) ++
               w.events } := by
  obtain ⟨normalizedCount, skippedCount, errors⟩ := stats
  constructor
  · intro h
    have hlegible := legible_of_backfill h
    refine ⟨hlegible, ?_⟩
    rw [backfill_run hlegible] at h
    split at h
    · cases h
    · next converted reported hconverted =>
      split at h
      · cases h
      · next rows hrows =>
        simp only [Prod.mk.injEq, Except.ok.injEq, BackfillStats.mk.injEq] at h
        obtain ⟨⟨rfl, rfl, rfl⟩, rfl⟩ := h
        exact ⟨converted, rows, hconverted, hrows, rfl, rfl⟩
  · rintro ⟨hlegible, converted, rows, hconverted, hrows, hstats, rfl⟩
    rw [backfill_run hlegible, hconverted, hstats]
    dsimp only
    rw [hrows]

/-- The claims of a window are legible, where all are, and carry a legacy key. -/
theorem legible_of_mem_window {s : Store} (h : s.Legible) :
    ∀ x ∈ window limit s, x.Legible ∧ x.needsNormalization = true := fun x hx =>
  ⟨h x (mem_claims_of_mem_window hx).1, (mem_claims_of_mem_window hx).2⟩

/-- A backfill with a result went through its window, counted the convertible claims,
reported the refused ones, and normalized the window in the table. -/
theorem backfill_effect (hs : (w.store.claims.map Claim.id).Nodup)
    (h : backfill limit false c w = (.ok stats, w')) :
    (∀ x ∈ window limit w.store, x.Regular) ∧
      stats.normalizedCount = ((window limit w.store).filter isConvertible).length ∧
      stats.errors.map BackfillError.claimId =
        ((window limit w.store).filter isRefused).map Claim.id ∧
      w'.store = { w.store with
        claims := w.store.claims.map fun x =>
          if x ∈ window limit w.store then x.normalized c.now else x } := by
  obtain ⟨hlegible, converted, rows, hconverted, hrows, hstats, rfl⟩ := backfill_eq_ok_iff.1 h
  obtain ⟨hfst, hamounts, herrors, hall⟩ :=
    convertAll_ok (legible_of_mem_window hlegible) hconverted
  obtain ⟨rfl, hkept⟩ := convertedRows_ok hamounts hrows
  refine ⟨?_, ?_, herrors, ?_⟩
  · intro x hx
    rcases hall x hx with hconv | hrefused
    · have hmem : x ∈ converted.map Prod.fst := hfst ▸ List.mem_filter.2 ⟨hx, hconv⟩
      obtain ⟨e, he, rfl⟩ := List.mem_map.1 hmem
      obtain ⟨k, hk⟩ := hkept e he
      exact .inl ⟨_, hk⟩
    · exact .inr hrefused
  · rw [hstats, ← hfst, List.length_map]
  · rw [hfst, foldl_putClaim_normalized hs fun x hx =>
      (mem_claims_of_mem_window (List.mem_of_mem_filter hx)).1]
    simp only [Store.mk.injEq, true_and, and_true]
    refine List.map_congr_left fun x _ => ?_
    -- A refused claim in the window stays, like those outside.
    by_cases hx : x ∈ window limit w.store
    · rcases hall x hx with hconv | hrefused
      · simp [hx, hconv]
      · simp [hx, normalized_of_isRefused hrefused]
    · simp [hx]

/-- A backfill of legible claims whose window has no fault ends with a result. -/
theorem backfill_total (hlegible : w.store.Legible)
    (hwindow : ∀ x ∈ window limit w.store, x.Regular) :
    ∃ stats w', backfill limit false c w = (.ok stats, w') := by
  have hneeds : ∀ x ∈ window limit w.store, x.Legible ∧ x.needsNormalization = true :=
    legible_of_mem_window hlegible
  obtain ⟨⟨converted, errors⟩, hconverted⟩ := convertAll_total fun x hx =>
    ((hwindow x hx).cases (hneeds x hx).2).imp_left And.left
  obtain ⟨hfst, hamounts, -, -⟩ := convertAll_ok hneeds hconverted
  have hkept : ∀ e ∈ converted, ∃ k, e.1.keptAmounts e.2 = .ok k := by
    intro e he
    have hmem : e.1 ∈ (window limit w.store).filter isConvertible :=
      hfst ▸ List.mem_map_of_mem he
    obtain ⟨hx, hconv⟩ := List.mem_filter.1 hmem
    rcases (hwindow e.1 hx).cases (hneeds e.1 hx).2 with ⟨-, k, hk⟩ | hrefused
    · obtain ⟨a, ha, hkept⟩ := outcome_eq_some_iff.1 hk
      rw [hamounts e he] at ha
      obtain rfl : e.2 = a := by simpa using ha
      exact ⟨k, hkept⟩
    · rw [not_isRefused_of_isConvertible hconv] at hrefused
      cases hrefused
  obtain ⟨rows, hrows⟩ : ∃ rows, convertedRows c.now converted = .ok rows :=
    convertedRows_total hkept
  rw [backfill_run hlegible, hconverted]
  dsimp only
  rw [hrows]
  exact ⟨_, _, rfl⟩

/-- A backfill has a result exactly if all claims are legible and those in its window have no
fault but refusals. -/
theorem backfill_total_iff (hs : (w.store.claims.map Claim.id).Nodup) :
    (∃ stats w', backfill limit false c w = (.ok stats, w')) ↔
      w.store.Legible ∧ ∀ x ∈ window limit w.store, x.Regular :=
  ⟨fun ⟨_, _, h⟩ => ⟨legible_of_backfill h, (backfill_effect hs h).1⟩,
    fun ⟨hlegible, hwindow⟩ => backfill_total hlegible hwindow⟩

/-- A backfill that fails changes nothing. -/
theorem world_of_backfill_error {dryRun : Bool} {e : Fault}
    (h : backfill limit dryRun c w = (.error e, w')) : w' = w := by
  by_cases hlegible : w.store.Legible
  · cases dryRun with
    | true =>
        rw [backfill_dryRun hlegible] at h
        cases h
    | false =>
        rw [backfill_run hlegible] at h
        split at h
        · exact (Prod.mk.inj h).2.symm
        · split at h
          · exact (Prod.mk.inj h).2.symm
          · cases h
  · obtain ⟨f, hf⟩ := exists_candidates_error hlegible
    rw [backfill_of_candidates_error hf] at h
    exact (Prod.mk.inj h).2.symm

/-- A backfill fails with no refusal: it reports refused claims. -/
theorem neverRefuses_backfill (dryRun : Bool) : NeverRefuses (backfill limit dryRun c w).1 := by
  by_cases hlegible : w.store.Legible
  · cases dryRun with
    | true => simp [backfill_dryRun hlegible, neverRefuses_ok]
    | false =>
        intro e
        rw [backfill_run hlegible]
        rcases hconverted : convertAll (window limit w.store) with f | ⟨converted, errors⟩
        · intro h
          rw [Except.error.inj h] at hconverted
          exact neverRefuses_convertAll _ e hconverted
        · dsimp only
          rcases hrows : convertedRows c.now converted with f | rows
          · intro h
            rw [Except.error.inj h] at hrows
            exact neverRefuses_convertedRows _ e hrows
          · simp
  · obtain ⟨f, hf⟩ := exists_candidates_error hlegible
    rw [backfill_of_candidates_error hf]
    intro e he
    rw [Except.error.inj he] at hf
    exact neverRefuses_candidates _ e hf

end Operations

end Claim

end VaultGovernance
