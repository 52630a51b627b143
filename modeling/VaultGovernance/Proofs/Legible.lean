import VaultGovernance.Claim.Normalization
import VaultGovernance.Proofs.Refusals
import VaultGovernance.Proofs.Showable

/-!
# VaultGovernance.Proofs.Legible

Which claims can be read and looked through for legacy keys (`Claim.Legible`).  Metadata need
not be an object.  A claim whose metadata are a list or a text with a legacy key in it is
legible, and yet nothing is moved out of it, since no object can be made of such metadata
(`Claim.makeObject_eq_ok_iff`).  Where a claim is not legible no backfill has a result.
-/

namespace VaultGovernance

namespace Claim

variable {x : Claim}

/-! ## Metadata -/

section Metadata

variable {metadata : Json} {items : List Json}

theorem findLegacy_eq_ok_iff {found : Bool} : findLegacy metadata = .ok found ↔
    isSearchable metadata = true ∧ carriesLegacy metadata = found := by
  rw [findLegacy]
  split
  · next h => simp [h]
  · next h => simp [h]

theorem findLegacy_eq_error_iff {e : Fault} : findLegacy metadata = .error e ↔
    isSearchable metadata = false ∧ e = .wrongType := by
  rw [findLegacy]
  split
  · next h => simp [h]
  · next h => simp [h, eq_comm]

/-- A key is found only where it can be looked for. -/
theorem isSearchable_of_carriesLegacy (h : carriesLegacy metadata = true) :
    isSearchable metadata = true := by
  cases metadata <;> first | rfl | cases h

theorem isSearchable_ofOption (entries : Option (OrderedMap Json)) :
    isSearchable (Json.ofOption .obj entries) = true := by
  cases entries <;> rfl

/-- Items of which entries are made are entries, each of them. -/
theorem makeEntry_of_makeEntries {position : Nat} (h : makeEntries position items = .ok ())
    {item : Json} (hitem : item ∈ items) : ∃ k, makeEntry k item = .ok () := by
  induction items generalizing position with
  | nil => cases hitem
  | cons first rest ih =>
      obtain ⟨_, hfirst, hrest⟩ := bind_eq_ok.1 h
      rcases List.mem_cons.1 hitem with rfl | hmem
      · exact ⟨position, hfirst⟩
      · exact ih hrest hmem

/-- Metadata that carry a legacy key can be copied only if they are an object: the key is no
entry of a list, and no character is one of a text. -/
theorem makeObject_eq_ok_iff (h : carriesLegacy metadata = true) :
    makeObject metadata = .ok () ↔ ∃ entries, metadata = .obj entries := by
  cases metadata with
  | obj entries => exact iff_of_true rfl ⟨entries, rfl⟩
  | arr items =>
      refine iff_of_false (fun hmade => ?_) (by simp)
      have hkey : .str adaAmountKey ∈ items ∨ .str multiplierKey ∈ items := by
        simpa [carriesLegacy, holdsKey] using h
      rcases hkey with hmem | hmem <;>
        obtain ⟨k, hentry⟩ := makeEntry_of_makeEntries hmade hmem <;> cases hentry
  | str s =>
      refine iff_of_false (fun hmade => ?_) (by simp)
      cases hs : s.toList with
      | nil =>
          rw [carriesLegacy, holdsKey, holdsKey, hs] at h
          cases h
      | cons c rest =>
          have hmem : .str (String.singleton c) ∈
              s.toList.map fun c => Json.str (String.singleton c) := by simp [hs]
          obtain ⟨k, hentry⟩ := makeEntry_of_makeEntries hmade hmem
          simp [makeEntry, Json.elements, bind, Except.bind] at hentry
  | _ => cases h

end Metadata

/-! ## One claim -/

/-- A claim can be read from its row, and its metadata can be looked through. -/
structure Legible (x : Claim) : Prop where
  loads : x.load = .ok ()
  searchable : isSearchable x.metadata = true

theorem load_eq_ok_iff : x.load = .ok () ↔ x.metadata.canShow = true := by
  rw [load, Json.canShow]
  cases x.metadata.overlong? <;> simp

/-- A claim that is read is normalized by its amounts. -/
theorem conversion_of_loads (h : x.load = .ok ()) :
    x.conversion = normalizeAmounts x.id.toJson x.amounts := by
  rw [conversion, h]
  rfl

/-- Amounts without a legacy key are left alone. -/
theorem normalizeAmounts_eq_none_iff {claimId : Json} {a : Amounts} :
    normalizeAmounts claimId a = .ok none ↔
      isSearchable a.metadata = true ∧ carriesLegacy a.metadata = false := by
  rw [← findLegacy_eq_ok_iff, normalizeAmounts, bind_eq_ok]
  constructor
  · rintro ⟨found, hfound, h⟩
    cases found with
    | false => exact hfound
    | true =>
        simp only [if_true, bind_eq_ok, pure_eq_ok] at h
        obtain ⟨_, -, _, -, _, -, hsome⟩ := h
        cases hsome
  · exact fun h => ⟨false, h, rfl⟩

/-- Amounts are moved only out of an object, which then is without legacy keys. -/
theorem exists_of_normalizeAmounts {claimId : Json} {a b : Amounts}
    (h : normalizeAmounts claimId a = .ok (some b)) :
    ∃ entries, a.metadata = .obj entries ∧ carriesLegacy a.metadata = true ∧
      b.metadata = withoutLegacy a.metadata := by
  rw [normalizeAmounts, bind_eq_ok] at h
  obtain ⟨found, hfound, h⟩ := h
  cases found with
  | false => cases h
  | true =>
      obtain ⟨-, hpresent⟩ := findLegacy_eq_ok_iff.1 hfound
      simp only [if_true, bind_eq_ok, pure_eq_ok, Option.some.injEq] at h
      obtain ⟨_, hmade, _, -, _, -, rfl⟩ := h
      obtain ⟨entries, hentries⟩ := (makeObject_eq_ok_iff hpresent).1 hmade
      exact ⟨entries, hentries, hpresent, rfl⟩

/-- What is moved is no longer there. -/
theorem carriesLegacy_withoutLegacy (metadata : Json) :
    carriesLegacy (withoutLegacy metadata) = false := by
  simp [withoutLegacy, carriesLegacy, holdsKey, OrderedMap.has, OrderedMap.get?_remove]

/-- Metadata that can be shown still can without the legacy keys. -/
theorem canShow_withoutLegacy {entries : OrderedMap Json}
    (h : (Json.obj entries).canShow = true) : (withoutLegacy (.obj entries)).canShow = true := by
  rw [Json.canShow_obj_iff] at h
  exact Json.canShow_obj_iff.2 fun e he =>
    h e (List.mem_of_mem_filter (List.mem_of_mem_filter he))

/-- A claim of which normalizing makes something was legible. -/
theorem legible_of_conversion {r : Option Amounts} (h : x.conversion = .ok r) : x.Legible := by
  obtain ⟨_, hloads, h⟩ := bind_eq_ok.1 h
  obtain ⟨_, hfound, -⟩ := bind_eq_ok.1 h
  exact ⟨hloads, (findLegacy_eq_ok_iff.1 hfound).1⟩

/-- There is nothing to do exactly for legible claims without a legacy key. -/
theorem conversion_eq_none_iff :
    x.conversion = .ok none ↔ x.Legible ∧ x.needsNormalization = false := by
  constructor
  · intro h
    have hlegible := legible_of_conversion h
    rw [conversion_of_loads hlegible.loads] at h
    exact ⟨hlegible, (normalizeAmounts_eq_none_iff.1 h).2⟩
  · rintro ⟨hlegible, hneeds⟩
    rw [conversion_of_loads hlegible.loads]
    exact normalizeAmounts_eq_none_iff.2 ⟨hlegible.searchable, hneeds⟩

/-- A claim out of which amounts are moved carries a legacy key. -/
theorem needs_of_conversion {a : Amounts} (h : x.conversion = .ok (some a)) :
    x.needsNormalization = true := by
  rw [conversion_of_loads (legible_of_conversion h).loads] at h
  obtain ⟨_, -, hpresent, -⟩ := exists_of_normalizeAmounts h
  exact hpresent

theorem neverRefuses_load : NeverRefuses x.load := by
  intro e h
  rw [load] at h
  split at h <;> cases h

theorem neverRefuses_findLegacy (metadata : Json) : NeverRefuses (findLegacy metadata) := by
  intro e h
  rw [findLegacy] at h
  split at h <;> cases h

theorem makeEntry_error {position : Nat} {item : Json} {e : Fault}
    (h : makeEntry position item = .error e) :
    e = .wrongType ∨ ∃ message, e = .badValue message := by
  rcases bind_eq_error.1 h with helements | ⟨parts, -, h⟩
  · exact .inl (Json.elements_eq_error helements)
  · split at h
    · exact .inl (Except.error.inj h).symm
    · exact .inl (Except.error.inj h).symm
    · cases h
    · exact .inr ⟨_, (Except.error.inj h).symm⟩

theorem makeEntries_error {position : Nat} {items : List Json} {e : Fault}
    (h : makeEntries position items = .error e) :
    e = .wrongType ∨ ∃ message, e = .badValue message := by
  induction items generalizing position with
  | nil => cases h
  | cons item rest ih =>
      rcases bind_eq_error.1 h with hfirst | ⟨_, -, hrest⟩
      · exact makeEntry_error hfirst
      · exact ih hrest

/-- Metadata that cannot be copied have a wrong type, or the wrong value for an object. -/
theorem makeObject_error {metadata : Json} {e : Fault} (h : makeObject metadata = .error e) :
    e = .wrongType ∨ ∃ message, e = .badValue message := by
  rw [makeObject.eq_def] at h
  split at h
  · cases h
  · rcases bind_eq_error.1 h with helements | ⟨items, -, hitems⟩
    · exact .inl (Json.elements_eq_error helements)
    · exact makeEntries_error hitems

/-! ## All claims -/

theorem loadAll_eq_ok_iff {xs : List Claim} :
    loadAll xs = .ok () ↔ ∀ x ∈ xs, x.load = .ok () := by
  induction xs with
  | nil => simp [loadAll]
  | cons x xs ih =>
      rw [loadAll, bind_eq_ok, List.forall_mem_cons, ih]
      exact ⟨fun ⟨_, hx, hxs⟩ => ⟨hx, hxs⟩, fun ⟨hx, hxs⟩ => ⟨(), hx, hxs⟩⟩

/-- The claims with a legacy key are told exactly if all claims are legible. -/
theorem candidates_eq_ok_iff {xs ys : List Claim} : candidates xs = .ok ys ↔
    (∀ x ∈ xs, x.Legible) ∧ ys = xs.filter needsNormalization := by
  rw [candidates, bind_eq_ok]
  constructor
  · rintro ⟨_, hloads, h⟩
    split at h
    · next hsearchable =>
      rw [List.all_eq_true] at hsearchable
      exact ⟨fun x hx => ⟨loadAll_eq_ok_iff.1 hloads x hx, hsearchable x hx⟩,
        (pure_eq_ok.1 h).symm⟩
    · cases h
  · rintro ⟨hall, rfl⟩
    refine ⟨(), loadAll_eq_ok_iff.2 fun x hx => (hall x hx).loads, ?_⟩
    rw [if_pos (List.all_eq_true.2 fun x hx => (hall x hx).searchable)]
    rfl

/-- Where the claims with a legacy key cannot be told one of the claims has that fault. -/
theorem conversion_of_candidates_error {xs : List Claim} {e : Fault}
    (h : candidates xs = .error e) : ∃ x ∈ xs, x.conversion = .error e := by
  have hloadAll {ys : List Claim} (h : loadAll ys = .error e) :
      ∃ x ∈ ys, x.load = .error e := by
    induction ys with
    | nil => cases h
    | cons y ys ih =>
        rcases bind_eq_error.1 h with hy | ⟨_, -, hys⟩
        · exact ⟨y, List.mem_cons_self, hy⟩
        · obtain ⟨x, hx, hfails⟩ := ih hys
          exact ⟨x, List.mem_cons_of_mem _ hx, hfails⟩
  rcases bind_eq_error.1 h with hloads | ⟨_, hloads, h⟩
  · obtain ⟨x, hx, hfails⟩ := hloadAll hloads
    exact ⟨x, hx, bind_eq_error.2 (.inl hfails)⟩
  · split at h
    · cases h
    · next hsearchable =>
      obtain ⟨x, hx, hhidden⟩ : ∃ x ∈ xs, isSearchable x.metadata = false := by
        simpa using hsearchable
      cases h
      refine ⟨x, hx, ?_⟩
      rw [conversion_of_loads (loadAll_eq_ok_iff.1 hloads x hx)]
      exact bind_eq_error.2 (.inl (findLegacy_eq_error_iff.2 ⟨hhidden, rfl⟩))

theorem neverRefuses_loadAll (xs : List Claim) : NeverRefuses (loadAll xs) := by
  induction xs with
  | nil => exact neverRefuses_ok ()
  | cons x xs ih => exact neverRefuses_load.bind fun _ => ih

theorem neverRefuses_candidates (xs : List Claim) : NeverRefuses (candidates xs) := by
  refine (neverRefuses_loadAll xs).bind fun _ => ?_
  intro e h
  split at h <;> cases h

end Claim

/-- Every claim of a store is legible. -/
def Store.Legible (s : Store) : Prop := ∀ x ∈ s.claims, x.Legible

end VaultGovernance
