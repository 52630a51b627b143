import VaultGovernance.Proofs.Execution

/-!
# VaultGovernance.Proofs.Entries

The entries of a list of assets.  Each one is judged by itself and by the entries before
it: it refers to nothing, or not to an identifier, or to one that was named before, or to
no locked asset of the vault (`Distribution.Offends`).  The check of a list goes through it
once and looks the assets up afterwards, so it finds the entries that offend in another
order, but each of them once and no others (`Distribution.reported_badEntries`).  A list
without such entries names distinct locked assets of the vault (`Distribution.Pays`), and the
reader that is used on execution reads these.
-/

namespace VaultGovernance

namespace Distribution

variable {s : Store} {vaultId : Uuid} {entry : Json} {entries earlier : List Json}
  {seen ids : List Uuid} {good : List (Json × Uuid)}

/-! ## Entries that offend -/

/-- The identifier that an entry names, if it refers to one. -/
def named? (entry : Json) : Option Uuid :=
  if reference entry = .null then none else Uuid.ofText? (reference entry).display

/-- One of the entries names an identifier. -/
def Names (entries : List Json) (id : Uuid) : Prop := ∃ e ∈ entries, named? e = some id

/-- The entries name these identifiers, in order and each once, and all of them are locked
assets of the vault. -/
structure Pays (s : Store) (vaultId : Uuid) (entries : List Json) (ids : List Uuid) : Prop where
  named : entries.map named? = ids.map some
  nodup : ids.Nodup
  locked : ∀ id ∈ ids, s.AssetIn vaultId .locked id

/-- What is wrong with an entry that comes after earlier ones. -/
inductive Offends (s : Store) (vaultId : Uuid) (earlier : List Json) (entry : Json) :
    String → Prop
  | missing (absent : reference entry = .null) :
      Offends s vaultId earlier entry "missing asset id"
  | malformed (given : reference entry ≠ .null)
      (unread : Uuid.ofText? (reference entry).display = none) :
      Offends s vaultId earlier entry "malformed asset id"
  | duplicate {id : Uuid} (names : named? entry = some id)
      (again : Names earlier id) :
      Offends s vaultId earlier entry "duplicate asset id"
  | foreign {id : Uuid} (names : named? entry = some id)
      (first : ¬ Names earlier id)
      (unlocked : ¬ s.AssetIn vaultId .locked id) :
      Offends s vaultId earlier entry "not a locked asset of this vault"

/-- A report on entries that come after earlier ones: one item for each entry that offends,
with what is wrong with it, and none for the others. -/
inductive Reported (s : Store) (vaultId : Uuid) :
    (earlier entries : List Json) → List BadEntry → Prop
  | nil {earlier : List Json} : Reported s vaultId earlier [] []
  | offending {earlier rest : List Json} {entry : Json} {bad : List BadEntry} {reason : String}
      (offends : Offends s vaultId earlier entry reason)
      (later : Reported s vaultId (earlier ++ [entry]) rest bad) :
      Reported s vaultId earlier (entry :: rest) (⟨entry, reason⟩ :: bad)
  | sound {earlier rest : List Json} {entry : Json} {bad : List BadEntry} {id : Uuid}
      (names : named? entry = some id)
      (first : ¬ Names earlier id)
      (locked : s.AssetIn vaultId .locked id)
      (later : Reported s vaultId (earlier ++ [entry]) rest bad) :
      Reported s vaultId earlier (entry :: rest) bad

theorem ofText?_of_named? {id : Uuid} (h : named? entry = some id) :
    reference entry ≠ .null ∧ Uuid.ofText? (reference entry).display = some id := by
  rw [named?] at h
  split at h
  · cases h
  · next hgiven => exact ⟨hgiven, h⟩

/-! ## The report -/

theorem isLocked_iff {id : Uuid} : isLocked s vaultId id = true ↔ s.AssetIn vaultId .locked id := by
  rw [isLocked, Store.AssetIn]
  cases s.asset? id <;> simp

/-- The entries that were read and name no locked asset of the vault. -/
def foreignEntries (s : Store) (vaultId : Uuid) (good : List (Json × Uuid)) : List BadEntry :=
  (good.filter fun e => !isLocked s vaultId e.2).map fun e =>
    ⟨e.1, "not a locked asset of this vault"⟩

theorem foreignEntries_cons {id : Uuid} : foreignEntries s vaultId ((entry, id) :: good) =
    if isLocked s vaultId id = true then foreignEntries s vaultId good
    else ⟨entry, "not a locked asset of this vault"⟩ :: foreignEntries s vaultId good := by
  by_cases h : isLocked s vaultId id = true <;> simp [foreignEntries, h]

theorem names_concat {id : Uuid} :
    Names (earlier ++ [entry]) id ↔ Names earlier id ∨ named? entry = some id := by
  simp only [Names, List.mem_append, List.mem_singleton, or_and_right, exists_or, exists_eq_left]

/-- What is kept in mind of the entries so far is all that they name, so an entry that names
nothing else adds nothing to it. -/
theorem mem_seen_concat (entry : Json) (hseen : ∀ id, id ∈ seen ↔ Names earlier id)
    (hknown : ∀ id, named? entry = some id → id ∈ seen) (id : Uuid) :
    id ∈ seen ↔ Names (earlier ++ [entry]) id := by
  rw [names_concat, ← hseen]
  constructor
  · exact .inl
  · intro h
    cases h with
    | inl hold => exact hold
    | inr hnames => exact hknown id hnames

/-- Reading a list and then looking its assets up finds the entries that offend. -/
theorem reported_resolve (hseen : ∀ id, id ∈ seen ↔ Names earlier id) :
    ∃ bad, Reported s vaultId earlier entries bad ∧
      bad.Perm ((resolve seen entries).1 ++ foreignEntries s vaultId (resolve seen entries).2) := by
  induction entries generalizing seen earlier with
  | nil => exact ⟨[], .nil, .refl _⟩
  | cons entry rest ih =>
      rw [resolve]
      by_cases hnull : reference entry = .null
      · have hnone : named? entry = none := if_pos hnull
        obtain ⟨bad, hbad, hperm⟩ := ih (mem_seen_concat entry hseen (by simp [hnone]))
        rw [if_pos (Json.isNull_iff.2 hnull)]
        exact ⟨_, .offending (.missing hnull) hbad, hperm.cons _⟩
      rw [if_neg (by rwa [Json.isNull_iff])]
      have hnames : named? entry = Uuid.ofText? (reference entry).display := if_neg hnull
      cases hid : Uuid.ofText? (reference entry).display with
      | none =>
          rw [hid] at hnames
          obtain ⟨bad, hbad, hperm⟩ := ih (mem_seen_concat entry hseen (by simp [hnames]))
          exact ⟨_, .offending (.malformed hnull hid) hbad, hperm.cons _⟩
      | some id =>
          rw [hid] at hnames
          by_cases hold : id ∈ seen
          · obtain ⟨bad, hbad, hperm⟩ :=
              ih (mem_seen_concat entry hseen (by simp [hnames, hold]))
            simp only [List.contains_iff_mem, if_pos hold]
            exact ⟨_, .offending (.duplicate hnames ((hseen id).1 hold)) hbad, hperm.cons _⟩
          · have hfirst : ¬ Names earlier id := fun h => hold ((hseen id).2 h)
            have hmore (id' : Uuid) : id' ∈ id :: seen ↔ Names (earlier ++ [entry]) id' := by
              rw [names_concat, ← hseen, hnames, Option.some.injEq, List.mem_cons, or_comm, eq_comm]
            obtain ⟨bad, hbad, hperm⟩ := ih hmore
            simp only [List.contains_iff_mem, if_neg hold, foreignEntries_cons]
            by_cases hlocked : isLocked s vaultId id = true
            · rw [if_pos hlocked]
              exact ⟨bad, .sound hnames hfirst (isLocked_iff.1 hlocked) hbad, hperm⟩
            · rw [if_neg hlocked]
              exact ⟨_, .offending (.foreign hnames hfirst (hlocked ∘ isLocked_iff.2)) hbad,
                (hperm.cons _).trans List.perm_middle.symm⟩

/-- The check reports the entries that offend, each of them once and no others. -/
theorem reported_badEntries (s : Store) (vaultId : Uuid) (entries : List Json) :
    ∃ bad, Reported s vaultId [] entries bad ∧ bad.Perm (badEntries s vaultId entries) :=
  reported_resolve (by simp [Names])

/-- A list pays if its first entry names a locked asset and the others pay others. -/
theorem pays_cons_iff : Pays s vaultId (entry :: entries) ids ↔
    ∃ id rest, ids = id :: rest ∧ named? entry = some id ∧ id ∉ rest ∧
      s.AssetIn vaultId .locked id ∧ Pays s vaultId entries rest := by
  constructor
  · intro h
    obtain ⟨hnamed, hnodup, hlocked⟩ := h
    cases ids with
    | nil => cases hnamed
    | cons id rest =>
        obtain ⟨hfirst, hrest⟩ := List.cons.inj hnamed
        rw [List.nodup_cons] at hnodup
        rw [List.forall_mem_cons] at hlocked
        exact ⟨id, rest, rfl, hfirst, hnodup.1, hlocked.1, hrest, hnodup.2, hlocked.2⟩
  · intro h
    obtain ⟨id, rest, rfl, hfirst, hnew, hlocked, hrest⟩ := h
    constructor
    · rw [List.map_cons, List.map_cons, hfirst, hrest.named]
    · exact List.nodup_cons.2 ⟨hnew, hrest.nodup⟩
    · exact List.forall_mem_cons.2 ⟨hlocked, hrest.locked⟩

/-- An entry that offends names nothing, or what was named before, or no locked asset. -/
theorem Offends.wrong {reason : String} (h : Offends s vaultId earlier entry reason) {id : Uuid}
    (names : named? entry = some id) :
    Names earlier id ∨ ¬ s.AssetIn vaultId .locked id := by
  obtain ⟨hgiven, hread⟩ := ofText?_of_named? names
  cases h with
  | missing absent => exact absurd absent hgiven
  | malformed given unread =>
      rw [unread] at hread
      cases hread
  | duplicate names' again =>
      rw [names] at names'
      obtain rfl := Option.some.inj names'
      exact .inl again
  | foreign names' first unlocked =>
      rw [names] at names'
      obtain rfl := Option.some.inj names'
      exact .inr unlocked

/-- Nothing is reported exactly of a list that pays nothing that was named before. -/
theorem Reported.eq_nil_iff {bad : List BadEntry} (h : Reported s vaultId earlier entries bad) :
    bad = [] ↔ ∃ ids, Pays s vaultId entries ids ∧ ∀ id ∈ ids, ¬ Names earlier id := by
  induction h with
  | nil => exact iff_of_true rfl ⟨[], ⟨rfl, List.nodup_nil, by simp⟩, by simp⟩
  | offending offends later ih =>
      refine iff_of_false (List.cons_ne_nil _ _) ?_
      intro h
      obtain ⟨ids, hpays, hnew⟩ := h
      obtain ⟨id, rest, rfl, hnames, -, hlocked, -⟩ := pays_cons_iff.1 hpays
      cases offends.wrong hnames with
      | inl again => exact hnew id List.mem_cons_self again
      | inr unlocked => exact unlocked hlocked
  | @sound earlier rest entry bad id names first locked later ih =>
      rw [ih]
      constructor
      · intro h
        obtain ⟨ids, hpays, hnew⟩ := h
        have hother : id ∉ ids := fun hmem => hnew id hmem (names_concat.2 (.inr names))
        refine ⟨id :: ids, pays_cons_iff.2 ⟨id, ids, rfl, names, hother, locked, hpays⟩, ?_⟩
        exact List.forall_mem_cons.2
          ⟨first, fun id' hid' hold => hnew id' hid' (names_concat.2 (.inl hold))⟩
      · intro h
        obtain ⟨ids, hpays, hnew⟩ := h
        obtain ⟨id', ids', rfl, hnames, hother, -, hrest⟩ := pays_cons_iff.1 hpays
        rw [names] at hnames
        obtain rfl := Option.some.inj hnames
        refine ⟨ids', hrest, fun id'' hid'' hold => ?_⟩
        cases names_concat.1 hold with
        | inl hearlier => exact hnew id'' (List.mem_cons_of_mem _ hid'') hearlier
        | inr hlast =>
            rw [names] at hlast
            obtain rfl := Option.some.inj hlast
            exact hother hid''

/-- The check finds nothing exactly in a list that pays. -/
theorem badEntries_eq_nil_iff : badEntries s vaultId entries = [] ↔
    ∃ ids, Pays s vaultId entries ids := by
  obtain ⟨bad, hbad, hperm⟩ := reported_badEntries s vaultId entries
  have hnil := hbad.eq_nil_iff
  simp only [Names, List.not_mem_nil, false_and, exists_false, not_false_iff, implies_true,
    and_true] at hnil
  rw [← hnil]
  constructor
  · intro h
    rw [h] at hperm
    exact hperm.eq_nil
  · intro h
    rw [h] at hperm
    exact hperm.symm.eq_nil

/-- The check of a value with these entries. -/
theorem check_eq {assets : Json} (hentries : assets.elements = .ok entries) :
    check s vaultId assets = if badEntries s vaultId entries = [] then .ok ()
    else .error (.refusal (.invalidPayload (Choice.toJson ProposalType.distribution) [] []
      [(field, .arr ((badEntries s vaultId entries).map BadEntry.toJson))])) := by
  rw [check, hentries]
  simp only [← List.isEmpty_iff]
  rfl

/-! ## Reading on execution -/

/-- Both readers read the same identifier. -/
theorem readEntry_of_ofText? {entry : Json} {id : Uuid}
    (h : Uuid.ofText? (reference entry).display = some id) : readEntry entry = .ok id := by
  rw [Uuid.ofText?, toOption_eq_some] at h
  rw [readEntry, h]

/-- Entries that pay are read one by one as what they pay. -/
theorem Pays.mapM_readEntry (h : Pays s vaultId entries ids) :
    entries.mapM readEntry = .ok ids := by
  induction entries generalizing ids with
  | nil =>
      have hnone : ids = [] := by simpa using h.named
      rw [hnone]
      rfl
  | cons entry rest ih =>
      obtain ⟨id, ids', rfl, hnames, -, -, hrest⟩ := pays_cons_iff.1 h
      rw [List.mapM_cons, readEntry_of_ofText? (ofText?_of_named? hnames).2, ih hrest]
      rfl

/-- A list that pays is read from its column as what it pays. -/
theorem Pays.identifiers {assets : Json} (hentries : assets.elements = .ok entries)
    (h : Pays s vaultId entries ids) : identifiers (Column.document assets) = .ok ids := by
  have hread := h.mapM_readEntry
  -- Only bare numbers change in the column, and those have no elements.
  have hcolumn : Column.document assets = assets := by
    cases assets with
    | int n => cases hentries
    | float x => cases hentries
    | _ => rfl
  rw [hcolumn, Distribution.identifiers]
  split
  · rw [hentries]
    exact hread
  · next hfalse =>
    have hempty : entries = [] := by
      cases assets <;> simp_all [Json.isTruthy, Json.elements]
    rwa [hempty, List.mapM_nil] at hread

end Distribution

end VaultGovernance
