import VaultGovernance.Proofs.Balances
import VaultGovernance.Proofs.History

/-!
# VaultGovernance.Proofs.StoredPayload

The payload of a proposal, read back from its columns.  A payload is checked against
the type when the proposal is made, and each field that counts goes through the
column that keeps it: texts and dates are converted, documents may be normalized.
No column turns a value that counts into one that does not, or the other way round,
so the columns that are populated are exactly the fields that were checked.
-/

namespace VaultGovernance

/-! ## Texts that are not empty -/

theorem natText_ne_empty (n : Nat) : natText n ≠ "" := by
  rw [natText, Ne, String.ofList_eq_empty_iff]
  exact Nat.toDigits_ne_nil

theorem intText_ne_empty (n : Int) : intText n ≠ "" := by
  rw [intText]
  split
  · simp
  · exact natText_ne_empty _

theorem placeDigits_ne_nil (ds : List Char) (point : Int) : placeDigits ds point ≠ [] := by
  rw [placeDigits]
  split
  · split <;> simp
  · simp

theorem Binary64.text_ne_empty (x : Binary64) : x.text ≠ "" := by
  cases x with
  | nan => decide
  | infinite negative => cases negative <;> decide
  | finite negative quanta =>
      rw [Binary64.text, Ne, String.ofList_eq_empty_iff]
      split
      · simp
      · split
        · simp
        · exact placeDigits_ne_nil _ _

theorem Timestamp.utcText_ne_empty (t : Timestamp) : t.utcText ≠ "" := by
  simp [utcText]

/-! ## Columns -/

namespace Column

/-- A document column is populated exactly by what counts. -/
theorem isPopulated_document (j : Json) : (document j).isPopulated = j.isPopulated := by
  cases j with
  | int n =>
      rw [document]
      split <;> rfl
  | float x =>
      rw [document]
      split
      · split <;> rfl
      · rfl
  | _ => rfl

/-- A text column is populated exactly by what counts. -/
theorem isPopulated_textOfJson {j : Json} {t : Option String} (h : textOfJson j = .ok t) :
    (Json.ofOption .str t).isPopulated = j.isPopulated := by
  cases j with
  | null | str s =>
      obtain rfl := Except.ok.inj h
      rfl
  | bool b =>
      obtain rfl := Except.ok.inj h
      cases b <;> decide
  | int n =>
      rw [textOfJson, map_eq_ok] at h
      obtain ⟨m, -, rfl⟩ := h
      exact decide_eq_true (intText_ne_empty m)
  | float x =>
      obtain rfl := Except.ok.inj h
      exact decide_eq_true x.text_ne_empty
  | arr items => cases h
  | obj es => cases h

/-- A date column is populated exactly by what counts. -/
theorem isPopulated_dateOfJson {j : Json} {t : Option Timestamp} (h : dateOfJson j = .ok t) :
    (Json.ofOption (fun t : Timestamp => .str t.utcText) t).isPopulated = j.isPopulated := by
  cases j with
  | null =>
      obtain rfl := Except.ok.inj h
      rfl
  | str s =>
      rw [dateOfJson] at h
      split at h
      · next m hm =>
        obtain rfl := Except.ok.inj h
        have hs : s ≠ "" := by
          rintro rfl
          have hnone : Moment.ofIso? "" = none := by decide
          rw [hnone] at hm
          cases hm
        have hdate := m.clock.utcText_ne_empty
        rw [Json.ofOption, Json.isPopulated, Json.isPopulated, decide_eq_true hdate,
          decide_eq_true hs]
      · cases h
  | _ => cases h

end Column

/-! ## What a payload was checked for -/

namespace OrderedMap

/-- A key is there exactly when a value is. -/
theorem mem_keys_iff {α : Type} {m : OrderedMap α} {key : String} :
    key ∈ m.keys ↔ ∃ value, m.get? key = some value := by
  induction m with
  | nil => simp [keys]
  | cons e rest ih =>
      rw [keys, List.map_cons, List.mem_cons, get?]
      by_cases h : e.1 = key
      · rw [if_pos h]
        exact ⟨fun _ => ⟨e.2, rfl⟩, fun _ => .inl h.symm⟩
      · rw [if_neg h, ← ih, keys]
        exact or_iff_right (Ne.symm h)

end OrderedMap

namespace Payload

/-- The fields that count are those with a value that does. -/
theorem mem_keys_populated {payload : OrderedMap Json} {name : String} :
    name ∈ (populated payload).keys ↔
      (value (populated payload) name).isPopulated = true := by
  rw [OrderedMap.mem_keys_iff, value]
  cases hget : (populated payload).get? name with
  | none =>
      have hnull : Json.null.isPopulated = false := rfl
      simp [hnull]
  | some j =>
      have hj : j.isPopulated = true := (List.mem_filter.1 (OrderedMap.mem_of_get? hget)).2
      simp [hj]

/-- A payload that was accepted has the fields of its type. -/
theorem validate_ok {type : ProposalType} {payload fields : OrderedMap Json}
    (h : validate type payload = .ok fields) :
    fields = populated payload ∧ (∀ f ∈ (PayloadRule.of type).requiredAll, f ∈ fields.keys) ∧
      ((PayloadRule.of type).requiredAny ≠ [] →
        ∃ f ∈ (PayloadRule.of type).requiredAny, f ∈ fields.keys) ∧
      ∀ f ∈ fields.keys, f ∈ (PayloadRule.of type).allowed := by
  rw [validate] at h
  split at h
  · next hchecks =>
    obtain rfl := Except.ok.inj h
    rw [Bool.and_eq_true, List.isEmpty_iff, List.isEmpty_iff] at hchecks
    obtain ⟨hmissing, hforbidden⟩ := hchecks
    rw [PayloadRule.missing, List.append_eq_nil_iff, List.filter_eq_nil_iff] at hmissing
    rw [PayloadRule.forbidden, List.filter_eq_nil_iff] at hforbidden
    obtain ⟨hall, hany⟩ := hmissing
    refine ⟨rfl, fun f hf => by simpa using hall f hf, fun hsome => ?_,
      fun f hf => by simpa using hforbidden f hf⟩
    split at hany
    · next hfound =>
      obtain ⟨f, hf, hkey⟩ := List.any_eq_true.1 hfound
      exact ⟨f, hf, List.contains_iff_mem.1 hkey⟩
    · exact absurd hany hsome
  · cases h

end Payload

namespace Proposal

/-- The payload columns of a proposal, as they are read back. -/
def payload (p : Proposal) : OrderedMap Json :=
  [("fungible_tokens", p.fungibleTokens),
    ("non_fungible_tokens", p.nonFungibleTokens),
    (Distribution.field, p.distributionAssets),
    ("burn_assets", p.burnAssets),
    ("marketplace_actions", p.marketplaceActions),
    ("termination_reason", Json.ofOption .str p.terminationReason),
    (dateField, Json.ofOption (fun t : Timestamp => .str t.utcText) p.terminationDate)]

/-- The payload columns that hold something that counts. -/
def populated (p : Proposal) : List String := (Payload.populated p.payload).keys

/-- The populated columns are what the type of a proposal asks for: all of the fields
that must be there, one of those of which one must be there, and no others. -/
structure FitsType (p : Proposal) : Prop where
  all : ∀ f ∈ (PayloadRule.of p.type).requiredAll, f ∈ p.populated
  any : (PayloadRule.of p.type).requiredAny ≠ [] →
    ∃ f ∈ (PayloadRule.of p.type).requiredAny, f ∈ p.populated
  only : ∀ f ∈ p.populated, f ∈ (PayloadRule.of p.type).allowed

variable {c : Context} {s : Store} {v : Vault} {x : Snapshot} {p q : Proposal}

/-- The names of the payload columns. -/
theorem keys_payload (p : Proposal) : p.payload.keys =
    ["fungible_tokens", "non_fungible_tokens", "distribution_assets", "burn_assets",
      "marketplace_actions", "termination_reason", "termination_date"] := rfl

/-- The columns have names of their own, so a column is populated exactly when its own
value counts. -/
theorem mem_populated {e : String × Json} (he : e ∈ p.payload) :
    e.1 ∈ p.populated ↔ e.2.isPopulated = true := by
  have hnames : (p.payload.map Prod.fst).Nodup := by
    rw [← OrderedMap.keys, keys_payload]
    decide
  rw [populated, OrderedMap.keys, List.mem_map]
  constructor
  · rintro ⟨e', he', hname⟩
    obtain ⟨hmem, hpopulated⟩ := List.mem_filter.1 he'
    rw [← List.inj_on_of_nodup_map hnames hmem he hname]
    exact hpopulated
  · exact fun h => ⟨e, List.mem_filter.2 ⟨he, h⟩, rfl⟩

/-- The columns of a new proposal are populated as the fields of its payload are. -/
theorem isPopulated_of_rowOf {vaultId snapshotId : Uuid} {fee : Int} {draft : Draft}
    {fields : OrderedMap Json} {options : List Ballot.OptionDraft} {time : Timestamp}
    (h : rowOf s vaultId snapshotId fee draft fields options time = .ok p) :
    ∀ e ∈ p.payload, e.2.isPopulated = (Payload.value fields e.1).isPopulated := by
  simp only [rowOf, bind_eq_ok, pure_eq_ok] at h
  obtain ⟨reason, hreason, date, hdate, _, -, _, -, _, -, rfl⟩ := h
  simp only [payload, List.forall_mem_cons]
  have hdocument (j : Json) : (Column.document j).isPopulated = j.isPopulated :=
    Column.isPopulated_document j
  exact ⟨hdocument _, hdocument _, hdocument _, hdocument _, hdocument _,
    Column.isPopulated_textOfJson hreason, Column.isPopulated_dateOfJson hdate, by simp⟩

/-- The fields that a type allows have columns. -/
theorem mem_keys_of_allowed {type : ProposalType} {name : String}
    (h : name ∈ (PayloadRule.of type).allowed) : name ∈ p.payload.keys := by
  rw [keys_payload]
  revert name
  cases type <;> decide

/-- A proposal that is made fits its type. -/
theorem Submitted.fitsType (h : Submitted c s v x p) : p.FitsType := by
  obtain ⟨draft, fee, fields, options, hfields, -, -, hrow⟩ := h.row
  obtain ⟨htype, -⟩ := type_status_of_rowOf hrow
  obtain ⟨rfl, hall, hany, honly⟩ := Payload.validate_ok hfields
  rw [← htype] at hall hany honly
  have hcolumn : ∀ name ∈ p.payload.keys,
      (name ∈ p.populated ↔ name ∈ (Payload.populated draft.payload).keys) := by
    intro name hname
    obtain ⟨e, he, rfl⟩ := List.mem_map.1 hname
    rw [mem_populated he, isPopulated_of_rowOf hrow e he, Payload.mem_keys_populated]
  have hallowed : ∀ name ∈ (PayloadRule.of p.type).allowed,
      (name ∈ p.populated ↔ name ∈ (Payload.populated draft.payload).keys) :=
    fun name hname => hcolumn name (mem_keys_of_allowed hname)
  constructor
  · intro f hf
    exact (hallowed f (List.mem_append_left _ hf)).2 (hall f hf)
  · intro hsome
    obtain ⟨f, hf, hkey⟩ := hany hsome
    exact ⟨f, hf, (hallowed f (List.mem_append_right _ hf)).2 hkey⟩
  · intro f hf
    have hkey : f ∈ p.payload.keys := (List.filter_sublist.map Prod.fst).subset hf
    exact honly f ((hcolumn f hkey).1 hf)

/-- Later rows of a proposal fit the same type. -/
theorem Follows.fitsType (hf : p.Follows q) (h : p.FitsType) : q.FitsType := by
  have hcolumns : q.populated = p.populated := by
    rw [hf.row]
    rfl
  constructor
  · rw [hf.type, hcolumns]
    exact h.all
  · rw [hf.type, hcolumns]
    exact h.any
  · rw [hf.type, hcolumns]
    exact h.only

end Proposal

end VaultGovernance
