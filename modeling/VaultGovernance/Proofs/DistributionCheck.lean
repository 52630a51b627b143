import VaultGovernance.Proofs.Listing
import VaultGovernance.Proofs.PayloadRules
import VaultGovernance.Proofs.Refusals

/-!
# VaultGovernance.Proofs.DistributionCheck

Proposing to pay out a list.  If nothing else is missing, a proposal is made of a list
exactly if the list pays, and what is read of it from then on is what it pays.  A list that
does not is refused before anything else is looked at, with a report on its entries; an
empty list is refused as missing, since it does not count as a field.
-/

namespace VaultGovernance

/-! ## Making the proposal -/

namespace Proposal

open VaultGovernance.Action

variable {c : Context} {w w' : World} {v : Vault} {draft : Draft} {entries : List Json}

/-- What a proposal on a vault needs apart from its payload: voting powers, a fee that can be
read, a creator, a title, and options that can be kept, if there are any. -/
structure Draft.Complete (s : Store) (vaultId : Uuid) (draft : Draft) : Prop where
  snapshot : ∃ x, Snapshot.latestOf (s.snapshotsOf vaultId) = some x
  fee : ∃ fee, Settings.feeIn s draft.type = .ok fee
  creator : ∃ creator, draft.creatorId = some creator
  title : ∃ title, draft.title = some title
  options : ∃ options rows, Ballot.read draft.options = .ok options ∧
    Ballot.store (s.serial + 2) options = .ok rows

/-- The payload of a distribution, of which the list alone counts. -/
def Draft.Lists (draft : Draft) (entries : List Json) : Prop :=
  draft.type = .distribution ∧
    Payload.populated draft.payload = Payload.populated [(Distribution.field, .arr entries)]

theorem populated_list (hsome : entries ≠ []) :
    Payload.populated [(Distribution.field, .arr entries)] =
      [(Distribution.field, .arr entries)] := by
  cases entries with
  | nil => exact absurd rfl hsome
  | cons entry rest => rfl

/-- A value that is read of a payload is there, unless it is null. -/
theorem mem_of_value {fields : OrderedMap Json} {name : String} {j : Json} (hj : j ≠ .null)
    (h : Payload.value fields name = j) : (name, j) ∈ fields := by
  rw [Payload.value] at h
  cases hget : fields.get? name with
  | none =>
      rw [hget] at h
      exact absurd h.symm hj
  | some j' =>
      rw [hget] at h
      obtain rfl : j' = j := h
      exact OrderedMap.mem_of_get? hget

/-- A date that does not count is not looked at. -/
theorem checkDate_of_lists (h : draft.Lists entries) : checkDate draft.payload = .ok () := by
  rw [checkDate]
  split
  · next t ht =>
    have hempty : t = "" := by
      by_contra hsome
      have hcounts : (dateField, Json.str t) ∈ Payload.populated draft.payload :=
        List.mem_filter.2 ⟨mem_of_value (by simp) ht, by simpa [Json.isPopulated] using hsome⟩
      rw [h.2] at hcounts
      have hfield := List.mem_singleton.1 (List.mem_filter.1 hcounts).1
      exact absurd (Prod.mk.inj hfield).1 (by decide)
    rw [if_pos (.inl hempty)]
  · rfl

theorem validate_of_lists (h : draft.Lists entries) (hsome : entries ≠ []) :
    Payload.validate draft.type draft.payload = .ok [(Distribution.field, .arr entries)] := by
  rw [Payload.validate, h.1, h.2, populated_list hsome]
  rfl

/-- An empty list does not count, and the list is required. -/
theorem validate_of_lists_nil (h : draft.Lists []) :
    Payload.validate draft.type draft.payload = .error (.refusal (.invalidPayload
      (Choice.toJson ProposalType.distribution) [Distribution.field] [] [])) := by
  rw [Payload.validate, h.1, h.2]
  rfl

/-- A row is made of a list whatever it lists. -/
theorem exists_rowOf_iff {s : Store} {vaultId snapshotId : Uuid} {fee : Int}
    {options : List Ballot.OptionDraft} {time : Timestamp} :
    (∃ p, rowOf s vaultId snapshotId fee draft [(Distribution.field, .arr entries)] options time =
      .ok p) ↔
    (∃ creator, draft.creatorId = some creator) ∧ (∃ title, draft.title = some title) ∧
      ∃ rows, Ballot.store (s.serial + 2) options = .ok rows := by
  have hreason : Column.textOfJson
      (Payload.value [(Distribution.field, .arr entries)] "termination_reason") = .ok none := rfl
  have hdate : Column.dateOfJson
      (Payload.value [(Distribution.field, .arr entries)] dateField) = .ok none := rfl
  simp only [rowOf, hreason, hdate, bind_eq_ok, pure_eq_ok, Column.required_eq_ok]
  constructor
  · intro h
    obtain ⟨p, _, -, _, -, creator, hcreator, title, htitle, rows, hrows, -⟩ := h
    exact ⟨⟨creator, hcreator⟩, ⟨title, htitle⟩, rows, hrows⟩
  · intro h
    obtain ⟨⟨creator, hcreator⟩, ⟨title, htitle⟩, rows, hrows⟩ := h
    exact ⟨_, _, rfl, _, rfl, creator, hcreator, title, htitle, rows, hrows, rfl⟩

/-- A proposal is made of a list that pays, if nothing else is missing. -/
theorem create_lists_iff (hv : w.store.vault? v.id = some v) (governed : v.stage = .locked)
    (h : draft.Lists entries) (hsome : entries ≠ []) :
    (∃ p w', create v.id draft c w = (.ok p, w')) ↔
      draft.Complete w.store v.id ∧ ∃ ids, Distribution.Pays w.store v.id entries ids := by
  have hcheck : Distribution.check w.store v.id
      (Payload.value [(Distribution.field, .arr entries)] Distribution.field) = .ok () ↔
        ∃ ids, Distribution.Pays w.store v.id entries ids := by
    rw [← Distribution.badEntries_eq_nil_iff]
    change Distribution.check w.store v.id (.arr entries) = .ok () ↔ _
    rw [Distribution.check_eq rfl, ite_eq_left_iff]
    simp
  constructor
  · intro hmade
    obtain ⟨p, w', hp⟩ := hmade
    obtain ⟨-, v', fields, x, fee, options, hv', -, hfields, hpaid, hx, hfee, hoptions, hrow, -⟩ :=
      create_eq_ok_iff.1 hp
    rw [hv] at hv'
    obtain rfl := Option.some.inj hv'
    rw [validate_of_lists h hsome] at hfields
    obtain rfl := Except.ok.inj hfields
    obtain ⟨hcreator, htitle, rows, hrows⟩ := exists_rowOf_iff.1 ⟨p, hrow⟩
    exact ⟨⟨⟨x, hx⟩, ⟨fee, hfee⟩, hcreator, htitle, options, rows, hoptions, hrows⟩,
      hcheck.1 (hpaid h.1)⟩
  · intro hready
    obtain ⟨⟨⟨x, hx⟩, ⟨fee, hfee⟩, hcreator, htitle, options, rows, hoptions, hrows⟩, hpays⟩ :=
      hready
    obtain ⟨p, hp⟩ := exists_rowOf_iff.2 ⟨hcreator, htitle, rows, hrows⟩
    exact ⟨p, _, create_eq_ok_iff.2 ⟨checkDate_of_lists h, v, _, x, fee, options, hv, governed,
      validate_of_lists h hsome, fun _ => hcheck.2 hpays, hx, hfee, hoptions, hp, rfl⟩⟩

/-- A proposal that is made of a list keeps it as it was given. -/
theorem distributionAssets_of_create {vaultId : Uuid} (h : draft.Lists entries)
    (hsome : entries ≠ []) {p : Proposal} (hp : create vaultId draft c w = (.ok p, w')) :
    p.distributionAssets = Column.document (.arr entries) := by
  obtain ⟨-, _, fields, _, _, _, -, -, hfields, -, -, -, -, hrow, -⟩ := create_eq_ok_iff.1 hp
  rw [validate_of_lists h hsome] at hfields
  obtain rfl := Except.ok.inj hfields
  exact distributionAssets_of_rowOf hrow

/-- A payload that is not valid is refused before anything else is looked at. -/
theorem create_of_invalid (hv : w.store.vault? v.id = some v) (governed : v.stage = .locked)
    (hdate : checkDate draft.payload = .ok ()) {e : Fault}
    (hinvalid : Payload.validate draft.type draft.payload = .error e) :
    create v.id draft c w = (.error e, w) := by
  simp only [create, bind_eq, hdate, hinvalid, ofExcept_ok_andThen, ofExcept_error_andThen]
  rw [andThen_of_ok (Snapshot.governedVault_run hv governed _), fail_run]

/-- A list that fails its check is refused before anything else is looked at. -/
theorem create_of_unpayable (hv : w.store.vault? v.id = some v) (governed : v.stage = .locked)
    (h : draft.Lists entries) (hsome : entries ≠ []) {e : Fault}
    (hcheck : Distribution.check w.store v.id (.arr entries) = .error e) :
    create v.id draft c w = (.error e, w) := by
  simp only [create, bind_eq, checkDate_of_lists h, validate_of_lists h hsome,
    ofExcept_ok_andThen, if_pos h.1]
  rw [andThen_of_ok (Snapshot.governedVault_run hv governed _), store_andThen]
  change (ofExcept (Distribution.check w.store v.id (.arr entries))).andThen _ c w = _
  rw [hcheck, ofExcept_error_andThen, fail_run]

/-- A list that pays is refused for want of voting powers only. -/
theorem refusal_of_pays (hv : w.store.vault? v.id = some v) (governed : v.stage = .locked)
    (h : draft.Lists entries) (hsome : entries ≠ [])
    (hpays : ∃ ids, Distribution.Pays w.store v.id entries ids) {e : DomainError}
    (he : create v.id draft c w = (.error (.refusal e), w')) :
    e = .snapshotRequired v.id.toJson := by
  simp only [create, bind_eq, checkDate_of_lists h, validate_of_lists h hsome,
    ofExcept_ok_andThen, if_pos h.1] at he
  rw [andThen_of_ok (Snapshot.governedVault_run hv governed _), store_andThen] at he
  change (ofExcept (Distribution.check w.store v.id (.arr entries))).andThen _ c w = _ at he
  rw [Distribution.check_eq rfl, if_pos (Distribution.badEntries_eq_nil_iff.2 hpays),
    ofExcept_ok_andThen, Snapshot.latest_andThen] at he
  cases hx : Snapshot.latestOf (w.store.snapshotsOf v.id) with
  | none =>
      simp only [hx, refuse_run, Prod.mk.injEq, Except.error.injEq, Fault.refusal.injEq] at he
      exact he.1.symm
  | some x =>
      have hfee : NeverRefuses (Settings.feeIn w.store draft.type) :=
        Json.neverRefuses_toInteger _
      simp only [hx] at he
      obtain ⟨fee, he⟩ := hfee.andThen (Settings.proposalFee_run _) he
      obtain ⟨options, he⟩ := (Ballot.neverRefuses_read _).andThen (ofExcept_run _) he
      rw [store_andThen, now_andThen] at he
      obtain ⟨p, he⟩ := (neverRefuses_rowOf _ _ _ _ _ _ _ _).andThen (ofExcept_run _) he
      cases he

/-- A refusal of a list for these items in it. -/
structure RefusesItems (items : List Distribution.BadEntry) (e : DomainError) : Prop where
  code : e.code = "INVALID_PAYLOAD_FOR_TYPE"
  details : e.details = [("proposal_type", Choice.toJson ProposalType.distribution),
    ("missing", .arr []), ("forbidden", .arr []),
    ("invalid", .obj [(Distribution.field, .arr (items.map Distribution.BadEntry.toJson))])]

/-- A list that does not pay is refused with a report on its entries. -/
theorem create_reports (hv : w.store.vault? v.id = some v) (governed : v.stage = .locked)
    (h : draft.Lists entries) (hsome : entries ≠ [])
    (hbad : ¬ ∃ ids, Distribution.Pays w.store v.id entries ids) :
    ∃ e bad items, create v.id draft c w = (.error (.refusal e), w) ∧ RefusesItems items e ∧
      Distribution.Reported w.store v.id [] entries bad ∧ items.Perm bad := by
  obtain ⟨bad, hreported, hperm⟩ := Distribution.reported_badEntries w.store v.id entries
  rw [← Distribution.badEntries_eq_nil_iff] at hbad
  have hcheck : Distribution.check w.store v.id (.arr entries) = _ := Distribution.check_eq rfl
  rw [if_neg hbad] at hcheck
  refine ⟨_, bad, _, create_of_unpayable hv governed h hsome hcheck, ⟨rfl, ?_⟩, hreported,
    hperm.symm⟩
  simp [DomainError.details, DomainError.textList]

/-- A proposal that is made is found from then on, in a row that follows the first one, and
its options are told apart. -/
theorem follows_of_create {calls : List Call} {vaultId : Uuid} {p : Proposal}
    (hp : create vaultId draft c (World.after {} calls) = (.ok p, w')) (later : List Call) :
    (p.options.map VoteOption.id).Nodup ∧
      ∃ q, (w'.after later).store.proposal? p.id = some q ∧ p.Follows q := by
  have hworld : World.after {} (calls ++ [⟨c, .createProposal vaultId draft⟩]) = w' := by
    rw [World.after_append]
    exact World.called_of_ok rfl hp
  obtain ⟨-, _, _, _, _, _, -, -, -, -, -, -, -, -, rfl⟩ := create_eq_ok_iff.1 hp
  have hnumbered := storeAfter_numbered (calls ++ [⟨c, .createProposal vaultId draft⟩])
  rw [storeAfter, hworld] at hnumbered
  have hmem := List.mem_append_right (World.after {} calls).store.proposals
    (List.mem_cons_self (a := p) (l := []))
  exact ⟨hnumbered.options p hmem,
    (World.before_after _ later).proposals (hnumbered.proposal?_of_mem hmem)⟩

/-- What a list pays is what is read of the proposal from then on. -/
theorem identifiers_later {calls : List Call} {vaultId : Uuid} {ids : List Uuid} {p : Proposal}
    (hp : create vaultId draft c (World.after {} calls) = (.ok p, w'))
    (hread : Distribution.identifiers p.distributionAssets = .ok ids) (later : List Call) :
    ∃ q, (w'.after later).store.proposal? p.id = some q ∧
      Distribution.identifiers q.distributionAssets = .ok ids := by
  obtain ⟨-, q, hq, hf⟩ := follows_of_create hp later
  exact ⟨q, hq, by rw [hf.distributionAssets, hread]⟩

end Proposal

namespace Sample

/-- The vault is in governance and its voting powers are recorded. -/
def governing : List Call := opening.take 10

/-- The vault in governance. -/
def governed : Vault := (storeAfter governing).vaults.headD default

theorem vault?_governing : (storeAfter governing).vault? governed.id = some governed := by
  decide +kernel

/-- A proposal to pay out what a list names. -/
def listing (entries : List Json) : Proposal.Draft :=
  { draft with payload := [(Distribution.field, .arr entries)] }

/-- The asset of the vault, written in capitals and in braces, and the asset once more, beside
an entry that names nothing, one that is no identifier and one that is the vault's. -/
def mixture : List Json :=
  [.obj [("id", .str ("\x7b" ++ assetId.text.toUpper ++ "\x7d"))], .null, .str "gold",
    .str assetId.text, .str vaultId.text]

theorem listing_lists (entries : List Json) : (listing entries).Lists entries := ⟨rfl, rfl⟩

/-- Nothing is missing of the sample but a list. -/
theorem listing_complete (entries : List Json) :
    (listing entries).Complete (storeAfter governing) governed.id where
  snapshot := Option.isSome_iff_exists.1 (by decide +kernel)
  fee := by
    have hfee : Settings.feeIn (storeAfter governing) .distribution = .ok 5000000 := by
      decide +kernel
    exact ⟨_, hfee⟩
  creator := ⟨"alice", rfl⟩
  title := ⟨"Pay out", rfl⟩
  options := ⟨[], [], rfl, rfl⟩

end Sample

end VaultGovernance
