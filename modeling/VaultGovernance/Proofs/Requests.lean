import VaultGovernance.Http.Service
import VaultGovernance.Proofs.Atomicity
import VaultGovernance.Proofs.Change.Run
import VaultGovernance.Proofs.Maps

/-!
# VaultGovernance.Proofs.Requests

What requests do to the store.  An endpoint reads its input, and what it reads is one
operation of the service, which is performed as one transaction; everything around it
answers, counts and redirects, and leaves the store alone.  `Http.Asks` says which
operation a request asks for at an endpoint.  So a run of requests is a run of
operations, and what the operations keep the interface keeps.
-/

namespace VaultGovernance

/-! ## Input that is accepted -/

namespace Checked

variable {α β : Type}

/-- A mapped outcome is a value exactly when the outcome is one. -/
theorem map_eq_valid {f : α → β} {x : Checked α} {b : β} :
    f <$> x = .valid b ↔ ∃ a, x = .valid a ∧ f a = b := by
  cases x with
  | valid a =>
      have hmap : f <$> valid a = valid (f a) := rfl
      simp [hmap]
  | invalid issues =>
      have hmap : f <$> (invalid issues : Checked α) = invalid issues := rfl
      simp [hmap]

/-- An applied outcome is a value exactly when both parts are. -/
theorem seq_eq_valid {f : Checked (α → β)} {x : Checked α} {b : β} :
    f <*> x = .valid b ↔ ∃ g a, f = .valid g ∧ x = .valid a ∧ g a = b := by
  have hseq : f <*> x = apply f x := rfl
  rw [hseq]
  cases f <;> cases x <;> simp [apply]

end Checked

namespace Form

variable {α : Type} {p : Place} {j : Json} {a : α}

/-- A form is an object with acceptable entries. -/
theorem form_eq_valid {check : Place → OrderedMap Json → Checked α} :
    form check p j = .valid a ↔ ∃ entries, j = .obj entries ∧ check p entries = .valid a := by
  cases j <;> simp [form, Checked.fault]

/-- A checked value is one that the reader accepts. -/
theorem checking_eq_valid {read : Reader α} : checking read p j = .valid a ↔ read j = .ok a := by
  rw [checking]
  cases read j <;> simp [Checked.ofExcept, Checked.fault]

end Form

/-! ## Forms and the operations they carry -/

namespace Body

open Form Checked

variable {p : Place} {j : Json}

theorem vault_valid {act : Action Vault} (h : vault p j = .valid act) :
    ∃ name execution participation, act = Vault.create name execution participation := by
  simp only [vault, form_eq_valid, seq_eq_valid, map_eq_valid] at h
  obtain ⟨_, -, _, _, ⟨_, _, ⟨_, -, rfl⟩, -, rfl⟩, -, rfl⟩ := h
  exact ⟨_, _, _, rfl⟩

theorem stage_valid {f : Uuid → Action Vault} (h : stage p j = .valid f) :
    ∃ target reason, f = fun id => Vault.advance id target reason := by
  simp only [stage, form_eq_valid, seq_eq_valid, map_eq_valid] at h
  obtain ⟨_, -, _, _, ⟨_, -, rfl⟩, -, rfl⟩ := h
  exact ⟨_, _, rfl⟩

theorem applyParams_valid {f : Uuid → Action Vault} (h : applyParams p j = .valid f) :
    ∃ result, f = fun id => Vault.recordApplyParams id result := by
  simp only [applyParams, form_eq_valid, map_eq_valid] at h
  obtain ⟨_, -, _, -, rfl⟩ := h
  exact ⟨_, rfl⟩

theorem dispatchScript_valid {f : Uuid → Action Vault} (h : dispatchScript p j = .valid f) :
    ∃ script, f = fun id => Vault.recordDispatchScript id script := by
  simp only [dispatchScript, form_eq_valid, map_eq_valid] at h
  obtain ⟨_, -, _, -, rfl⟩ := h
  exact ⟨_, rfl⟩

theorem acquireResults_valid {f : Uuid → Action Vault} (h : acquireResults p j = .valid f) :
    ∃ multiplier distribution,
      f = fun id => Vault.recordAcquireResults id multiplier distribution := by
  simp only [acquireResults, form_eq_valid, seq_eq_valid, map_eq_valid] at h
  obtain ⟨_, -, _, _, ⟨_, -, rfl⟩, -, rfl⟩ := h
  exact ⟨_, _, rfl⟩

theorem transition_valid {f : Uuid → Action Asset} (h : transition p j = .valid f) :
    ∃ target, f = fun id => Asset.transition id target := by
  simp only [transition, form_eq_valid, map_eq_valid] at h
  obtain ⟨_, -, _, -, rfl⟩ := h
  exact ⟨_, rfl⟩

theorem snapshot_valid {f : Uuid → Action Snapshot} (h : snapshot p j = .valid f) :
    ∃ assetId balances, f = fun id => Snapshot.create id assetId balances := by
  simp only [snapshot, form_eq_valid, seq_eq_valid, map_eq_valid] at h
  obtain ⟨_, -, _, _, ⟨_, -, rfl⟩, -, rfl⟩ := h
  exact ⟨_, _, rfl⟩

theorem proposal_valid {f : Uuid → Action Proposal} (h : proposal p j = .valid f) :
    ∃ draft, f = fun id => Proposal.create id draft := by
  simp only [proposal, form_eq_valid, seq_eq_valid, map_eq_valid] at h
  obtain ⟨_, -, _, _, ⟨_, _, ⟨_, _, ⟨_, _, ⟨_, _, ⟨_, _, ⟨_, _, ⟨_, _, ⟨_, -, rfl⟩, -, rfl⟩, -, rfl⟩,
    -, rfl⟩, -, rfl⟩, -, rfl⟩, -, rfl⟩, -, rfl⟩, -, rfl⟩ := h
  exact ⟨_, rfl⟩

theorem vote_valid {f : Uuid → Action Vote} (h : vote p j = .valid f) :
    ∃ voterId optionRef address, f = fun id => Vote.cast id voterId optionRef address := by
  simp only [vote, form_eq_valid, seq_eq_valid, map_eq_valid] at h
  obtain ⟨_, -, _, _, ⟨_, _, ⟨_, -, rfl⟩, -, rfl⟩, -, rfl⟩ := h
  exact ⟨_, _, _, rfl⟩

theorem settings_valid {act : Action (OrderedMap Json)} (h : settings p j = .valid act) :
    ∃ values, act = Settings.update values := by
  simp only [settings, form_eq_valid, map_eq_valid] at h
  obtain ⟨_, -, _, -, rfl⟩ := h
  exact ⟨_, rfl⟩

/-- The entries of a new asset are those of its form. -/
theorem asset_valid {f : Uuid → Action Asset} (h : asset p j = .valid f) :
    ∃ entries draft quantity, j = .obj entries ∧ (f = fun id => Asset.create id draft) ∧
      draft.quantity = some quantity ∧
      optional "quantity" (Decimal.ofNat 1) (checking amount) p entries = .valid quantity := by
  simp only [asset, form_eq_valid, seq_eq_valid, map_eq_valid] at h
  obtain ⟨entries, hj, _, _, ⟨_, _, ⟨_, _, ⟨_, quantity, ⟨_, _, ⟨_, _, ⟨_, -, rfl⟩, -, rfl⟩, -,
    rfl⟩, hquantity, rfl⟩, -, rfl⟩, -, rfl⟩, -, rfl⟩ := h
  exact ⟨entries, _, quantity, hj, rfl, rfl, hquantity⟩

section Changed

variable {α : Type} {entry : String} {check : Check α} {toJson : α → Json}
  {form : OrderedMap Json} {written : List (String × Json)}

/-- An entry of a change is left out, or written as it was read. -/
theorem changed_valid (h : changed entry check toJson p form = .valid written) :
    form.get? entry = none ∧ written = [] ∨
      ∃ given value, form.get? entry = some given ∧
        orNull check (p.entry entry) given = .valid value ∧
        written = [(entry, Json.ofOption toJson value)] := by
  rw [changed, Form.optional] at h
  cases hgiven : form.get? entry with
  | none =>
      rw [hgiven] at h
      cases h
      exact .inl ⟨rfl, rfl⟩
  | some given =>
      simp only [hgiven, map_eq_valid] at h
      obtain ⟨value, hvalue, rfl⟩ := h
      exact .inr ⟨given, value, rfl, hvalue, rfl⟩

/-- An entry of a change is not found under another name. -/
theorem get?_changed_of_ne (name : String)
    (h : changed entry check toJson p form = .valid written) (hne : entry ≠ name) :
    OrderedMap.get? written name = none := by
  rcases changed_valid h with ⟨-, rfl⟩ | ⟨given, value, -, -, rfl⟩
  · rfl
  · rw [OrderedMap.get?, if_neg hne]
    rfl

end Changed

/-- The quantity in a change of an asset is null or an amount. -/
theorem assetChange_valid {f : Uuid → Action Asset} (h : assetChange p j = .valid f) :
    ∃ (entries fields : OrderedMap Json), j = .obj entries ∧
      (f = fun id => Asset.update id fields) ∧
      ∀ v, fields.get? "quantity" = some v → v = .null ∨
        ∃ given quantity, entries.get? "quantity" = some given ∧
          amount given = .ok quantity ∧ v = .str quantity.scientificText := by
  simp only [assetChange, form_eq_valid, seq_eq_valid, map_eq_valid] at h
  obtain ⟨entries, hj, _, metadata, ⟨_, addedBy, ⟨_, quantity, ⟨_, kind, ⟨_, assetName,
    ⟨policyId, hpolicyId, rfl⟩, hassetName, rfl⟩, hkind, rfl⟩, hquantity, rfl⟩, haddedBy, rfl⟩,
    hmetadata, rfl⟩ := h
  refine ⟨entries, _, hj, rfl, fun v hv => ?_⟩
  have hundeclared : OrderedMap.get? (entries.filter fun e => !checkedEntries.contains e.1)
      "quantity" = none :=
    OrderedMap.get?_filter_keys fun key => !checkedEntries.contains key
  simp only [OrderedMap.get?_append, get?_changed_of_ne "quantity" hpolicyId (by decide),
    get?_changed_of_ne "quantity" hassetName (by decide),
    get?_changed_of_ne "quantity" hkind (by decide),
    get?_changed_of_ne "quantity" haddedBy (by decide),
    get?_changed_of_ne "quantity" hmetadata (by decide), hundeclared, Option.none_or,
    Option.or_none] at hv
  rcases changed_valid hquantity with ⟨-, rfl⟩ | ⟨given, value, hgiven, hvalue, rfl⟩
  · cases hv
  · rw [OrderedMap.get?, if_pos rfl] at hv
    obtain rfl := Option.some.inj hv
    rw [orNull] at hvalue
    split at hvalue
    · cases hvalue
      exact .inl rfl
    · obtain ⟨d, hd, rfl⟩ := map_eq_valid.1 hvalue
      exact .inr ⟨given, d, hgiven, checking_eq_valid.1 hd, rfl⟩

end Body

namespace Http

open VaultGovernance.Action

variable {α ι : Type} {r : Request} {c : Context} {w : World}

/-! ## Input -/

/-- An input is the path's part, and the body read as a form. -/
theorem withBody_eq_valid {path : Checked ι} {form : Form.Check (ι → α)} {a : α} :
    withBody r path form = .valid a ↔
      ∃ i j f, path = .valid i ∧ r.content = .value j ∧ form bodyPlace j = .valid f ∧ f i = a := by
  rw [withBody]
  cases r.content with
  | unreadable position => simp
  | overlong => simp
  | absent => simp [Checked.seq_eq_valid, Checked.fault]
  | value j =>
      simp only [Checked.seq_eq_valid, Checked.map_eq_valid]
      constructor
      · rintro ⟨_, f, ⟨i, hi, rfl⟩, hf, rfl⟩
        exact ⟨i, j, f, hi, rfl, hf, rfl⟩
      · rintro ⟨i, _, f, hi, hj, hf, rfl⟩
        cases hj
        exact ⟨_, f, ⟨i, hi, rfl⟩, hf, rfl⟩

/-- A vault or settings form, which needs nothing from the path. -/
abbrev alone (form : Form.Check α) : Form.Check (Unit → α) :=
  fun p j => (fun a _ => a) <$> form p j

/-- What a request asks for at an endpoint: the operation that its path and its body are
read as.  Endpoints that only show something ask for nothing. -/
inductive Asks (r : Request) : Endpoint → Operation → Prop
  | createVault {name : Option String} {execution participation : Option Decimal}
      (input : withBody r (.valid ()) (alone Body.vault) =
        .valid (Vault.create name execution participation)) :
      Asks r .createVault (.createVault name execution participation)
  | advanceVault {id : String} {vaultId : Uuid} {target : VaultStage} {reason : Option String}
      (input : withBody r (pathId "vault_id" id) Body.stage =
        .valid (Vault.advance vaultId target reason)) :
      Asks r (.advanceVault id) (.advanceVault vaultId target reason)
  | recordApplyParams {id : String} {vaultId : Uuid} {result : Json}
      (input : withBody r (pathId "vault_id" id) Body.applyParams =
        .valid (Vault.recordApplyParams vaultId result)) :
      Asks r (.recordApplyParams id) (.recordApplyParams vaultId result)
  | recordDispatchScript {id : String} {vaultId : Uuid} {script : Json}
      (input : withBody r (pathId "vault_id" id) Body.dispatchScript =
        .valid (Vault.recordDispatchScript vaultId script)) :
      Asks r (.recordDispatchScript id) (.recordDispatchScript vaultId script)
  | recordAcquireResults {id : String} {vaultId : Uuid} {multiplier distribution : Json}
      (input : withBody r (pathId "vault_id" id) Body.acquireResults =
        .valid (Vault.recordAcquireResults vaultId multiplier distribution)) :
      Asks r (.recordAcquireResults id) (.recordAcquireResults vaultId multiplier distribution)
  | createAsset {id : String} {vaultId : Uuid} {draft : Asset.Draft} {entries : OrderedMap Json}
      {quantity : Decimal}
      (input : withBody r (pathId "vault_id" id) Body.asset = .valid (Asset.create vaultId draft))
      (path : pathId "vault_id" id = .valid vaultId)
      (body : r.content = .value (.obj entries))
      (given : draft.quantity = some quantity)
      (amount : Form.optional "quantity" (Decimal.ofNat 1) (Form.checking Form.amount) bodyPlace
        entries = .valid quantity) :
      Asks r (.createAsset id) (.createAsset vaultId draft)
  | transitionAsset {id : String} {assetId : Uuid} {target : AssetStatus}
      (input : withBody r (pathId "asset_id" id) Body.transition =
        .valid (Asset.transition assetId target)) :
      Asks r (.transitionAsset id) (.transitionAsset assetId target)
  | updateAsset {id : String} {assetId : Uuid} {fields entries : OrderedMap Json}
      (input : withBody r (pathId "asset_id" id) Body.assetChange =
        .valid (Asset.update assetId fields))
      (path : pathId "asset_id" id = .valid assetId)
      (body : r.content = .value (.obj entries))
      (amount : ∀ v, fields.get? "quantity" = some v → v = .null ∨
        ∃ given quantity, entries.get? "quantity" = some given ∧
          Form.amount given = .ok quantity ∧ v = .str quantity.scientificText) :
      Asks r (.updateAsset id) (.updateAsset assetId fields)
  | createSnapshot {id : String} {vaultId : Uuid} {assetId : Option String}
      {balances : OrderedMap Json}
      (input : withBody r (pathId "vault_id" id) Body.snapshot =
        .valid (Snapshot.create vaultId assetId balances)) :
      Asks r (.createSnapshot id) (.createSnapshot vaultId assetId balances)
  | submitProposal {id : String} {vaultId : Uuid} {draft : Proposal.Draft}
      (input : withBody r (pathId "vault_id" id) Body.proposal =
        .valid (Proposal.create vaultId draft)) :
      Asks r (.submitProposal id) (.createProposal vaultId draft)
  | payFee {id : String} {proposalId : Uuid} (input : pathId "proposal_id" id = .valid proposalId) :
      Asks r (.payFee id) (.markFeePaid proposalId)
  | openVoting {id : String} {proposalId : Uuid}
      (input : pathId "proposal_id" id = .valid proposalId) :
      Asks r (.openVoting id) (.openVoting proposalId)
  | finalizeProposal {id : String} {proposalId : Uuid}
      (input : pathId "proposal_id" id = .valid proposalId) :
      Asks r (.finalizeProposal id) (.finalizeProposal proposalId)
  | executeProposal {id : String} {proposalId : Uuid}
      (input : pathId "proposal_id" id = .valid proposalId) :
      Asks r (.executeProposal id) (.executeProposal proposalId)
  | castVote {id : String} {proposalId : Uuid} {voterId : Option String} {optionRef : Json}
      {address : Option String}
      (input : withBody r (pathId "proposal_id" id) Body.vote =
        .valid (Vote.cast proposalId voterId optionRef address)) :
      Asks r (.castVote id) (.castVote proposalId voterId optionRef address)
  | showClaim {id : String} {claimId : Uuid} (input : pathId "claim_id" id = .valid claimId) :
      Asks r (.showClaim id) (.getClaim claimId)
  | updateSettings {values : OrderedMap Json}
      (input : withBody r (.valid ()) (alone Body.settings) = .valid (Settings.update values)) :
      Asks r .updateSettings (.updateSettings values)
  | deleteSetting {key : String} : Asks r (.deleteSetting key) (.deleteSetting key)
  | normalizeClaims {limit : Option Int} {dryRun : Bool}
      (input : optionalBody r (none, false) Body.backfill = .valid (limit, dryRun)) :
      Asks r .normalizeClaims (.normalizeClaims limit dryRun)

/-! ## Endpoints -/

/-- What the world is after the action that an input asks for. -/
theorem perform_run (status : Nat) (toShown : α → Representation.Shown) (blame : Blame)
    (act : Action α) :
    (perform status toShown blame (.valid act) c w).2 = (transaction act c w).2 := by
  simp only [perform, bind_eq, andThen, attempt]
  rcases transaction act c w with ⟨e | a, w'⟩ <;> rfl

/-- A call leaves behind what the transaction of its action does. -/
theorem called_world {op : Operation} {act : Action α} (hop : op.action = act.discarded) :
    w.called ⟨c, op⟩ = (transaction act c w).2 := by
  rw [World.called, hop]
  simp only [transaction, discarded, andThen]
  rcases act c w with ⟨e | a, w'⟩ <;> rfl

/-- An endpoint whose input is an operation performs it, or does nothing. -/
theorem perform_world {e : Endpoint} {status : Nat} {toShown : α → Representation.Shown}
    {blame : Blame} {input : Checked (Action α)}
    (h : ∀ act, input = .valid act → ∃ op : Operation, op.action = act.discarded ∧ Asks r e op) :
    (perform status toShown blame input c w).2 = w ∨
      ∃ op, Asks r e op ∧ (perform status toShown blame input c w).2 = w.called ⟨c, op⟩ := by
  cases input with
  | invalid issues => exact .inl rfl
  | valid act =>
      obtain ⟨op, hop, hasks⟩ := h act rfl
      refine .inr ⟨op, hasks, ?_⟩
      rw [perform_run, called_world hop]

/-- An endpoint that looks leaves the world as it was. -/
theorem perform_looks {status : Nat} {toShown : α → Representation.Shown} {blame : Blame}
    {input : Checked (Action α)} (h : ∀ act, input = .valid act → act.Looks) :
    (perform status toShown blame input c w).2 = w := by
  cases input with
  | invalid issues => rfl
  | valid act =>
      have hw := h act rfl c w
      rw [perform_run, transaction]
      rcases hrun : act c w with ⟨e | a, w'⟩ <;> rw [hrun] at hw
      · obtain rfl : w' = w := hw
        rfl
      · exact hw

/-- A form about a row of the path, where what it carries is known. -/
theorem submit_world {e : Endpoint} {status : Nat} {parameter text : String}
    {toShown : α → Representation.Shown} {blame : Blame} {form : Form.Check (Uuid → Action α)}
    (h : ∀ id j f, pathId parameter text = .valid id → r.content = .value j →
      form bodyPlace j = .valid f → withBody r (pathId parameter text) form = .valid (f id) →
      ∃ op : Operation, op.action = (f id).discarded ∧ Asks r e op) :
    (submit status r parameter text toShown blame form c w).2 = w ∨
      ∃ op, Asks r e op ∧
        (submit status r parameter text toShown blame form c w).2 = w.called ⟨c, op⟩ := by
  refine perform_world fun act hact => ?_
  obtain ⟨id, j, f, hid, hj, hf, rfl⟩ := withBody_eq_valid.1 hact
  exact h id j f hid hj hf hact

/-- An action about a row of the path. -/
theorem about_world {e : Endpoint} {parameter text : String} {toShown : α → Representation.Shown}
    {act : Uuid → Action α}
    (h : ∀ id, pathId parameter text = .valid id →
      ∃ op : Operation, op.action = (act id).discarded ∧ Asks r e op) :
    (about parameter text toShown act c w).2 = w ∨
      ∃ op, Asks r e op ∧ (about parameter text toShown act c w).2 = w.called ⟨c, op⟩ := by
  refine perform_world fun act' hact => ?_
  obtain ⟨id, hid, rfl⟩ := Checked.map_eq_valid.1 hact
  exact h id hid

theorem about_looks {parameter text : String} {toShown : α → Representation.Shown}
    {act : Uuid → Action α} (h : ∀ id, (act id).Looks) :
    (about parameter text toShown act c w).2 = w := by
  refine perform_looks fun act' hact => ?_
  obtain ⟨id, -, rfl⟩ := Checked.map_eq_valid.1 hact
  exact h id

theorem looks_assetsOf (id : Uuid) (status : Option AssetStatus) : (assetsOf id status).Looks :=
  (Vault.looks_find id).andThen fun _ => Asset.looks_list id status

theorem looks_tallyOf (id : Uuid) : (tallyOf id).Looks :=
  (Vote.looks_tally id).andThen fun _ => looks_done _

theorem looks_metrics (r : Request) : (metrics r).Looks := by
  refine looks_configuration.andThen fun c => ?_
  split
  · exact Looks.andThen (fun _ _ => rfl) fun _ => looks_done _
  · exact looks_done _

/-- Removing a setting is an operation, whatever is answered. -/
theorem handle_deleteSetting {key : String} :
    (handle r (.deleteSetting key) c w).2 = w.called ⟨c, .deleteSetting key⟩ := by
  rw [called_world rfl]
  simp only [handle, deleteSetting, bind_eq, andThen, attempt]
  rcases transaction (Settings.delete key) c w with ⟨e | found, w'⟩
  · rfl
  · cases found <;> rfl

/-- A request does nothing at an endpoint, or the operation that it asks for there. -/
theorem handle_world (r : Request) (e : Endpoint) (c : Context) (w : World) :
    (handle r e c w).2 = w ∨ ∃ op, Asks r e op ∧ (handle r e c w).2 = w.called ⟨c, op⟩ := by
  cases e with
  | root | health | readiness => exact .inl rfl
  | metrics => exact .inl (looks_metrics r c w)
  | showVault id => exact .inl (about_looks Vault.looks_find)
  | listAssets id =>
      refine .inl (perform_looks fun act hact => ?_)
      simp only [Checked.seq_eq_valid, Checked.map_eq_valid] at hact
      obtain ⟨_, status, ⟨vaultId, -, rfl⟩, -, rfl⟩ := hact
      exact looks_assetsOf vaultId status
  | listSnapshots id => exact .inl (about_looks Snapshot.looks_list)
  | showProposal id => exact .inl (about_looks Proposal.looks_find)
  | showTally id => exact .inl (about_looks looks_tallyOf)
  | showSettings =>
      refine .inl (perform_looks fun act hact => ?_)
      cases hact
      exact Settings.looks_getAll
  | createVault =>
      refine perform_world fun act hact => ?_
      obtain ⟨_, j, f, -, hj, hf, rfl⟩ := withBody_eq_valid.1 hact
      obtain ⟨act, hact', rfl⟩ := Checked.map_eq_valid.1 hf
      obtain ⟨name, execution, participation, rfl⟩ := Body.vault_valid hact'
      exact ⟨_, rfl, .createVault hact⟩
  | updateSettings =>
      refine perform_world fun act hact => ?_
      obtain ⟨_, j, f, -, hj, hf, rfl⟩ := withBody_eq_valid.1 hact
      obtain ⟨act, hact', rfl⟩ := Checked.map_eq_valid.1 hf
      obtain ⟨values, rfl⟩ := Body.settings_valid hact'
      exact ⟨_, rfl, .updateSettings hact⟩
  | advanceVault id =>
      refine submit_world fun vaultId j f _ _ hf input => ?_
      obtain ⟨target, reason, rfl⟩ := Body.stage_valid hf
      exact ⟨_, rfl, .advanceVault input⟩
  | recordApplyParams id =>
      refine submit_world fun vaultId j f _ _ hf input => ?_
      obtain ⟨result, rfl⟩ := Body.applyParams_valid hf
      exact ⟨_, rfl, .recordApplyParams input⟩
  | recordDispatchScript id =>
      refine submit_world fun vaultId j f _ _ hf input => ?_
      obtain ⟨script, rfl⟩ := Body.dispatchScript_valid hf
      exact ⟨_, rfl, .recordDispatchScript input⟩
  | recordAcquireResults id =>
      refine submit_world fun vaultId j f _ _ hf input => ?_
      obtain ⟨multiplier, distribution, rfl⟩ := Body.acquireResults_valid hf
      exact ⟨_, rfl, .recordAcquireResults input⟩
  | createAsset id =>
      refine submit_world fun vaultId j f path body hf input => ?_
      obtain ⟨entries, draft, quantity, rfl, rfl, given, amount⟩ := Body.asset_valid hf
      exact ⟨_, rfl, .createAsset input path body given amount⟩
  | transitionAsset id =>
      refine submit_world fun assetId j f _ _ hf input => ?_
      obtain ⟨target, rfl⟩ := Body.transition_valid hf
      exact ⟨_, rfl, .transitionAsset input⟩
  | updateAsset id =>
      refine submit_world fun assetId j f path body hf input => ?_
      obtain ⟨entries, fields, rfl, rfl, amount⟩ := Body.assetChange_valid hf
      exact ⟨_, rfl, .updateAsset input path body amount⟩
  | createSnapshot id =>
      refine submit_world fun vaultId j f _ _ hf input => ?_
      obtain ⟨assetId, balances, rfl⟩ := Body.snapshot_valid hf
      exact ⟨_, rfl, .createSnapshot input⟩
  | submitProposal id =>
      refine submit_world fun vaultId j f _ _ hf input => ?_
      obtain ⟨draft, rfl⟩ := Body.proposal_valid hf
      exact ⟨_, rfl, .submitProposal input⟩
  | castVote id =>
      refine submit_world fun proposalId j f _ _ hf input => ?_
      obtain ⟨voterId, optionRef, address, rfl⟩ := Body.vote_valid hf
      exact ⟨_, rfl, .castVote input⟩
  | payFee id => exact about_world fun proposalId input => ⟨_, rfl, .payFee input⟩
  | openVoting id => exact about_world fun proposalId input => ⟨_, rfl, .openVoting input⟩
  | finalizeProposal id =>
      exact about_world fun proposalId input => ⟨_, rfl, .finalizeProposal input⟩
  | executeProposal id =>
      exact about_world fun proposalId input => ⟨_, rfl, .executeProposal input⟩
  | showClaim id => exact about_world fun claimId input => ⟨_, rfl, .showClaim input⟩
  | deleteSetting key => exact .inr ⟨_, .deleteSetting, handle_deleteSetting⟩
  | normalizeClaims =>
      refine perform_world fun act hact => ?_
      obtain ⟨⟨limit, dryRun⟩, input, rfl⟩ := Checked.map_eq_valid.1 hact
      refine ⟨_, ?_, .normalizeClaims input⟩
      simp only [normalizeClaims, Operation.action, discarded, bind_eq, andThen_assoc]
      rfl

/-! ## Answers -/

/-- Counting an answer leaves the store alone. -/
theorem answer_store (reply : Action Reply) :
    (answer r reply c w).2.store = (reply c w).2.store := by
  simp only [answer, bind_eq, andThen]
  rcases reply c w with ⟨e | a, w'⟩
  · rfl
  · cases a <;> rfl

/-- An answered request has done nothing, or one operation that it asks for. -/
theorem answer_handle_store (r : Request) (e : Endpoint) {v : World} (hv : v.store = w.store) :
    (answer r (handle r e) c v).2.store = w.store ∨ ∃ (op : Operation) (w₁ : World),
      Asks r e op ∧ w₁.store = w.store ∧
      (answer r (handle r e) c v).2.store = (w₁.called ⟨c, op⟩).store := by
  simp only [answer_store]
  rcases handle_world r e c v with hsame | ⟨op, hasks, hcalled⟩
  · rw [hsame]
    exact .inl hv
  · exact .inr ⟨op, v, hasks, hv, congrArg World.store hcalled⟩

/-- The endpoints that a request can reach, at its path or where that redirects it. -/
def Reaches (c : Context) (r : Request) (e : Endpoint) : Prop :=
  Endpoint.route c.configuration r.method r.path = .found e ∨
    ∃ path, Endpoint.route c.configuration r.method r.path = .elsewhere path ∧
      Endpoint.route c.configuration r.method path = .found e

/-- A request that is sent again to another path asks for the same. -/
theorem Asks.again {path : String} {e : Endpoint} {op : Operation}
    (h : Asks { r with path } e op) : Asks r e op := by
  cases h with
  | createVault input => exact .createVault input
  | advanceVault input => exact .advanceVault input
  | recordApplyParams input => exact .recordApplyParams input
  | recordDispatchScript input => exact .recordDispatchScript input
  | recordAcquireResults input => exact .recordAcquireResults input
  | createAsset input path body given amount => exact .createAsset input path body given amount
  | transitionAsset input => exact .transitionAsset input
  | updateAsset input path body amount => exact .updateAsset input path body amount
  | createSnapshot input => exact .createSnapshot input
  | submitProposal input => exact .submitProposal input
  | payFee input => exact .payFee input
  | openVoting input => exact .openVoting input
  | finalizeProposal input => exact .finalizeProposal input
  | executeProposal input => exact .executeProposal input
  | castVote input => exact .castVote input
  | showClaim input => exact .showClaim input
  | updateSettings input => exact .updateSettings input
  | deleteSetting => exact .deleteSetting
  | normalizeClaims input => exact .normalizeClaims input

/-- The store after a request is as before, or as one operation leaves it that the request
asks for at an endpoint it reaches. -/
theorem reply_store :
    (reply r c w).2.store = w.store ∨ ∃ (e : Endpoint) (op : Operation) (w₁ : World),
      Reaches c r e ∧ Asks r e op ∧ w₁.store = w.store ∧
      (reply r c w).2.store = (w₁.called ⟨c, op⟩).store := by
  simp only [reply, bind_eq, configuration_andThen]
  cases hroute : Endpoint.route c.configuration r.method r.path with
  | wrongMethod => exact .inl (answer_store _)
  | nowhere => exact .inl (answer_store _)
  | found e =>
      dsimp only
      rcases answer_handle_store r e rfl with hsame | ⟨op, w₁, hasks, hw, hcalled⟩
      · exact .inl hsame
      · exact .inr ⟨e, op, w₁, .inl hroute, hasks, hw, hcalled⟩
  | elsewhere path =>
      simp only [recordAnswer, record_andThen]
      cases hagain : Endpoint.route c.configuration r.method path with
      | wrongMethod => exact .inl (answer_store _)
      | nowhere => exact .inl (answer_store _)
      | elsewhere _ => exact .inl (answer_store _)
      | found e =>
          dsimp only
          rcases answer_handle_store { r with path } e rfl with hsame | ⟨op, w₁, hasks, hw, hcalled⟩
          · exact .inl hsame
          · exact .inr ⟨e, op, w₁, .inr ⟨path, hroute, hagain⟩, hasks.again, hw, hcalled⟩

theorem exchange_store (fresh : String) :
    (exchange fresh r c w).2.store = (reply r c w).2.store := by
  simp only [exchange, bind_eq, andThen]
  rcases reply r c w with ⟨e | a, w'⟩ <;> rfl

end Http

/-! ## Runs of requests -/

/-- A request at a time, under a configuration, with the trace that it gets if it brings
none. -/
structure Arrival where
  context : Context
  fresh : String
  request : Http.Request

namespace World

/-- The world after a request. -/
def answered (w : World) (k : Arrival) : World :=
  (Http.exchange k.fresh k.request k.context w).2

/-- The world after requests in order. -/
def served (w : World) (requests : List Arrival) : World := requests.foldl answered w

theorem served_append (w : World) (earlier later : List Arrival) :
    w.served (earlier ++ later) = (w.served earlier).served later :=
  List.foldl_append

/-- A request performs at most one operation on the store. -/
theorem answered_store (w : World) (k : Arrival) :
    (w.answered k).store = w.store ∨ ∃ (e : Http.Endpoint) (op : Operation) (w₁ : World),
      Http.Reaches k.context k.request e ∧ Http.Asks k.request e op ∧ w₁.store = w.store ∧
      (w.answered k).store = (w₁.called ⟨k.context, op⟩).store := by
  rw [answered, Http.exchange_store]
  exact Http.reply_store

end World

/-- The store that requests lead to from an empty one. -/
def storeServed (requests : List Arrival) : Store := (World.served {} requests).store

/-- A run that is longer by a request leaves the store as it was, or is longer by one
operation that the request asks for. -/
theorem storeServed_concat (requests : List Arrival) (k : Arrival) :
    storeServed (requests ++ [k]) = storeServed requests ∨
      ∃ (e : Http.Endpoint) (op : Operation) (w : World),
        Http.Reaches k.context k.request e ∧ Http.Asks k.request e op ∧
        w.store = storeServed requests ∧
        storeServed (requests ++ [k]) = (w.called ⟨k.context, op⟩).store := by
  rw [storeServed, World.served_append]
  exact World.answered_store (World.served {} requests) k

end VaultGovernance
