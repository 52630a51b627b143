import VaultGovernance.Proofs.DecimalText
import VaultGovernance.Proofs.Magnitude
import VaultGovernance.Proofs.Requests

/-!
# VaultGovernance.Proofs.Quantities

Where the quantities of assets come from.  A form accepts every amount above zero, and
the column keeps two digits of the double nearest to it, so an amount below half a
hundredth passes the form and is kept as zero.  Everywhere else quantities stay above
zero: only recording and changing an asset write them, both write what a form accepted,
and the text that a change goes through is read back as the same number.
-/

namespace VaultGovernance

/-! ## What the column shows -/

/-- The number is above zero. -/
def Decimal.IsPositive : Decimal → Prop
  | finite negative coefficient _ => negative = false ∧ coefficient ≠ 0
  | infinite negative => negative = false
  | nan .. => False

instance (d : Decimal) : Decidable d.IsPositive :=
  match d with
  | .finite _ _ _ => inferInstanceAs (Decidable (_ ∧ _))
  | .infinite _ => inferInstanceAs (Decidable (_ = _))
  | .nan .. => inferInstanceAs (Decidable False)

/-- A double that two digits behind the point show as more than zero: one above half a
hundredth. -/
inductive Binary64.ExceedsHalfHundredth : Binary64 → Prop
  | finite {quanta : Nat} (h : one < 200 * quanta) : ExceedsHalfHundredth (.finite false quanta)
  | infinite : ExceedsHalfHundredth (.infinite false)

/-- Up to a half, rounding gives zero. -/
theorem roundHalfEven_eq_zero {num den : Nat} (hden : 0 < den) :
    roundHalfEven num den = 0 ↔ 2 * num ≤ den := by
  have hsplit : den * (num / den) + num % den = num := Nat.div_add_mod num den
  have hrest : num % den < den := Nat.mod_lt num hden
  rcases Nat.eq_zero_or_pos (num / den) with hzero | hpos
  · rw [hzero, Nat.mul_zero, Nat.zero_add] at hsplit
    unfold roundHalfEven
    simp only [hzero, hsplit]
    split
    · omega
    · split <;> omega
  · have hle : den ≤ den * (num / den) := Nat.le_mul_of_pos_right den hpos
    unfold roundHalfEven
    dsimp only
    split
    · omega
    · split <;> omega

theorem Binary64.fixedUnits_ne_zero {quanta : Nat} :
    fixedUnits Column.moneyPlaces quanta ≠ 0 ↔ one < 200 * quanta := by
  have hplaces : tenTo Column.moneyPlaces = 100 := rfl
  rw [fixedUnits, hplaces, Ne, roundHalfEven_eq_zero Binary64.one_pos]
  omega

/-- What is shown of a double is above zero exactly if the double exceeds half a
hundredth. -/
theorem Column.shownDouble_isPositive {x : Binary64} {q : Decimal}
    (h : shownDouble moneyPlaces x = some q) : q.IsPositive ↔ x.ExceedsHalfHundredth := by
  have hunits (quanta : Nat) := @Binary64.fixedUnits_ne_zero quanta
  constructor
  · intro hpositive
    cases x with
    | nan => cases h
    | infinite negative =>
        cases h
        obtain rfl : negative = false := hpositive
        exact .infinite
    | finite negative quanta =>
        cases quanta with
        | zero =>
            cases h
            exact absurd ((hunits 0).1 hpositive.2) (Nat.not_lt_zero _)
        | succ n =>
            cases h
            obtain ⟨rfl, hne⟩ : negative = false ∧ _ := hpositive
            exact .finite ((hunits (n + 1)).1 hne)
  · intro hexceeds
    cases hexceeds with
    | infinite =>
        cases h
        rfl
    | @finite quanta hlarge =>
        cases quanta with
        | zero => exact absurd hlarge (Nat.not_lt_zero _)
        | succ n =>
            cases h
            exact ⟨rfl, (hunits (n + 1)).2 hlarge⟩

/-- The number zero, with two digits behind the point. -/
def Decimal.zeroHundredths : Decimal := finite false 0 (-2)

/-- What is shown of a double without a sign that does not exceed half a hundredth. -/
theorem Column.shownDouble_eq_zero {quanta : Nat}
    (h : ¬ (Binary64.finite false quanta).ExceedsHalfHundredth) :
    shownDouble moneyPlaces (.finite false quanta) = some .zeroHundredths := by
  have hunits : Binary64.fixedUnits moneyPlaces quanta = 0 := by
    by_contra hne
    exact h (.finite (Binary64.fixedUnits_ne_zero.1 hne))
  have hzero : Binary64.fixedUnits moneyPlaces 0 = 0 := by decide +kernel
  cases quanta with
  | zero => rw [shownDouble, Binary64.zero, Decimal.ofBinary64, hzero]; rfl
  | succ n =>
      show some (Decimal.ofBinary64 moneyPlaces (.finite false (n + 1))) = _
      rw [Decimal.ofBinary64, hunits]
      rfl

/-- The double nearest to a number without a sign has none. -/
theorem Decimal.toBinary64_unsigned (c : Nat) (x : Int) :
    (finite false c x).toBinary64 = .infinite false ∨
      ∃ quanta, (finite false c x).toBinary64 = .finite false quanta := by
  simp only [toBinary64, Binary64.ofQuotient]
  split
  · exact .inr ⟨_, rfl⟩
  · split
    · exact .inl rfl
    · split
      · exact .inr ⟨_, rfl⟩
      · split
        · exact .inr ⟨_, rfl⟩
        · exact .inl rfl

theorem Binary64.exceeds_ofQuotient {num den : Nat}
    (h : one < 200 * roundQuanta (num * one) den) :
    (ofQuotient false num den).ExceedsHalfHundredth := by
  rw [ofQuotient]
  generalize roundQuanta (num * one) den = quanta at h ⊢
  generalize limit = limit
  split
  · exact .finite h
  · exact .infinite

/-- An amount of at least half a hundredth has a double that exceeds it: half a hundredth
itself is rounded up. -/
theorem Decimal.exceeds_of_le {c : Nat} {x : Int} (h : 1 / 200 ≤ magnitude c x) :
    (finite false c x).toBinary64.ExceedsHalfHundredth := by
  have hc : c ≠ 0 := by
    rintro rfl
    rw [magnitude, Nat.cast_zero, zero_mul] at h
    norm_num at h
  have hlow : ¬ leadingExponent c x < -400 := by
    intro hsmall
    have hlt := h.trans_lt (magnitude_lt_pow c x)
    have hle : (10 : ℚ) ^ (leadingExponent c x + 1) ≤ 10 ^ (-3 : ℤ) := by
      rw [zpow_le_zpow_iff_right₀ (by norm_num)]
      omega
    have hvalue : (10 : ℚ) ^ (-3 : ℤ) < 1 / 200 := by norm_num
    exact absurd (hlt.trans_le hle) (not_lt.2 hvalue.le)
  have hquanta : Binary64.one <
      200 * Binary64.roundQuanta (c * tenTo x.toNat * Binary64.one) (tenTo (-x).toNat) := by
    have hpow : 0 < tenTo (-x).toNat := Nat.pow_pos (by decide)
    have hle : 1 * tenTo (-x).toNat ≤ c * tenTo x.toNat * 200 := by
      rw [magnitude_eq_div, div_le_div_iff₀ (by norm_num) (by exact_mod_cast hpow)] at h
      exact_mod_cast h
    have hmono : Binary64.roundQuanta (1 * Binary64.one) 200 ≤
        Binary64.roundQuanta (c * tenTo x.toNat * Binary64.one) (tenTo (-x).toNat) := by
      refine Binary64.roundQuanta_mono (by decide) hpow ?_
      calc 1 * Binary64.one * tenTo (-x).toNat = 1 * tenTo (-x).toNat * Binary64.one := by ring
        _ ≤ c * tenTo x.toNat * 200 * Binary64.one := Nat.mul_le_mul_right _ hle
        _ = c * tenTo x.toNat * Binary64.one * 200 := by ring
    have hhalf : Binary64.one < 200 * Binary64.roundQuanta (1 * Binary64.one) 200 := by
      decide +kernel
    omega
  simp only [toBinary64, if_neg hc, if_neg hlow]
  by_cases hhigh : 400 < leadingExponent c x
  · rw [if_pos hhigh]
    exact .infinite
  · rw [if_neg hhigh]
    exact Binary64.exceeds_ofQuotient hquanta

/-! ## Operations that leave quantities alone -/

/-- Every asset of the second store has its identifier, its vault and its quantity from
an asset of the first one. -/
def Store.KeepsQuantities (s s' : Store) : Prop :=
  ∀ a' ∈ s'.assets, ∃ a ∈ s.assets,
    a'.id = a.id ∧ a'.vaultId = a.vaultId ∧ a'.quantity = a.quantity

namespace Store.KeepsQuantities

variable {s s' s'' : Store} {time : Timestamp}

theorem of_assets (h : s'.assets = s.assets) : s.KeepsQuantities s' := by
  intro a ha
  rw [h] at ha
  exact ⟨a, ha, rfl, rfl, rfl⟩

theorem trans (h : s.KeepsQuantities s') (h' : s'.KeepsQuantities s'') :
    s.KeepsQuantities s'' := by
  intro a'' ha''
  obtain ⟨a', ha', hid', hvault', hquantity'⟩ := h' a'' ha''
  obtain ⟨a, ha, hid, hvault, hquantity⟩ := h a' ha'
  exact ⟨a, ha, hid'.trans hid, hvault'.trans hvault, hquantity'.trans hquantity⟩

end Store.KeepsQuantities

theorem Asset.quantity_moved (a : Asset) (target : AssetStatus) (time : Timestamp) :
    (a.moved target time).quantity = a.quantity := by
  cases target <;> rfl

namespace Store

variable {s s' : Store} {time : Timestamp}

theorem keepsQuantities_putMoved {a : Asset} (found : s.asset? a.id = some a)
    (target : AssetStatus) : s.KeepsQuantities (s.putAsset (a.moved target time)) := by
  intro a' ha'
  obtain ⟨b, hb, rfl⟩ := List.mem_map.1 ha'
  split
  · exact ⟨a, List.mem_of_find?_eq_some found, Asset.id_moved a target time,
      Asset.vaultId_moved a target time, Asset.quantity_moved a target time⟩
  · exact ⟨b, hb, rfl, rfl, rfl⟩

theorem keepsQuantities_moveHeld (vaultId : Uuid) (source target : AssetStatus) :
    s.KeepsQuantities (s.moveHeld vaultId source target time) := by
  intro a' ha'
  obtain ⟨a, ha, rfl⟩ := List.mem_map.1 ha'
  refine ⟨a, ha, ?_⟩
  split
  · exact ⟨Asset.id_moved a target time, Asset.vaultId_moved a target time,
      Asset.quantity_moved a target time⟩
  · exact ⟨rfl, rfl, rfl⟩

theorem keepsQuantities_settleAssets (vaultId : Uuid) (target : VaultStage) :
    s.KeepsQuantities (s.settleAssets vaultId target time) := by
  rw [settleAssets]
  split
  · exact keepsQuantities_moveHeld vaultId .pending .locked
  · split
    · exact keepsQuantities_moveHeld vaultId .locked .released
    · exact .of_assets rfl

end Store

theorem PaidOut.keepsQuantities {time : Timestamp} {vaultId : Uuid} {ids : List Uuid}
    {s s' : Store} (h : PaidOut time vaultId ids s s') : s.KeepsQuantities s' := by
  induction h with
  | nil => exact .of_assets rfl
  | cons found _ _ _ ih => exact (Store.keepsQuantities_putMoved found .distributed).trans ih

theorem Effect.keepsQuantities {time : Timestamp} {p : Proposal} {v : Vault} {s s' : Store}
    (h : Effect time p v s s') : s.KeepsQuantities s' := by
  cases h with
  | distribution _ _ _ paid => exact paid.keepsQuantities
  | termination => exact .of_assets rfl
  | none => exact .of_assets rfl

theorem Proposal.Moved.keepsQuantities {c : Context} {p q : Proposal} {s s' : Store}
    (h : Proposal.Moved c s p q s') : s.KeepsQuantities s' := by
  cases h with
  | executed _ _ effect => exact effect.keepsQuantities
  | _ => exact .of_assets rfl

/-- An operation that records or changes an asset. -/
def Operation.WritesQuantity : Operation → Prop
  | createAsset .. => True
  | updateAsset .. => True
  | _ => False

section Ok

open VaultGovernance.Action

variable {c : Context} {w w' : World}

theorem Settings.Written.keepsQuantities {s s' : Store} (h : Settings.Written s s') :
    s.KeepsQuantities s' := by
  rcases h with rfl | ⟨row, rfl⟩
  · exact .of_assets rfl
  · exact .of_assets rfl

theorem Vault.keepsQuantities_of_advance {id : Uuid} {target : VaultStage}
    {reason : Option String} {v : Vault}
    (h : Vault.advance id target reason c w = (.ok v, w')) :
    w.store.KeepsQuantities w'.store := by
  obtain ⟨v, -, -, -, hw⟩ := Vault.advance_ok h
  rw [hw]
  exact Store.KeepsQuantities.trans (.of_assets rfl)
    (Store.keepsQuantities_settleAssets id target)

theorem Vault.keepsQuantities_of_reconfigure {id : Uuid} {change : Vault → Vault} {v : Vault}
    (h : Vault.reconfigure id change c w = (.ok v, w')) : w.store.KeepsQuantities w'.store := by
  obtain ⟨v, -, -, hw⟩ := Vault.reconfigure_ok h
  rw [hw]
  exact .of_assets rfl

/-- Only recording and changing an asset write quantities. -/
theorem Operation.keepsQuantities_of_ok {op : Operation} {u : Unit}
    (h : op.action c w = (.ok u, w')) (hop : ¬ op.WritesQuantity) :
    w.store.KeepsQuantities w'.store := by
  have same {w' : World} (hw : w = w') : w.store.KeepsQuantities w'.store := by
    rw [hw]
    exact .of_assets rfl
  have others {s' : Store} (hw : w'.store = s') (hassets : s'.assets = w.store.assets) :
      w.store.KeepsQuantities w'.store := by
    rw [hw]
    exact .of_assets hassets
  cases op <;> simp only [action, discarded_eq_ok] at h <;> obtain ⟨r, h⟩ := h
  case createAsset => exact absurd trivial hop
  case updateAsset => exact absurd trivial hop
  case createVault =>
    obtain ⟨_, _, _, -, -, -, hw⟩ := Vault.create_ok h
    exact others hw rfl
  case advanceVault => exact Vault.keepsQuantities_of_advance h
  case failVault => exact Vault.keepsQuantities_of_advance h
  case recordApplyParams => exact Vault.keepsQuantities_of_reconfigure h
  case recordDispatchScript => exact Vault.keepsQuantities_of_reconfigure h
  case recordAcquireResults =>
    obtain ⟨_, -, -, hw⟩ := Vault.recordAcquireResults_ok h
    exact others hw rfl
  case transitionAsset id target =>
    obtain ⟨a, ha, -, hw⟩ := Asset.transition_ok h
    obtain rfl := Store.id_of_asset? ha
    rw [hw]
    exact Store.keepsQuantities_putMoved ha target
  case lockPendingAssets vaultId =>
    rw [Asset.moveAll_ok h]
    exact Store.keepsQuantities_moveHeld vaultId .pending .locked
  case releaseLockedAssets vaultId =>
    rw [Asset.moveAll_ok h]
    exact Store.keepsQuantities_moveHeld vaultId .locked .released
  case distributeAssets => exact (Asset.distribute_ok h).keepsQuantities
  case createSnapshot =>
    obtain ⟨_, _, _, -, -, -, hw⟩ := Snapshot.create_ok h
    exact others hw rfl
  case createProposal =>
    obtain ⟨_, _, -, -, -, hw⟩ := Proposal.create_ok h
    exact others hw rfl
  case markFeePaid =>
    obtain ⟨_, -, -, -, hw⟩ := Proposal.markFeePaid_ok h
    exact others hw rfl
  case openVoting =>
    obtain ⟨_, -, -, -, hw⟩ := Proposal.openVoting_ok h
    exact others hw rfl
  case finalizeProposal =>
    obtain ⟨_, -, -, -, hw⟩ := Proposal.finalize_ok h
    exact others hw rfl
  case executeProposal =>
    obtain ⟨_, s', -, -, hmoved, hw⟩ := Proposal.execute_ok h
    rw [hw]
    exact hmoved.keepsQuantities.trans (.of_assets rfl)
  case castVote =>
    obtain ⟨_, -, -, hw⟩ := Vote.cast_ok h
    exact others hw rfl
  case getClaim =>
    obtain ⟨_, hw⟩ := Claim.get_ok h
    exact others hw rfl
  case normalizeClaims =>
    obtain ⟨_, hw⟩ := Claim.backfill_ok h
    exact others hw rfl
  case ensureSettings => exact (Settings.ensure_ok h).keepsQuantities
  case updateSettings => exact (Settings.update_ok h).keepsQuantities
  case setSetting => exact (Settings.update_ok h).keepsQuantities
  case deleteSetting => exact (Settings.delete_ok h).keepsQuantities
  case seedSettings => exact (Settings.seed_ok h).keepsQuantities
  case getVault => exact same (Vault.find_eq_ok.1 h).2
  case getAsset => exact same (Asset.find_eq_ok.1 h).2
  case getProposal => exact same (Proposal.find_eq_ok.1 h).2
  case listAssets => exact same (Asset.list_ok h)
  case latestSnapshot => exact same (Snapshot.latest_ok h)
  case listSnapshots => exact same (Snapshot.list_ok h)
  case proposalFee => exact same (Settings.proposalFee_eq_ok.1 h).2
  case votingFee => exact same (Settings.votingFee_ok h)
  case getSetting => exact same (Settings.get_ok h)
  case getAllSettings => exact same (Settings.getAll_ok h)
  case tally =>
    obtain ⟨_, -, -, hw⟩ := Vote.tally_ok h
    exact same hw

/-! ## Operations that write quantities -/

namespace Asset

/-- A recorded quantity is what the column shows of the amount that was given. -/
theorem quantity_of_create {vaultId : Uuid} {draft : Draft} {a : Asset}
    (h : create vaultId draft c w = (.ok a, w')) :
    a.vaultId = vaultId ∧
      Column.numeric Column.moneyPlaces (draft.quantity.getD (Decimal.ofNat 1)) =
        .ok (some a.quantity) := by
  simp only [create, bind_eq, store_andThen] at h
  cases hv : w.store.vault? vaultId with
  | none => simp [hv] at h
  | some vault =>
      simp only [hv, ofExcept_andThen_eq_ok, now_andThen, modify_andThen, done_eq_ok] at h
      obtain ⟨_, -, _, -, shown, hshown, _, -, _, -, quantity, hquantity, rfl, rfl⟩ := h
      rw [Column.required_eq_ok.1 hquantity] at hshown
      exact ⟨Store.id_of_vault? hv, hshown⟩

/-- A changed asset keeps its quantity, or it becomes what the column shows of the number
that was written. -/
theorem quantity_of_withFields {a a' : Asset} {fields : OrderedMap Json} {time : Timestamp}
    (h : a.withFields fields time = .ok a') :
    a'.quantity = a.quantity ∨ ∃ j d, fields.get? "quantity" = some j ∧
      Column.decimalOfJson j = .ok (some d) ∧
      Column.numeric Column.moneyPlaces d = .ok (some a'.quantity) := by
  simp only [withFields, bind_eq_ok, pure_eq_ok] at h
  obtain ⟨_, -, _, -, _, -, written, hwritten, _, -, _, -, _, -, _, -, quantity, hquantity,
    rfl⟩ := h
  obtain rfl := Column.required_eq_ok.1 hquantity
  rw [Asset.written] at hwritten
  cases hj : fields.get? "quantity" with
  | none =>
      rw [hj] at hwritten
      exact .inl (Option.some.inj (Except.ok.inj hwritten)).symm
  | some j =>
      simp only [hj, bind_eq_ok] at hwritten
      obtain ⟨read, hread, hwritten⟩ := hwritten
      cases read with
      | none => cases hwritten
      | some d =>
          simp only [Column.overwriteNumeric] at hwritten
          split at hwritten
          · exact .inl (Option.some.inj (Except.ok.inj hwritten)).symm
          · exact .inr ⟨j, d, rfl, hread, hwritten⟩

theorem quantity_of_update {id : Uuid} {fields : OrderedMap Json} {a' : Asset}
    (h : update id fields c w = (.ok a', w')) :
    ∃ a, w.store.asset? id = some a ∧ Edited c.now a a' ∧ w'.store = w.store.putAsset a' ∧
      (a'.quantity = a.quantity ∨ ∃ j d, fields.get? "quantity" = some j ∧
        Column.decimalOfJson j = .ok (some d) ∧
        Column.numeric Column.moneyPlaces d = .ok (some a'.quantity)) := by
  simp only [update, bind_eq] at h
  split at h
  · simp [fail] at h
  · simp only [find_andThen_eq_ok, ofExcept_andThen_eq_ok, now_andThen, modify_andThen,
      done_eq_ok] at h
    obtain ⟨a, ha, _, -, _, hrow, rfl, rfl⟩ := h
    exact ⟨a, ha, edited_of_withFields hrow, rfl, quantity_of_withFields hrow⟩

end Asset

end Ok

/-! ## Amounts that requests submit -/

/-- A request submits an amount for an asset: it reaches the endpoint that records assets
of the asset's vault, with the amount in its form or left at one, or the endpoint that
changes the asset, with the amount in its form. -/
inductive Arrival.Submits (k : Arrival) (a : Asset) (d : Decimal) : Prop
  | recorded {id : String} {entries : OrderedMap Json}
      (reached : Http.Reaches k.context k.request (.createAsset id))
      (vault : Http.pathId "vault_id" id = .valid a.vaultId)
      (body : k.request.content = .value (.obj entries))
      (amount : entries.get? "quantity" = none ∧ d = .ofNat 1 ∨
        ∃ given, entries.get? "quantity" = some given ∧ Form.amount given = .ok d)
  | changed {id : String} {entries : OrderedMap Json} {given : Json}
      (reached : Http.Reaches k.context k.request (.updateAsset id))
      (asset : Http.pathId "asset_id" id = .valid a.id)
      (body : k.request.content = .value (.obj entries))
      (entry : entries.get? "quantity" = some given)
      (amount : Form.amount given = .ok d)

/-- An amount that a form accepts is a number above zero. -/
theorem Form.exists_of_amount {j : Json} {d : Decimal} (h : Form.amount j = .ok d) :
    ∃ c x, d = .finite false c x ∧ c ≠ 0 := by
  rw [Form.amount, Form.ensuring] at h
  cases hread : Form.decimal j with
  | error f => simp [hread] at h
  | ok given =>
      simp only [hread] at h
      split at h
      · next hpositive =>
        obtain rfl := Except.ok.inj h
        cases given with
        | finite negative c x =>
            simp only [amount.isPositive, Bool.and_eq_true, Bool.not_eq_true',
              decide_eq_true_eq] at hpositive
            exact ⟨c, x, by rw [hpositive.1], hpositive.2⟩
        | infinite negative => cases hpositive
        | nan negative signalling payload => cases hpositive
      · cases h

/-- The amount in a form for a new asset, which may be left out. -/
theorem Form.amount_of_optional {p : Place} {entries : OrderedMap Json} {d : Decimal}
    (h : optional "quantity" (Decimal.ofNat 1) (checking amount) p entries = .valid d) :
    entries.get? "quantity" = none ∧ d = .ofNat 1 ∨
      ∃ given, entries.get? "quantity" = some given ∧ amount given = .ok d := by
  rw [Form.optional] at h
  cases hgiven : entries.get? "quantity" with
  | none =>
      rw [hgiven] at h
      cases h
      exact .inl ⟨rfl, rfl⟩
  | some given =>
      simp only [hgiven, checking_eq_valid] at h
      exact .inr ⟨given, rfl, h⟩

/-- The text through which a change goes is read back as the amount. -/
theorem Column.eq_of_decimalOfJson_text {given : Json} {quantity d : Decimal}
    (hamount : Form.amount given = .ok quantity)
    (hread : decimalOfJson (.str quantity.scientificText) = .ok (some d)) : d = quantity := by
  obtain ⟨c, x, rfl, -⟩ := Form.exists_of_amount hamount
  rw [decimalOfJson] at hread
  cases htext : Decimal.ofText? (Decimal.finite false c x).scientificText with
  | none => simp [htext] at hread
  | some d' =>
      simp only [htext, Except.ok.injEq, Option.some.injEq] at hread
      rw [← hread]
      exact Decimal.eq_of_ofText?_scientificText htext rfl

namespace Arrival.Submits

variable {k : Arrival} {a a' : Asset} {d : Decimal}

/-- What is submitted is a number above zero. -/
theorem exists_finite (h : k.Submits a d) : ∃ c x, d = .finite false c x ∧ c ≠ 0 := by
  cases h with
  | recorded _ _ _ amount =>
      rcases amount with ⟨-, rfl⟩ | ⟨given, -, hamount⟩
      · exact ⟨1, 0, rfl, Nat.one_ne_zero⟩
      · exact Form.exists_of_amount hamount
  | changed _ _ _ _ amount => exact Form.exists_of_amount amount

/-- Submitting is about an asset's identifier and its vault only. -/
theorem of_same (h : k.Submits a d) (hid : a'.id = a.id) (hvault : a'.vaultId = a.vaultId) :
    k.Submits a' d := by
  cases h with
  | recorded reached vault body amount => exact .recorded reached (hvault ▸ vault) body amount
  | changed reached asset body entry amount =>
      exact .changed reached (hid ▸ asset) body entry amount

end Arrival.Submits

/-- The quantity of an asset is what the column shows of an amount that one of the
requests submitted for it. -/
def Asset.ExplainedBy (requests : List Arrival) (a : Asset) : Prop :=
  ∃ k ∈ requests, ∃ d, k.Submits a d ∧
    Column.numeric Column.moneyPlaces d = .ok (some a.quantity)

theorem Asset.ExplainedBy.of_same {requests more : List Arrival} {a a' : Asset}
    (h : a.ExplainedBy requests) (hid : a'.id = a.id) (hvault : a'.vaultId = a.vaultId)
    (hquantity : a'.quantity = a.quantity) : a'.ExplainedBy (requests ++ more) := by
  obtain ⟨k, hk, d, hsubmits, hshown⟩ := h
  exact ⟨k, List.mem_append_left _ hk, d, hsubmits.of_same hid hvault, by rw [hquantity, hshown]⟩

/-- An operation that a request asks for explains the quantities that it writes. -/
theorem World.explained_called {k : Arrival} {requests : List Arrival} {w : World}
    {e : Http.Endpoint} {op : Operation} (reached : Http.Reaches k.context k.request e)
    (asks : Http.Asks k.request e op) (hbefore : ∀ a ∈ w.store.assets, a.ExplainedBy requests) :
    ∀ a ∈ (w.called ⟨k.context, op⟩).store.assets, a.ExplainedBy (requests ++ [k]) := by
  intro a' ha'
  rw [World.called] at ha'
  rcases hrun : Action.transaction op.action k.context w with ⟨f | u, w'⟩ <;> rw [hrun] at ha'
  · rw [Action.store_of_transaction_error hrun] at ha'
    exact (hbefore a' ha').of_same rfl rfl rfl
  · have hok := Action.transaction_eq_ok.1 hrun
    have kept (h : w.store.KeepsQuantities w'.store) : a'.ExplainedBy (requests ++ [k]) := by
      obtain ⟨a, ha, hid, hvault, hquantity⟩ := h a' ha'
      exact (hbefore a ha).of_same hid hvault hquantity
    cases asks with
    | @createAsset id vaultId draft entries quantity input path body given amount =>
        obtain ⟨a, hcreate⟩ := Action.discarded_eq_ok.1 hok
        obtain ⟨-, hw⟩ := Asset.create_ok hcreate
        obtain ⟨hvault, hshown⟩ := Asset.quantity_of_create hcreate
        rw [given, Option.getD_some] at hshown
        rw [hw] at ha'
        rcases mem_added ha' with hold | rfl
        · exact (hbefore a' hold).of_same rfl rfl rfl
        · refine ⟨k, by simp, quantity, .recorded reached (hvault ▸ path) body ?_, hshown⟩
          exact Form.amount_of_optional amount
    | @updateAsset id assetId fields entries input path body amount =>
        obtain ⟨changed, hupdate⟩ := Action.discarded_eq_ok.1 hok
        obtain ⟨a, hfound, hedited, hw, hquantity⟩ := Asset.quantity_of_update hupdate
        obtain rfl : a.id = assetId := Store.id_of_asset? hfound
        have hid : changed.id = a.id := by rw [hedited]
        have hvault : changed.vaultId = a.vaultId := by rw [hedited]
        rw [hw] at ha'
        obtain ⟨b, hb, rfl⟩ := List.mem_map.1 ha'
        split
        · rcases hquantity with hsame | ⟨j, d, hj, hread, hshown⟩
          · exact (hbefore a (List.mem_of_find?_eq_some hfound)).of_same hid hvault hsame
          · rcases amount j hj with rfl | ⟨given, quantity, hgiven, hamount, rfl⟩
            · cases hread
            · obtain rfl := Column.eq_of_decimalOfJson_text hamount hread
              exact ⟨k, by simp, d, .changed reached (hid ▸ path) body hgiven hamount, hshown⟩
        · exact (hbefore b hb).of_same rfl rfl rfl
    | _ => exact kept (Operation.keepsQuantities_of_ok hok id)

/-- After any run of requests, every quantity is what the column shows of an amount that
was submitted for the asset. -/
theorem Asset.explained_storeServed (requests : List Arrival) :
    ∀ a ∈ (storeServed requests).assets, a.ExplainedBy requests := by
  induction requests using List.reverseRecOn with
  | nil => exact fun a ha => absurd ha (List.not_mem_nil)
  | append_singleton requests k ih =>
      intro a ha
      rcases storeServed_concat requests k with hsame | ⟨e, op, w, reached, asks, hw, hcalled⟩
      · rw [hsame] at ha
        exact (ih a ha).of_same rfl rfl rfl
      · rw [hcalled] at ha
        rw [← hw] at ih
        exact World.explained_called reached asks ih a ha

/-- Quantities stay above zero, down to amounts that two digits cannot show.  After any
run of requests, the quantity of every asset is what the column shows of an amount above
zero that one of the requests submitted for the asset.  It is above zero exactly if the
double nearest to that amount exceeds half a hundredth, as every double does that is
nearest to half a hundredth or more; otherwise it is zero. -/
theorem quantity_positive_unless_tiny (requests : List Arrival) {a : Asset}
    (ha : a ∈ (storeServed requests).assets) :
    ∃ k ∈ requests, ∃ c x, k.Submits a (.finite false c x) ∧ c ≠ 0 ∧
      Column.numeric Column.moneyPlaces (.finite false c x) = .ok (some a.quantity) ∧
      (a.quantity.IsPositive ↔
        (Decimal.finite false c x).toBinary64.ExceedsHalfHundredth) ∧
      (¬ a.quantity.IsPositive →
        a.quantity = .zeroHundredths ∧ Decimal.magnitude c x < 1 / 200) := by
  obtain ⟨k, hk, d, hsubmits, hshown⟩ := Asset.explained_storeServed requests a ha
  obtain ⟨c, x, rfl, hc⟩ := hsubmits.exists_finite
  have hdouble := Except.ok.inj hshown
  have hpositive := Column.shownDouble_isPositive hdouble
  refine ⟨k, hk, c, x, hsubmits, hc, hshown, hpositive, fun hnot => ⟨?_, ?_⟩⟩
  · rw [hpositive] at hnot
    rcases Decimal.toBinary64_unsigned c x with hinfinite | ⟨quanta, hfinite⟩
    · rw [hinfinite] at hnot
      exact absurd .infinite hnot
    · rw [hfinite] at hnot hdouble
      rw [Column.shownDouble_eq_zero hnot] at hdouble
      exact (Option.some.inj hdouble).symm
  · by_contra hlarge
    exact hnot (hpositive.2 (Decimal.exceeds_of_le (not_lt.1 hlarge)))

namespace Sample

/-- A request to the administrators' interface under the default configuration. -/
def arrival (second : Int) (method : Http.Method) (path body : String) : Arrival where
  context := ⟨⟨second * Timestamp.second⟩, {}⟩
  fresh := "trace"
  request := { method, path, body := some body }

/-- A new vault. -/
def newVault : Arrival := arrival 1 .post "/admin/v1/vaults" "\x7b\"name\": \"Treasury\"\x7d"

/-- A new asset of the vault. -/
def newAsset (body : String) : Arrival :=
  arrival 2 .post "/admin/v1/vaults/9e3779b1-0000-4000-8000-000000000001/assets" body

/-- An asset with half a hundredth as its quantity. -/
def recordingHalf : List Arrival :=
  [newVault,
    newAsset "\x7b\"policy_id\": \"policy\", \"asset_id\": \"token\", \"quantity\": \"0.005\"\x7d"]

/-- An asset with a thousandth as its quantity. -/
def recordingThousandth : List Arrival :=
  [newVault,
    newAsset "\x7b\"policy_id\": \"policy\", \"asset_id\": \"token\", \"quantity\": \"0.001\"\x7d"]

/-- An asset of the usual quantity that is changed to a thousandth. -/
def changingToThousandth : List Arrival :=
  [newVault, newAsset "\x7b\"policy_id\": \"policy\", \"asset_id\": \"token\"\x7d",
    arrival 3 .patch "/admin/v1/assets/3c6ef362-0000-4000-8000-000000000002"
      "\x7b\"quantity\": \"0.001\"\x7d"]

end Sample

/-- Half a hundredth is rounded up: the asset has a quantity above zero. -/
theorem quantity_positive_of_half_hundredth :
    ∃ a ∈ (storeServed Sample.recordingHalf).assets, a.quantity.IsPositive ∧
      ∃ k ∈ Sample.recordingHalf, ∃ c x, k.Submits a (.finite false c x) ∧
        (Decimal.finite false c x).toBinary64.ExceedsHalfHundredth := by
  obtain ⟨a, ha, habove⟩ : ∃ a ∈ (storeServed Sample.recordingHalf).assets,
      a.quantity.IsPositive := by decide +kernel
  obtain ⟨k, hk, c, x, hsubmits, -, -, hpositive, -⟩ :=
    quantity_positive_unless_tiny Sample.recordingHalf ha
  exact ⟨a, ha, habove, k, hk, c, x, hsubmits, hpositive.1 habove⟩

/-- A thousandth is accepted as the quantity of a new asset and of a recorded one, and
kept as zero. -/
theorem quantity_zero_of_thousandth :
    ((storeServed Sample.recordingThousandth).assets.map (·.quantity) =
        [Decimal.zeroHundredths] ∧
      (storeServed Sample.changingToThousandth).assets.map (·.quantity) =
        [Decimal.zeroHundredths]) ∧
    ¬ Decimal.zeroHundredths.IsPositive := by
  decide +kernel

end VaultGovernance
