import VaultGovernance.Proofs.Answers
import VaultGovernance.Proofs.DistributionCheck
import VaultGovernance.Proofs.Quantities
import VaultGovernance.Proofs.SettingsMap

/-!
# VaultGovernance.Proofs.Fees

Fees that are read off the settings.  Any value may be written to the key of a fee.  The
fee is the integer that the value in force is read as, and where the value is read as none
the fee cannot be read and no proposal is made that has to name it.  What is in force is
what requests wrote last, although equal values are not written over each other: values
that are equal are read as the same integer (`Json.toInteger_of_same`).
-/

namespace VaultGovernance

/-! ## Values that are read as integers -/

/-- The double is one of the format: a finite one lies below the limit. -/
def Binary64.InRange : Binary64 → Prop
  | finite _ quanta => quanta < limit
  | _ => True

namespace Binary64

variable {x y : Binary64}

/-- A number that equals an integer is that integer when it is cut. -/
theorem truncate?_of_toInt? {n : Int} (h : x.toInt? = some n) : x.truncate? = some n := by
  cases x with
  | finite negative quanta =>
      rw [toInt?] at h
      split at h
      · exact h
      · cases h
  | infinite => cases h
  | nan => cases h

theorem rank?_of_eq (h : x.eq y = true) : ∃ r, x.rank? = some r ∧ y.rank? = some r := by
  rw [eq, Bool.and_eq_true, le, le] at h
  cases hx : x.rank? with
  | none => simp [hx] at h
  | some a =>
      cases hy : y.rank? with
      | none => simp [hx, hy] at h
      | some b =>
          simp only [hx, hy, decide_eq_true_eq] at h
          exact ⟨a, rfl, by rw [le_antisymm h.2 h.1]⟩

/-- Finite numbers of one rank are cut to one integer. -/
theorem truncate?_of_rank? {s t : Bool} {m n : Nat}
    (h : (finite s m).rank? = (finite t n).rank?) :
    (finite s m).truncate? = (finite t n).truncate? := by
  simp only [rank?, Option.some.injEq] at h
  have hsame : s = t ∧ m = n ∨ m = 0 ∧ n = 0 := by
    cases s <;> cases t <;> simp at h ⊢ <;> omega
  rcases hsame with ⟨rfl, rfl⟩ | ⟨rfl, rfl⟩
  · rfl
  · simp [truncate?]

/-- The rank of an infinity is that of no finite number in range. -/
theorem rank?_infinite_ne {s t : Bool} {n : Nat} (h : n < limit) :
    (infinite s).rank? ≠ (finite t n).rank? := by
  intro hrank
  simp only [rank?, Option.some.injEq] at hrank
  generalize limit = bound at h hrank
  cases s <;> cases t <;> simp at hrank <;> omega

end Binary64

namespace Json

variable {x y : Json} {n : Int}

/-- A value is read as an integer: a number is cut toward zero, and a text is read. -/
inductive ReadsAs : Json → Int → Prop
  | int (n : Int) : ReadsAs (.int n) n
  | bool (b : Bool) : ReadsAs (.bool b) (truthInt b)
  | float (negative : Bool) (quanta : Nat) :
      ReadsAs (.float (.finite negative quanta)) (signedInt negative (quanta / Binary64.one))
  | str {s : String} {n : Int} (h : readInteger s = .ok n) : ReadsAs (.str s) n

theorem readsAs_iff : x.ReadsAs n ↔ x.toInteger = .ok n := by
  constructor
  · intro h
    cases h with
    | int => rfl
    | bool => rfl
    | float negative quanta => rfl
    | str h => rw [toInteger, integerOfText, h]
  · intro h
    cases x with
    | int m => cases h; exact .int _
    | bool b => cases h; exact .bool b
    | str s =>
        rw [toInteger, integerOfText] at h
        split at h
        · next m hm =>
          cases h
          exact .str hm
        · cases h
        · cases h
    | float x =>
        cases x with
        | finite negative quanta => cases h; exact .float negative quanta
        | infinite => cases h
        | nan => cases h
    | _ => cases h

/-- If the value is a double, it is one of the format. -/
def InRange : Json → Prop
  | float x => x.InRange
  | _ => True

theorem toInteger_of_truncate? {x : Binary64} (h : x.truncate? = some n) :
    toInteger (.float x) = .ok n := by
  cases x with
  | finite negative quanta => simp only [toInteger, h]
  | infinite => cases h
  | nan => cases h

/-- Equal doubles are read alike. -/
theorem toInteger_of_eq {x y : Binary64} (h : x.eq y = true) (hx : x.InRange) (hy : y.InRange) :
    toInteger (.float x) = toInteger (.float y) := by
  obtain ⟨r, hrx, hry⟩ := Binary64.rank?_of_eq h
  have hrank : x.rank? = y.rank? := hrx.trans hry.symm
  cases x with
  | nan => cases hrx
  | infinite s =>
      cases y with
      | nan => cases hry
      | infinite t => rfl
      | finite t n => exact absurd hrank (Binary64.rank?_infinite_ne hy)
  | finite s m =>
      cases y with
      | nan => cases hry
      | infinite t => exact absurd hrank.symm (Binary64.rank?_infinite_ne hx)
      | finite t n =>
          have htruncate := Binary64.truncate?_of_rank? hrank
          simp only [toInteger, htruncate]

/-- What equals an integer is read as that integer. -/
theorem toInteger_of_sameInt (h : sameNumber.sameInt n y = true) : y.toInteger = .ok n := by
  cases y with
  | bool b => rw [of_decide_eq_true h]; rfl
  | int m => rw [of_decide_eq_true h]; rfl
  | float x => exact toInteger_of_truncate? (Binary64.truncate?_of_toInt? (of_decide_eq_true h))
  | _ => cases h

/-- Equal values are read alike. -/
theorem toInteger_of_same (h : same x y = true) (hx : x.InRange) (hy : y.InRange) :
    x.toInteger = y.toInteger := by
  cases x with
  | bool a => exact (toInteger_of_sameInt h).symm
  | int a => exact (toInteger_of_sameInt h).symm
  | float a =>
      cases y with
      | bool b =>
          exact toInteger_of_truncate? (Binary64.truncate?_of_toInt? (of_decide_eq_true h))
      | int b =>
          exact toInteger_of_truncate? (Binary64.truncate?_of_toInt? (of_decide_eq_true h))
      | float b => exact toInteger_of_eq h hx hy
      | _ => cases h
  | str a =>
      cases y with
      | str b => rw [eq_of_beq h]
      | _ => cases h
  | null => cases y <;> first | rfl | cases h
  | arr xs => cases y <;> first | rfl | cases h
  | obj xs => cases y <;> first | rfl | cases h

/-- What stands for a value is read as the value is. -/
theorem toInteger_of_standsFor (h : x.StandsFor y) (hx : x.InRange) (hy : y.InRange) :
    x.toInteger = y.toInteger := by
  rcases h with rfl | hsame
  · rfl
  · exact toInteger_of_same hsame hx hy

end Json

/-! ## Writes in a row -/

namespace Settings

open VaultGovernance.Action

variable {c : Context} {w : World} {m stored : Option Map}

/-- The value in force at a key. -/
def inForce (m : Option Map) (key : String) (default : Json) : Json := (valueAt m key).getD default

/-- What writes make of a map. -/
def writtenOver (m : Option Map) (writes : List Write) : Option Map :=
  writes.foldl (fun m write => write.on m) m

/-- Every double of a map is one of the format. -/
def AllInRange (m : Option Map) : Prop := ∀ key x, valueAt m key = some x → x.InRange

/-- Every double that a write gives is one of the format. -/
def Write.InRange (write : Write) : Prop :=
  ∀ values, write.values? = some values → ∀ e ∈ values, e.2.InRange

theorem inRange_start (h : AllInRange m) {key : String} {x : Json} (hx : start m key = some x) :
    x.InRange := by
  cases m with
  | some d => exact h key x hx
  | none =>
      have hdefaults : ∀ e ∈ defaults, e.2.InRange := by
        intro e he
        rcases List.mem_append.1 he with htype | hvote
        · obtain ⟨_, -, rfl⟩ := List.mem_map.1 htype
          trivial
        · obtain rfl := List.mem_singleton.1 hvote
          trivial
      exact hdefaults _ (OrderedMap.mem_of_get? hx)

theorem allInRange_update {d : Map} {key : String} {value : Option Json}
    (hd : AllInRange (some d)) (hvalue : ∀ x, value = some x → x.InRange) :
    AllInRange (some (Function.update d key value)) := by
  intro other x hx
  have hx' : Function.update d key value other = some x := hx
  rw [Function.update_apply] at hx'
  split at hx'
  · exact hvalue x hx'
  · exact hd other x hx'

theorem Write.allInRange_on {write : Write} (hm : AllInRange m) (hwrite : write.InRange) :
    AllInRange (write.on m) := by
  have hstart : AllInRange (some (start m)) := fun key x hx => inRange_start hm hx
  cases write with
  | ensure => exact hstart
  | update values =>
      intro key x hx
      have hx' : ((OrderedMap.ofEntries values).get? key).or (start m key) = some x := hx
      rcases Option.or_eq_some_iff.1 hx' with hgiven | ⟨-, hkept⟩
      · exact hwrite values rfl _ (OrderedMap.mem_of_mem_ofEntries (OrderedMap.mem_of_get? hgiven))
      · exact hstart key x hkept
  | set key value =>
      refine allInRange_update hstart fun x hx => ?_
      obtain rfl := Option.some.inj hx
      exact hwrite _ rfl _ List.mem_cons_self
  | delete key =>
      cases m with
      | none => exact hm
      | some d =>
          refine allInRange_update hm fun x hx => ?_
          cases hx
  | seed =>
      intro key x hx
      have hx' : (start m key).or (defaultMap key) = some x := hx
      rcases Option.or_eq_some_iff.1 hx' with hkept | ⟨-, hdefault⟩
      · exact hstart key x hkept
      · refine inRange_start (m := none) (fun _ _ hnone => ?_) hdefault
        cases hnone

/-- What is kept after a write is in range, as what was kept before and what was written. -/
theorem allInRange_written (hm : AllInRange m) (hstored : AllInRange stored) :
    AllInRange (m.map (start stored).written) := by
  cases m with
  | none => exact hm
  | some wanted =>
      intro key x hx
      have hx' : (start stored).written wanted key = some x := hx
      rw [Map.written] at hx'
      split at hx'
      · exact inRange_start hstored hx'
      · exact hm key x hx'

/-- The value in force in a stored map is read as the one that was to be kept. -/
theorem toInteger_inForce (h : Option.Rel Map.StandsFor stored m) (hstored : AllInRange stored)
    (hm : AllInRange m) (key : String) (default : Json) :
    (inForce stored key default).toInteger = (inForce m key default).toInteger := by
  cases h with
  | none => rfl
  | @some d d' h =>
      have hkey := h key
      have hd := hstored key
      have hd' := hm key
      simp only [inForce, valueAt, Option.bind_some] at hd hd' ⊢
      generalize d key = x, d' key = y at hkey hd hd'
      cases hkey with
      | none => rfl
      | some hvalues => exact Json.toInteger_of_standsFor hvalues (hd _ rfl) (hd' _ rfl)

/-! ## Fees -/

/-- The fee for a proposal is the value in force, read. -/
theorem feeIn_eq (s : Store) (type : ProposalType) :
    feeIn s type =
      (inForce (mapIn s) (proposalFeeKey type) (.int (defaultProposalFee type))).toInteger := by
  rw [feeIn, inForce, mapIn]
  cases s.settings <;> rfl

/-- The fee for a vote is the value in force, read. -/
theorem votingFee_run : votingFee c w =
    ((inForce (mapIn w.store) votingFeeKey (.int defaultVotingFee)).toInteger, w) := by
  simp only [votingFee, get, bind_eq, andThen_assoc, stored_andThen]
  refine (ofExcept_run _).trans ?_
  rw [inForce, mapIn]
  cases w.store.settings <;> rfl

/-- A write leaves everything but the settings. -/
theorem Write.written_called (write : Write) :
    Written w.store (w.called ⟨c, write.operation⟩).store := by
  rw [World.called]
  rcases hrun : transaction write.operation.action c w with ⟨e | u, w'⟩
  · exact .inl (store_of_transaction_error hrun)
  · have hok := transaction_eq_ok.1 hrun
    cases write with
    | ensure =>
        obtain ⟨_, h⟩ := discarded_eq_ok.1 hok
        exact ensure_ok h
    | update values =>
        obtain ⟨_, h⟩ := discarded_eq_ok.1 hok
        exact update_ok h
    | set key value =>
        obtain ⟨_, h⟩ := discarded_eq_ok.1 hok
        exact update_ok h
    | delete key =>
        obtain ⟨_, h⟩ := discarded_eq_ok.1 hok
        exact delete_ok h
    | seed =>
        obtain ⟨_, h⟩ := discarded_eq_ok.1 hok
        exact seed_ok h

end Settings

/-! ## Requests that write the settings -/

namespace Body

variable {p : Place} {j : Json}

theorem someObject_eq_valid {values : OrderedMap Json} :
    someObject p j = .valid values ↔ j = .obj values ∧ values ≠ [] := by
  cases j with
  | obj entries =>
      cases entries with
      | nil =>
          have hfault : someObject p (.obj []) = .fault p .tooFew (.obj []) := rfl
          rw [hfault]
          constructor
          · intro h
            cases h
          · rintro ⟨hnone, hsome⟩
            exact absurd (Json.obj.inj hnone).symm hsome
      | cons e rest =>
          have hobject : someObject p (.obj (e :: rest)) = .valid (e :: rest) :=
            Form.anyObject_obj (e :: rest)
          rw [hobject]
          constructor
          · intro h
            cases h
            exact ⟨rfl, List.cons_ne_nil _ _⟩
          · rintro ⟨hobj, -⟩
            cases hobj
            rfl
  | _ =>
      constructor
      · intro h
        cases h
      · rintro ⟨hobj, -⟩
        cases hobj

/-- A form with new settings is an object of at least one of them. -/
theorem settings_eq_valid {act : Action (OrderedMap Json)} :
    settings p j = .valid act ↔ ∃ form values : OrderedMap Json, j = .obj form ∧
      form.get? "settings" = some (.obj values) ∧ values ≠ [] ∧ Settings.update values = act := by
  rw [settings, Form.form_eq_valid]
  refine exists_congr fun form => ?_
  rw [Checked.map_eq_valid, ← exists_and_left]
  refine exists_congr fun values => and_congr_right fun _ => ?_
  rw [Form.required, ← and_assoc]
  refine and_congr_left fun _ => ?_
  cases OrderedMap.get? form "settings" with
  | none => simp [Checked.fault]
  | some given => simp [someObject_eq_valid]

end Body

/-- A request writes the settings: it reaches their endpoint with new ones in its form, or the
endpoint that removes a key. -/
inductive Arrival.WritesSettings (k : Arrival) : Settings.Write → Prop
  | patch {form values : OrderedMap Json}
      (reached : Http.Reaches k.context k.request .updateSettings)
      (body : k.request.content = .value (.obj form))
      (entry : form.get? "settings" = some (.obj values))
      (some : values ≠ []) : WritesSettings k (.update values)
  | removal {key : String} (reached : Http.Reaches k.context k.request (.deleteSetting key)) :
      WritesSettings k (.delete key)

/-- What a request writes was read from its body, so it can be stored. -/
theorem Arrival.WritesSettings.isStorable {k : Arrival} {write : Settings.Write}
    (h : k.WritesSettings write) : write.isStorable = true := by
  cases h with
  | @patch form values _ body entry _ =>
      have hform := Json.canShow_obj_iff.1 (Http.Request.canShow_of_content body)
      have hvalues := Json.canShow_obj_iff.1 (hform _ (OrderedMap.mem_of_get? entry))
      have hall : (values.all fun e => e.2.canShow) = true := List.all_eq_true.2 hvalues
      exact hall
  | removal => rfl

/-- What a request that writes the settings does to the store. -/
theorem World.answered_of_writesSettings {w : World} {k : Arrival} {write : Settings.Write}
    (h : k.WritesSettings write) :
    ∃ v : World, v.store = w.store ∧
      (w.answered k).store = (v.called ⟨k.context, write.operation⟩).store := by
  cases h with
  | @patch form values reached body entry some =>
      obtain ⟨path, v, hv, hstore⟩ :=
        Http.exchange_store_of_reaches (w := w) k.fresh reached
      refine ⟨v, hv, hstore.trans ?_⟩
      have hinput : Http.withBody { k.request with path } (.valid ()) (Http.alone Body.settings) =
          .valid (Settings.update values) :=
        Http.withBody_eq_valid.2 ⟨(), .obj form, _, rfl, body,
          Checked.map_eq_valid.2
            ⟨_, Body.settings_eq_valid.2 ⟨form, values, rfl, entry, some, rfl⟩, rfl⟩, rfl⟩
      have hcalled : v.called ⟨k.context, .updateSettings values⟩ = _ := Http.called_world rfl
      rw [Http.handle, hinput, Http.perform_run]
      exact congrArg World.store hcalled.symm
  | removal reached =>
      obtain ⟨path, v, hv, hstore⟩ :=
        Http.exchange_store_of_reaches (w := w) k.fresh reached
      exact ⟨v, hv, hstore.trans (congrArg World.store Http.handle_deleteSetting)⟩

namespace Settings

variable {w : World} {m : Option Map}

/-- What is stored after requests stands for what they wrote, and nothing else changed. -/
theorem standsFor_served {requests : List Arrival} {writes : List Write}
    (h : List.Forall₂ Arrival.WritesSettings requests writes) (hkeyed : AllKeyed w.store)
    (hstands : Option.Rel Map.StandsFor (mapIn w.store) m) (hstored : AllInRange (mapIn w.store))
    (hm : AllInRange m) (hwrites : ∀ write ∈ writes, write.InRange) :
    let s := (w.served requests).store
    Option.Rel Map.StandsFor (mapIn s) (writtenOver m writes) ∧ AllInRange (mapIn s) ∧
      AllInRange (writtenOver m writes) ∧ Written w.store s := by
  induction h generalizing w m with
  | nil => exact ⟨hstands, hstored, hm, .inl rfl⟩
  | @cons k write requests writes hk _ ih =>
      obtain ⟨v, hv, hanswered⟩ := World.answered_of_writesSettings (w := w) hk
      rw [← hv] at hkeyed hstands hstored
      obtain ⟨hkeyed', hmap⟩ := Settings.Write.mapIn_called hkeyed k.context hk.isStorable
      have hwritten : Written v.store (v.called ⟨k.context, write.operation⟩).store :=
        write.written_called
      rw [← hanswered] at hkeyed' hmap hwritten
      have hrange := hwrites write List.mem_cons_self
      have hstored' := allInRange_written (Write.allInRange_on hstored hrange) hstored
      obtain ⟨hstands', hstored'', hm', hrest⟩ := ih hkeyed'
        (hmap ▸ write.standsFor_on hstands) (hmap ▸ hstored') (Write.allInRange_on hm hrange)
        fun write' hwrite' => hwrites write' (List.mem_cons_of_mem _ hwrite')
      rw [hv] at hwritten
      exact ⟨hstands', hstored'', hm', hwritten.trans hrest⟩

theorem rel_standsFor_refl (m : Option Map) : Option.Rel Map.StandsFor m m := by
  cases m with
  | none => exact .none
  | some d => exact .some (.refl d)

end Settings

/-! ## Proposals that have to name their fee -/

namespace Proposal

open VaultGovernance.Action

variable {c : Context} {w : World} {v : Vault} {draft : Draft}

/-- What a proposal on a vault needs apart from its fee: a payload that is valid for its type
and has a column for each of its fields, voting powers, a creator, a title, and options that
can be kept, if there are any. -/
structure Draft.Ready (s : Store) (vaultId : Uuid) (draft : Draft) : Prop where
  date : checkDate draft.payload = .ok ()
  payload : ∃ fields, Payload.validate draft.type draft.payload = .ok fields ∧
    (draft.type = .distribution →
      Distribution.check s vaultId (Payload.value fields Distribution.field) = .ok ()) ∧
    (∃ reason, Column.textOfJson (Payload.value fields "termination_reason") = .ok reason) ∧
    ∃ date, Column.dateOfJson (Payload.value fields dateField) = .ok date
  snapshot : ∃ x, Snapshot.latestOf (s.snapshotsOf vaultId) = some x
  creator : ∃ creator, draft.creatorId = some creator
  title : ∃ title, draft.title = some title
  options : ∃ options rows, Ballot.read draft.options = .ok options ∧
    Ballot.store (s.serial + 2) options = .ok rows

theorem create_iff_fee (hv : w.store.vault? v.id = some v) (governed : v.stage = .locked)
    (h : draft.Ready w.store v.id) :
    (∃ p w', create v.id draft c w = (.ok p, w')) ↔
      ∃ fee, Settings.feeIn w.store draft.type = .ok fee := by
  constructor
  · rintro ⟨p, w', hp⟩
    obtain ⟨-, _, _, _, fee, _, -, -, -, -, -, hfee, -⟩ := create_eq_ok_iff.1 hp
    exact ⟨fee, hfee⟩
  · rintro ⟨fee, hfee⟩
    obtain ⟨hdate, ⟨fields, hfields, hcheck, ⟨reason, hreason⟩, date, htermination⟩, ⟨x, hx⟩,
      ⟨creator, hcreator⟩, ⟨title, htitle⟩, options, rows, hoptions, hrows⟩ := h
    have hrow : ∃ p, rowOf w.store v.id x.id fee draft fields options c.now = .ok p := by
      simp only [rowOf, bind_eq_ok, pure_eq_ok, Column.required_eq_ok]
      exact ⟨_, reason, hreason, date, htermination, creator, hcreator, title, htitle, rows, hrows,
        rfl⟩
    obtain ⟨p, hp⟩ := hrow
    exact ⟨p, _, create_eq_ok_iff.2 ⟨hdate, v, fields, x, fee, options, hv, governed, hfields,
      hcheck, hx, hfee, hoptions, hp, rfl⟩⟩

end Proposal

namespace Sample

/-- A vault in governance, with its voting powers recorded. -/
def inGovernance : World := World.after {} governing

/-- A proposal to expand the vault, which needs no payload. -/
def expanding : Proposal.Draft := { draft with type := .expansion, payload := [] }

/-- The key of the fee for expanding. -/
def expansionKey : String := "governance_fee_proposal_expansion"

/-- New settings, in which the fee for expanding is a text that is no integer. -/
def spoiling : Arrival :=
  arrival 18 .patch "/admin/v1/system-settings"
    "\x7b\"settings\": \x7b\"governance_fee_proposal_expansion\": \"abc\"\x7d\x7d"

/-- The fee for expanding is removed again. -/
def removing : Arrival :=
  arrival 19 .delete "/admin/v1/system-settings/governance_fee_proposal_expansion" ""

/-- Nothing is missing of a proposal to expand the vault. -/
theorem expanding_ready : expanding.Ready inGovernance.store governed.id where
  date := rfl
  payload := ⟨[], rfl, fun h => absurd h (by decide), ⟨none, rfl⟩, none, rfl⟩
  snapshot := Option.isSome_iff_exists.1 (by decide +kernel)
  creator := ⟨_, rfl⟩
  title := ⟨_, rfl⟩
  options := ⟨[], [], rfl, rfl⟩

theorem spoiling_writes :
    spoiling.WritesSettings (.update [(expansionKey, .str "abc")]) := by
  have hbody : spoiling.request.content =
      .value (.obj [("settings", .obj [(expansionKey, .str "abc")])]) :=
    Http.Request.content_of_read rfl (by decide) (by decide +kernel) (by decide +kernel)
  exact .patch (.inl (by decide +kernel)) hbody rfl (List.cons_ne_nil _ _)

theorem removing_writes : removing.WritesSettings (.delete expansionKey) :=
  .removal (.inl (by decide +kernel))

end Sample

end VaultGovernance
