import VaultGovernance.Proofs.Maps
import VaultGovernance.Proofs.StoredPayload

/-!
# VaultGovernance.Proofs.PayloadRules

Which payloads fit a type, and what is said about those that do not.  A payload counts as
having a field if it has a value there that is not null and not empty (`Payload.Has`), and
it fits its type if it has the fields that the type asks for and no others
(`Payload.Fits`).  Validation decides this, whatever the order of the fields and whatever
else they hold: it gives back the fields that count, or reports in order all fields that
are missing and all that are not allowed.
-/

namespace VaultGovernance

/-! ## Texts in order -/

/-- The texts with a property, each once and in increasing order. -/
structure ListsInOrder (texts : List String) (p : String → Prop) : Prop where
  sorted : texts.Pairwise (· ≤ ·)
  nodup : texts.Nodup
  mem_iff : ∀ f, f ∈ texts ↔ p f

@[simp] theorem sortTexts_nil : sortTexts [] = [] := List.mergeSort_nil

@[simp] theorem sortTexts_singleton (text : String) : sortTexts [text] = [text] :=
  List.mergeSort_singleton text

theorem perm_sortTexts (texts : List String) : (sortTexts texts).Perm texts :=
  List.mergeSort_perm _ _

theorem sorted_sortTexts (texts : List String) : (sortTexts texts).Pairwise (· ≤ ·) := by
  have htrans (a b c : String) (hab : decide (a ≤ b) = true) (hbc : decide (b ≤ c) = true) :
      decide (a ≤ c) = true :=
    decide_eq_true (String.le_trans (of_decide_eq_true hab) (of_decide_eq_true hbc))
  have htotal (a b : String) : (decide (a ≤ b) || decide (b ≤ a)) = true := by
    simpa using String.le_total a b
  exact (List.pairwise_mergeSort htrans htotal texts).imp of_decide_eq_true

/-- Sorting forgets in which order texts were given. -/
theorem sortTexts_congr {xs ys : List String} (h : xs.Perm ys) : sortTexts xs = sortTexts ys :=
  List.Perm.eq_of_pairwise (fun _ _ _ _ => String.le_antisymm) (sorted_sortTexts xs)
    (sorted_sortTexts ys) ((perm_sortTexts xs).trans (h.trans (perm_sortTexts ys).symm))

theorem listsInOrder_sortTexts {texts : List String} {p : String → Prop} (nodup : texts.Nodup)
    (mem_iff : ∀ f, f ∈ texts ↔ p f) : ListsInOrder (sortTexts texts) p where
  sorted := sorted_sortTexts texts
  nodup := (perm_sortTexts texts).nodup_iff.2 nodup
  mem_iff f := (perm_sortTexts texts).mem_iff.trans (mem_iff f)

/-! ## Fields that are missing and fields that are not allowed -/

namespace PayloadRule

variable {r : PayloadRule} {given given' : List String}

theorem mem_missing {f : String} : f ∈ r.missing given ↔
    f ∈ r.requiredAll ∧ f ∉ given ∨ f ∈ r.requiredAny ∧ ∀ g ∈ r.requiredAny, g ∉ given := by
  rw [missing, List.mem_append, List.mem_filter]
  by_cases hany : r.requiredAny.any given.contains = true
  · obtain ⟨g, hg, hgiven⟩ := List.any_eq_true.1 hany
    have hnot : ¬ ∀ g ∈ r.requiredAny, g ∉ given := fun hnone =>
      hnone g hg (List.contains_iff_mem.1 hgiven)
    simp [hany, hnot]
  · have hnone : ∀ g ∈ r.requiredAny, g ∉ given := by simpa using hany
    rw [if_neg hany, and_iff_left hnone]
    simp

theorem mem_forbidden {f : String} : f ∈ r.forbidden given ↔ f ∈ given ∧ f ∉ r.allowed := by
  simp [forbidden]

/-- What is missing depends on which fields are given, not on their order. -/
theorem missing_congr (h : ∀ f, f ∈ given ↔ f ∈ given') : r.missing given = r.missing given' := by
  have hcontains : given.contains = given'.contains := by
    funext f
    rw [Bool.eq_iff_iff, List.contains_iff_mem, List.contains_iff_mem, h]
  rw [missing, missing, hcontains]

theorem forbidden_perm (h : given.Perm given') : (r.forbidden given).Perm (r.forbidden given') :=
  h.filter _

/-- No field is asked for twice. -/
theorem nodup_allowed (type : ProposalType) : (of type).allowed.Nodup := by
  cases type <;> decide

theorem nodup_missing (type : ProposalType) (given : List String) :
    ((of type).missing given).Nodup := by
  refine (nodup_allowed type).sublist (List.Sublist.append List.filter_sublist ?_)
  split
  · exact List.nil_sublist _
  · exact List.Sublist.refl _

end PayloadRule

/-! ## Fields that count -/

/-- A value counts unless it is null or empty. -/
theorem Json.isPopulated_iff {j : Json} :
    j.isPopulated = true ↔ j ≠ .null ∧ j ≠ .str "" ∧ j ≠ .arr [] ∧ j ≠ .obj [] := by
  cases j <;> simp [Json.isPopulated]

namespace Payload

variable {type : ProposalType} {payload other fields : OrderedMap Json} {key : String}

/-- The payload has a value for a field, and the value counts. -/
def Has (payload : OrderedMap Json) (key : String) : Prop :=
  ∃ j, payload.get? key = some j ∧ j ≠ .null ∧ j ≠ .str "" ∧ j ≠ .arr [] ∧ j ≠ .obj []

/-- The payload has all of the fields that its type requires, one of those of which it
requires one, and no field that its type does not allow. -/
structure Fits (type : ProposalType) (payload : OrderedMap Json) : Prop where
  all : ∀ f ∈ (PayloadRule.of type).requiredAll, Has payload f
  any : (PayloadRule.of type).requiredAny ≠ [] →
    ∃ f ∈ (PayloadRule.of type).requiredAny, Has payload f
  only : ∀ f, Has payload f → f ∈ (PayloadRule.of type).allowed

/-- A field that is required and missing; those of which one is required are missing
together. -/
def Lacks (type : ProposalType) (payload : OrderedMap Json) (f : String) : Prop :=
  f ∈ (PayloadRule.of type).requiredAll ∧ ¬ Has payload f ∨
    f ∈ (PayloadRule.of type).requiredAny ∧
      ∀ g ∈ (PayloadRule.of type).requiredAny, ¬ Has payload g

/-- A field that the payload has and its type does not allow. -/
def HasForeign (type : ProposalType) (payload : OrderedMap Json) (f : String) : Prop :=
  Has payload f ∧ f ∉ (PayloadRule.of type).allowed

/-- Nothing is missing or foreign exactly if the payload fits. -/
theorem fits_iff : Fits type payload ↔
    (∀ f, ¬ Lacks type payload f) ∧ ∀ f, ¬ HasForeign type payload f := by
  constructor
  · intro h
    refine ⟨fun f hlacks => ?_, fun f hforeign => hforeign.2 (h.only f hforeign.1)⟩
    cases hlacks with
    | inl hall => exact hall.2 (h.all f hall.1)
    | inr hany =>
        obtain ⟨g, hg, hhas⟩ := h.any (List.ne_nil_of_mem hany.1)
        exact hany.2 g hg hhas
  · intro h
    obtain ⟨hlacks, hforeign⟩ := h
    constructor
    · intro f hf
      by_contra hnot
      exact hlacks f (.inl ⟨hf, hnot⟩)
    · intro hsome
      obtain ⟨f, hf⟩ := List.exists_mem_of_ne_nil _ hsome
      by_contra hnone
      exact hlacks f (.inr ⟨hf, fun g hg hhas => hnone ⟨g, hg, hhas⟩⟩)
    · intro f hhas
      by_contra hnot
      exact hforeign f ⟨hhas, hnot⟩

/-- The fields that count have the values that they have in the payload. -/
theorem get?_populated (distinct : payload.keys.Nodup) :
    (populated payload).get? key = (payload.get? key).filter Json.isPopulated := by
  induction payload with
  | nil => rfl
  | cons e rest ih =>
      rw [OrderedMap.keys_cons, List.nodup_cons] at distinct
      obtain ⟨hnew, hrest⟩ := distinct
      have hfirst : populated (e :: rest) =
          if e.2.isPopulated then e :: populated rest else populated rest := List.filter_cons
      rw [hfirst, OrderedMap.get?]
      by_cases hkey : e.1 = key
      · have hnone : OrderedMap.get? rest key = none := OrderedMap.get?_eq_none.2 (hkey ▸ hnew)
        rw [if_pos hkey]
        cases hcounts : e.2.isPopulated with
        | true => simp [OrderedMap.get?, hkey, hcounts, Option.filter]
        | false => simp [ih hrest, hnone, hcounts, Option.filter]
      · rw [if_neg hkey, ← ih hrest]
        split
        · rw [OrderedMap.get?, if_neg hkey]
        · rfl

theorem has_iff_mem_keys (distinct : payload.keys.Nodup) :
    Has payload key ↔ key ∈ (populated payload).keys := by
  rw [OrderedMap.mem_keys_iff, get?_populated distinct]
  simp only [Option.filter_eq_some_iff, Json.isPopulated_iff, Has]

/-- The fields that count are, all of them, fields that count. -/
theorem populated_populated (payload : OrderedMap Json) :
    populated (populated payload) = populated payload := by
  simp [populated]

/-! ## Validation -/

theorem mem_missing_iff (distinct : payload.keys.Nodup) {f : String} :
    f ∈ (PayloadRule.of type).missing (populated payload).keys ↔ Lacks type payload f := by
  simp only [PayloadRule.mem_missing, Lacks, has_iff_mem_keys distinct]

theorem mem_forbidden_iff (distinct : payload.keys.Nodup) {f : String} :
    f ∈ (PayloadRule.of type).forbidden (populated payload).keys ↔ HasForeign type payload f := by
  simp only [PayloadRule.mem_forbidden, HasForeign, has_iff_mem_keys distinct]

theorem validate_of_fits (distinct : payload.keys.Nodup) (h : Fits type payload) :
    validate type payload = .ok (populated payload) := by
  obtain ⟨hlacks, hforeign⟩ := fits_iff.1 h
  have hmissing : (PayloadRule.of type).missing (populated payload).keys = [] :=
    List.eq_nil_iff_forall_not_mem.2 fun f hf => hlacks f ((mem_missing_iff distinct).1 hf)
  have hforbidden : (PayloadRule.of type).forbidden (populated payload).keys = [] :=
    List.eq_nil_iff_forall_not_mem.2 fun f hf => hforeign f ((mem_forbidden_iff distinct).1 hf)
  simp [validate, hmissing, hforbidden]

theorem validate_of_not_fits (distinct : payload.keys.Nodup) (h : ¬ Fits type payload) :
    validate type payload = .error (.refusal (.invalidPayload (Choice.toJson type)
      ((PayloadRule.of type).missing (populated payload).keys)
      ((PayloadRule.of type).forbidden (populated payload).keys) [])) := by
  rw [validate, if_neg]
  intro hnone
  rw [Bool.and_eq_true, List.isEmpty_iff, List.isEmpty_iff] at hnone
  refine h (fits_iff.2 ⟨fun f hf => ?_, fun f hf => ?_⟩)
  · have hmem := (mem_missing_iff distinct).2 hf
    rw [hnone.1] at hmem
    cases hmem
  · have hmem := (mem_forbidden_iff distinct).2 hf
    rw [hnone.2] at hmem
    cases hmem

/-- A refusal that reports missing and forbidden fields, both at once, to programs and to
people. -/
structure Reports (type : ProposalType) (missing forbidden : List String) (e : DomainError) :
    Prop where
  code : e.code = "INVALID_PAYLOAD_FOR_TYPE"
  details : e.details = [("proposal_type", Choice.toJson type),
    ("missing", DomainError.textList missing), ("forbidden", DomainError.textList forbidden)]
  message : e.message = "Invalid payload for " ++ DomainError.named (Choice.toJson type) ++
    " proposal: " ++ "; ".intercalate
      ((if missing.isEmpty then [] else ["missing " ++ DomainError.commaList missing]) ++
        (if forbidden.isEmpty then [] else ["forbidden " ++ DomainError.commaList forbidden]))

theorem reports_invalidPayload (type : ProposalType) (missing forbidden : List String) :
    Reports type (sortTexts missing) (sortTexts forbidden)
      (.invalidPayload (Choice.toJson type) missing forbidden []) where
  code := rfl
  details := rfl
  message := by
    have hparts : DomainError.payloadParts missing forbidden [] =
        (if missing.isEmpty then [] else
            ["missing " ++ DomainError.commaList (sortTexts missing)]) ++
          (if forbidden.isEmpty then [] else
            ["forbidden " ++ DomainError.commaList (sortTexts forbidden)]) :=
      List.append_nil _
    rw [(perm_sortTexts missing).isEmpty_eq, (perm_sortTexts forbidden).isEmpty_eq, ← hparts]
    rfl

theorem Reports.toEntries_eq {missing forbidden : List String} {e e' : DomainError}
    (h : Reports type missing forbidden e) (h' : Reports type missing forbidden e') :
    e.toEntries = e'.toEntries := by
  rw [DomainError.toEntries, DomainError.toEntries, h.code, h'.code, h.message, h'.message,
    h.details, h'.details]

/-- Two validations with the same answer: the same fields, up to their order, or the same
report. -/
inductive Alike : Except Fault (OrderedMap Json) → Except Fault (OrderedMap Json) → Prop
  | fields {m m' : OrderedMap Json} (h : m.Perm m') : Alike (.ok m) (.ok m')
  | report {e e' : DomainError} (h : e.toEntries = e'.toEntries) :
      Alike (.error (.refusal e)) (.error (.refusal e'))

theorem validate_perm (h : payload.Perm other) :
    Alike (validate type payload) (validate type other) := by
  have hfields : (populated payload).Perm (populated other) := h.filter _
  have hkeys : (populated payload).keys.Perm (populated other).keys := hfields.map _
  have hmissing : (PayloadRule.of type).missing (populated payload).keys =
      (PayloadRule.of type).missing (populated other).keys :=
    PayloadRule.missing_congr fun f => hkeys.mem_iff
  have hforbidden := PayloadRule.forbidden_perm (r := PayloadRule.of type) hkeys
  simp only [validate, hmissing, hforbidden.isEmpty_eq]
  split
  · exact .fields hfields
  · have hreport := reports_invalidPayload type
      ((PayloadRule.of type).missing (populated other).keys)
    refine .report ((hreport _).toEntries_eq ?_)
    rw [sortTexts_congr hforbidden]
    exact hreport _

/-- Success means fitting. -/
theorem validate_isOk_iff (distinct : payload.keys.Nodup) :
    (∃ fields, validate type payload = .ok fields) ↔ Fits type payload := by
  constructor
  · intro h
    obtain ⟨fields, hfields⟩ := h
    by_contra hnot
    rw [validate_of_not_fits distinct hnot] at hfields
    cases hfields
  · intro h
    exact ⟨populated payload, validate_of_fits distinct h⟩

/-- What was validated is the part of the payload that counts. -/
structure IsPart (fields payload : OrderedMap Json) : Prop where
  sublist : fields.Sublist payload
  get?_of_has : ∀ key, Has payload key → fields.get? key = payload.get? key
  get?_of_not_has : ∀ key, ¬ Has payload key → fields.get? key = none

theorem isPart_populated (distinct : payload.keys.Nodup) : IsPart (populated payload) payload where
  sublist := List.filter_sublist
  get?_of_has key h := by
    obtain ⟨j, hj, hcounts⟩ := h
    rw [get?_populated distinct, hj, Option.filter_some, if_pos (Json.isPopulated_iff.2 hcounts)]
  get?_of_not_has key h := by
    rw [OrderedMap.get?_eq_none, ← has_iff_mem_keys distinct]
    exact h

/-- What was validated is valid as it is. -/
theorem validate_again (h : validate type payload = .ok fields) :
    validate type fields = .ok fields := by
  obtain rfl := (validate_ok h).1
  rw [← h, validate, validate, populated_populated]

/-- The report on a payload that does not fit is complete. -/
theorem reports_of_not_fits (distinct : payload.keys.Nodup) (h : ¬ Fits type payload) :
    ∃ e missing forbidden, validate type payload = .error (.refusal e) ∧
      Reports type missing forbidden e ∧ ListsInOrder missing (Lacks type payload) ∧
      ListsInOrder forbidden (HasForeign type payload) := by
  have hkeys : (populated payload).keys.Nodup :=
    distinct.sublist (List.Sublist.map _ List.filter_sublist)
  exact ⟨_, _, _, validate_of_not_fits distinct h, reports_invalidPayload type _ _,
    listsInOrder_sortTexts (PayloadRule.nodup_missing type _)
      fun _ => mem_missing_iff distinct,
    listsInOrder_sortTexts (hkeys.sublist List.filter_sublist)
      fun _ => mem_forbidden_iff distinct⟩

end Payload

/-- A payload, or none, is valid for a type exactly if it fits the type.  Its valid part is
what counts of it, which is valid as it is.  A payload that does not fit is refused by one
report of all that is missing and all that is not allowed.  The order of the fields plays no
part in this. -/
theorem payload_validated_exactly (type : ProposalType) (payload : Option (OrderedMap Json))
    (distinct : (payload.getD []).keys.Nodup) :
    let given := payload.getD []
    ((∃ fields, Payload.validate type given = .ok fields) ↔ Payload.Fits type given) ∧
    (∀ fields, Payload.validate type given = .ok fields →
      Payload.IsPart fields given ∧ Payload.validate type fields = .ok fields) ∧
    (¬ Payload.Fits type given →
      ∃ e missing forbidden, Payload.validate type given = .error (.refusal e) ∧
        Payload.Reports type missing forbidden e ∧
        ListsInOrder missing (Payload.Lacks type given) ∧
        ListsInOrder forbidden (Payload.HasForeign type given)) ∧
    (∀ other, given.Perm other →
      Payload.Alike (Payload.validate type given) (Payload.validate type other)) := by
  intro given
  constructor
  · exact Payload.validate_isOk_iff distinct
  constructor
  · intro fields h
    obtain rfl := (Payload.validate_ok h).1
    exact ⟨Payload.isPart_populated distinct, Payload.validate_again h⟩
  constructor
  · exact Payload.reports_of_not_fits distinct
  · exact fun other h => Payload.validate_perm h

namespace Sample

/-- Stakes no token, although the list of them is there, and burns one; what it says of its
colour does not count. -/
def stakes : OrderedMap Json :=
  [("fungible_tokens", .arr []), ("shade", .str "red"), ("burn_assets", .arr [.int 1]),
    ("colour", .null)]

end Sample

/-- As a proposal to stake the sample lacks both fields and has two foreign ones; what it burns
alone is a proposal to burn. -/
theorem payload_validated_exactly_of_sample :
    Payload.validate .staking Sample.stakes = .error (.refusal (.invalidPayload
      (Choice.toJson ProposalType.staking) ["fungible_tokens", "non_fungible_tokens"]
      ["shade", "burn_assets"] [])) ∧
    ¬ Payload.Fits .staking Sample.stakes ∧
    Payload.Fits .burning [("burn_assets", .arr [.int 1])] ∧
    ∃ e missing forbidden, Payload.validate .staking Sample.stakes = .error (.refusal e) ∧
      Payload.Reports .staking missing forbidden e ∧
      ListsInOrder missing (Payload.Lacks .staking Sample.stakes) ∧
      ListsInOrder forbidden (Payload.HasForeign .staking Sample.stakes) := by
  have hrefused : Payload.validate .staking Sample.stakes = .error (.refusal (.invalidPayload
      (Choice.toJson ProposalType.staking) ["fungible_tokens", "non_fungible_tokens"]
      ["shade", "burn_assets"] [])) := by decide
  have hburns : Payload.validate .burning [("burn_assets", .arr [.int 1])] =
      .ok [("burn_assets", .arr [.int 1])] := by decide
  obtain ⟨hiff, -, hreport, -⟩ :=
    payload_validated_exactly .staking (some Sample.stakes) (by decide)
  have hnot : ¬ Payload.Fits .staking Sample.stakes := by
    intro hfits
    obtain ⟨fields, hfields⟩ := hiff.2 hfits
    change Payload.validate .staking Sample.stakes = _ at hfields
    rw [hrefused] at hfields
    cases hfields
  have hfits := (payload_validated_exactly .burning (some [("burn_assets", .arr [.int 1])])
    (by decide)).1.1 ⟨_, hburns⟩
  exact ⟨hrefused, hnot, hfits, hreport hnot⟩

end VaultGovernance
