import VaultGovernance.Proofs.Action
import VaultGovernance.Proposal.Lifecycle

/-!
# VaultGovernance.Proofs.Refusals

Faults that are no refusals.  Reading values and putting them into columns may fail, but
only below the domain: no refusal with a code comes from there.  So the refusals of an
operation are those that it states itself, and the readings between them can be passed
over (`NeverRefuses.andThen`).
-/

namespace VaultGovernance

/-- A reading that has a result or fails below the domain. -/
def NeverRefuses {α : Type} (x : Except Fault α) : Prop := ∀ e, x ≠ .error (.refusal e)

variable {α β : Type}

theorem neverRefuses_ok (a : α) : NeverRefuses (.ok a) := fun _ h => nomatch h

theorem NeverRefuses.bind {x : Except Fault α} {f : α → Except Fault β} (h : NeverRefuses x)
    (hf : ∀ a, NeverRefuses (f a)) : NeverRefuses (x >>= f) := by
  intro e he
  cases bind_eq_error.1 he with
  | inl hx => exact h e hx
  | inr hrest =>
      obtain ⟨a, -, ha⟩ := hrest
      exact hf a e ha

theorem NeverRefuses.map {x : Except Fault α} (h : NeverRefuses x) (f : α → β) :
    NeverRefuses (x.map f) := by
  intro e he
  cases x with
  | error fault => exact h e (congrArg Except.error (Except.error.inj he))
  | ok a => cases he

/-- An action that starts with such a reading refuses after it, if it does. -/
theorem NeverRefuses.andThen {act : Action α} {f : α → Action β} {c : Context} {w w' : World}
    {x : Except Fault α} {e : DomainError} (h : NeverRefuses x) (hrun : act c w = (x, w))
    (he : act.andThen f c w = (.error (.refusal e), w')) :
    ∃ a, f a c w = (.error (.refusal e), w') := by
  cases x with
  | error fault =>
      rw [Action.andThen_of_error hrun] at he
      have hfault : fault = .refusal e := Except.error.inj (Prod.mk.inj he).1
      exact absurd (congrArg Except.error hfault) (h e)
  | ok a =>
      rw [Action.andThen_of_ok hrun] at he
      exact ⟨a, he⟩

/-! ## Values -/

theorem Json.neverRefuses_toInteger (j : Json) : NeverRefuses j.toInteger := by
  intro e
  cases j with
  | str s =>
      rw [toInteger, integerOfText]
      split <;> simp
  | float x =>
      cases x with
      | finite negative quanta =>
          simp only [toInteger]
          split <;> simp
      | _ => simp [toInteger]
  | _ => simp [toInteger]

theorem Json.elements_eq_error {j : Json} {e : Fault} (h : j.elements = .error e) :
    e = .wrongType := by
  cases j <;> cases h <;> rfl

theorem Json.neverRefuses_elements (j : Json) : NeverRefuses j.elements := by
  intro e h
  cases elements_eq_error h

/-! ## Columns -/

namespace Column

theorem neverRefuses_bigint (n : Int) : NeverRefuses (bigint n) := by
  intro e
  rw [bigint]
  split <;> simp

theorem neverRefuses_optionalBigint (n : Option Int) : NeverRefuses (optionalBigint n) := by
  cases n with
  | none => exact neverRefuses_ok none
  | some n => exact (neverRefuses_bigint n).map _

theorem neverRefuses_numeric (places : Nat) (d : Decimal) : NeverRefuses (numeric places d) := by
  intro e
  unfold numeric
  split <;> simp

theorem neverRefuses_integerOfJson (j : Json) : NeverRefuses (integerOfJson j) := by
  cases j with
  | int n => exact (neverRefuses_bigint n).map _
  | float x =>
      rw [integerOfJson]
      split
      · exact (neverRefuses_bigint _).map _
      · exact fun e h => nomatch h
  | _ => exact fun e h => nomatch h

theorem neverRefuses_textOfJson (j : Json) : NeverRefuses (textOfJson j) := by
  cases j with
  | int n => exact (neverRefuses_bigint n).map _
  | _ => exact fun e h => nomatch h

theorem neverRefuses_dateOfJson (j : Json) : NeverRefuses (dateOfJson j) := by
  intro e
  cases j with
  | str s =>
      rw [dateOfJson]
      split <;> simp
  | _ => simp [dateOfJson]

theorem neverRefuses_required (table column : String) (x : Option α) :
    NeverRefuses (required table column x) := by
  intro e
  cases x <;> simp [required]

end Column

/-! ## Proposals -/

namespace Ballot

theorem neverRefuses_readOptions (position : Nat) (values : List Json) :
    NeverRefuses (readOptions position values) := by
  induction values generalizing position with
  | nil => exact neverRefuses_ok []
  | cons j rest ih =>
      have hfirst : NeverRefuses (readOption position j) := by
        intro e
        cases j with
        | obj es =>
            rw [readOption]
            split <;> simp
        | _ => simp [readOption]
      exact hfirst.bind fun _ => (ih _).bind fun _ => neverRefuses_ok _

theorem neverRefuses_read (options : Json) : NeverRefuses (read options) := by
  rw [read]
  split
  · exact options.neverRefuses_elements.bind (neverRefuses_readOptions 0)
  · exact neverRefuses_ok []

theorem neverRefuses_store (serial : Nat) (drafts : List OptionDraft) :
    NeverRefuses (store serial drafts) := by
  have horders (drafts : List OptionDraft) : NeverRefuses (orders drafts) := by
    induction drafts with
    | nil => exact neverRefuses_ok []
    | cons d rest ih =>
        refine (Column.neverRefuses_integerOfJson d.order).bind fun order => ?_
        cases order <;> exact ih.bind fun _ => neverRefuses_ok _
  have hlabels (drafts : List OptionDraft) : NeverRefuses (labels drafts) := by
    induction drafts with
    | nil => exact neverRefuses_ok []
    | cons d rest ih =>
        exact (Column.neverRefuses_textOfJson d.label).bind fun _ =>
          ih.bind fun _ => neverRefuses_ok _
  have hrequired (labels : List (Option String)) : NeverRefuses (requireLabels labels) := by
    induction labels with
    | nil => exact neverRefuses_ok []
    | cons l rest ih =>
        exact (Column.neverRefuses_required _ _ l).bind fun _ =>
          ih.bind fun _ => neverRefuses_ok _
  exact (horders drafts).bind fun _ => (hlabels drafts).bind fun _ =>
    (hrequired _).bind fun _ => neverRefuses_ok _

end Ballot

theorem Proposal.neverRefuses_rowOf (s : Store) (vaultId snapshotId : Uuid) (fee : Int)
    (draft : Draft) (fields : OrderedMap Json) (options : List Ballot.OptionDraft)
    (time : Timestamp) :
    NeverRefuses (rowOf s vaultId snapshotId fee draft fields options time) :=
  (Column.neverRefuses_textOfJson _).bind fun _ => (Column.neverRefuses_dateOfJson _).bind fun _ =>
    (Column.neverRefuses_required _ _ _).bind fun _ => (Column.neverRefuses_required _ _ _).bind
      fun _ => (Ballot.neverRefuses_store _ _).bind fun _ => neverRefuses_ok _

end VaultGovernance
