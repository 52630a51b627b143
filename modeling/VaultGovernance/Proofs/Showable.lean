import VaultGovernance.Json.Literal
import VaultGovernance.Json.Reader
import VaultGovernance.Proofs.IntegerText
import VaultGovernance.Proofs.Maps

/-!
# VaultGovernance.Proofs.Showable

Values that can be shown, or kept as a text (`Json.canShow`): no integer in them has too many
digits.  Whatever is read from JSON text is such a value, since the reader counts the digits
of an integer before it reads them (`Json.canShow_of_read`).
-/

namespace VaultGovernance

namespace Json

variable {j : Json} {s rest : List Char}

/-! ## Containers -/

/-- A list can be shown exactly if each of its items can. -/
theorem canShow_arr_iff {items : List Json} :
    (arr items).canShow = true ↔ ∀ x ∈ items, x.canShow = true := by
  rw [canShow, overlong?]
  induction items with
  | nil => simp [overlongItems?]
  | cons x rest ih =>
      rw [overlongItems?, List.forall_mem_cons, ← ih, canShow]
      cases x.overlong? <;> simp

/-- Entries can be shown exactly if each of their values can. -/
theorem canShow_obj_iff {entries : OrderedMap Json} :
    (obj entries).canShow = true ↔ ∀ e ∈ entries, e.2.canShow = true := by
  rw [canShow, overlong?]
  induction entries with
  | nil => simp [overlongEntries?]
  | cons e rest ih =>
      rw [overlongEntries?, List.forall_mem_cons, ← ih, canShow]
      cases e.2.overlong? <;> simp

/-! ## Numbers that are read -/

theorem lt_of_spanAsciiDigits {d : Nat} (h : d ∈ (spanAsciiDigits s).1) : d < 10 := by
  obtain ⟨c, hc, rfl⟩ := List.mem_map.1 h
  have hcode := toNat_of_isDigit (List.mem_takeWhile_imp hc)
  omega

theorem lt_of_readWhole? {digits : List Nat} (h : readWhole? s = some (digits, rest)) :
    ∀ d ∈ digits, d < 10 := by
  rw [readWhole?.eq_def] at h
  split at h
  · cases h
    simp
  · split at h
    · cases h
    · next hspan =>
      cases h
      exact fun d hd => lt_of_spanAsciiDigits hd

theorem canShow_of_integerOfDigits {negative : Bool} {digits : List Nat}
    (hdigits : ∀ d ∈ digits, d < 10) (h : integerOfDigits negative digits = .ok j) :
    j.canShow = true := by
  rw [integerOfDigits] at h
  split at h
  · next hlength =>
    cases h
    have habs : (signedInt negative (ofDigits digits)).natAbs = ofDigits digits := by
      cases negative <;> simp [signedInt]
    have hbound : ofDigits digits < 10 ^ integerDigitLimit :=
      (ofDigits_lt hdigits).trans_le (Nat.pow_le_pow_right (by decide) hlength)
    rw [canShow, overlong?, excessDigits?_eq_none_iff.2 (habs.trans_lt hbound)]
    rfl
  · cases h

theorem canShow_of_readNumber (h : readNumber s = .ok (j, rest)) : j.canShow = true := by
  rw [readNumber.eq_def] at h
  dsimp only at h
  split at h
  · cases h
  · next whole after hwhole =>
    split at h
    · obtain ⟨k, hk, hsame⟩ := map_eq_ok.1 h
      cases hsame
      exact canShow_of_integerOfDigits (lt_of_readWhole? hwhole) hk
    · cases h
      rfl

theorem canShow_of_readScalar (h : readScalar s = .ok (j, rest)) : j.canShow = true := by
  rw [readScalar] at h
  split at h
  · next r hr =>
    cases h
    obtain ⟨w, hw, hafter⟩ := List.exists_of_findSome?_eq_some hr
    obtain ⟨_, -, hpair⟩ := Option.map_eq_some_iff.1 hafter
    cases hpair
    fin_cases hw <;> rfl
  · exact canShow_of_readNumber h

/-! ## Values that are read -/

mutual
/-- A value that a step reads can be shown. -/
theorem canShow_of_readValue : ∀ (fuel : Nat) {s rest : List Char} {j : Json},
    readValue fuel s = .ok (j, rest) → j.canShow = true
  | 0, _, _, _, h => by cases h
  | fuel + 1, s, rest, j, h => by
      rw [readValue.eq_def] at h
      dsimp only at h
      split at h
      · obtain ⟨_, -, hsame⟩ := map_eq_ok.1 h
        cases hsame
        rfl
      · split at h
        · cases h
          rfl
        · obtain ⟨⟨items, _⟩, hread, hsame⟩ := map_eq_ok.1 h
          cases hsame
          exact canShow_arr_iff.2 (canShow_of_readItems fuel hread)
      · split at h
        · cases h
          rfl
        · obtain ⟨⟨entries, _⟩, hread, hsame⟩ := map_eq_ok.1 h
          cases hsame
          exact canShow_obj_iff.2 fun e he =>
            canShow_of_readEntries fuel hread e (OrderedMap.mem_of_mem_ofEntries he)
      · exact canShow_of_readScalar h

/-- Items that a step reads can be shown. -/
theorem canShow_of_readItems : ∀ (fuel : Nat) {s rest : List Char} {items : List Json},
    readItems fuel s = .ok (items, rest) → ∀ x ∈ items, x.canShow = true
  | 0, _, _, _, h => by cases h
  | fuel + 1, s, rest, items, h => by
      rw [readItems.eq_def] at h
      dsimp only at h
      split at h
      · cases h
      · next x _ hx =>
        have hfirst := canShow_of_readValue fuel hx
        split at h
        · cases h
          exact List.forall_mem_singleton.2 hfirst
        · obtain ⟨⟨more, _⟩, hread, hsame⟩ := map_eq_ok.1 h
          cases hsame
          exact List.forall_mem_cons.2 ⟨hfirst, canShow_of_readItems fuel hread⟩
        · cases h

/-- The values of entries that a step reads can be shown. -/
theorem canShow_of_readEntries : ∀ (fuel : Nat) {s rest : List Char} {entries : OrderedMap Json},
    readEntries fuel s = .ok (entries, rest) → ∀ e ∈ entries, e.2.canShow = true
  | 0, _, _, _, h => by cases h
  | fuel + 1, s, rest, entries, h => by
      rw [readEntries.eq_def] at h
      dsimp only at h
      split at h
      · split at h
        · cases h
        · split at h
          · split at h
            · cases h
            · next x _ hx =>
              have hfirst := canShow_of_readValue fuel hx
              split at h
              · cases h
                exact List.forall_mem_singleton.2 hfirst
              · obtain ⟨⟨more, _⟩, hread, hsame⟩ := map_eq_ok.1 h
                cases hsame
                exact List.forall_mem_cons.2 ⟨hfirst, canShow_of_readEntries fuel hread⟩
              · cases h
          · cases h
      · cases h
end

/-- What is read from a text can be shown. -/
theorem canShow_of_read {text : String} (h : read text = .ok j) : j.canShow = true := by
  rw [read] at h
  dsimp only at h
  split at h
  · cases h
  · cases h
  · next x rest hx =>
    split at h
    · cases h
      exact canShow_of_readValue _ hx
    · cases h

end Json

end VaultGovernance
