import Mathlib
import VaultGovernance.Text.Integer

/-!
# VaultGovernance.Proofs.IntegerText

Whole numbers survive being written and read.  The canonical text of a number
is made of plain digits, so the liberal reader has nothing to trim and nothing
to skip; the only limit is the number of digits.  Whatever was read keeps to
that limit, so it can be written and read again.
-/

namespace VaultGovernance

/-! ## Plain digits -/

section Digit

variable {c : Char}

/-- The code points of plain digits. -/
theorem toNat_of_isDigit (h : c.isDigit = true) : 48 ≤ c.toNat ∧ c.toNat ≤ 57 := by
  rw [Char.isDigit, Bool.and_eq_true, decide_eq_true_iff, decide_eq_true_iff] at h
  exact h

theorem digitValue?_of_isDigit (h : c.isDigit = true) :
    digitValue? c = some (c.toNat - 48) := by
  have hc := toNat_of_isDigit h
  have hfirst : (48 ≤ c.toNat && c.toNat < 48 + 10) = true := by
    rw [Bool.and_eq_true, decide_eq_true_iff, decide_eq_true_iff]
    omega
  have hzeros : digitZeros = 48 :: digitZeros.tail := rfl
  rw [digitValue?, hzeros, List.find?_cons_of_pos, Option.map_some]
  exact hfirst

/-- A plain digit is no blank. -/
theorem isIntegerBlank_of_isDigit (h : c.isDigit = true) : isIntegerBlank c = false := by
  have hc := toNat_of_isDigit h
  have hblank : isBlank c = false := by
    simp only [isBlank, Bool.or_eq_false_iff, Bool.and_eq_false_iff, beq_eq_false_iff_ne,
      decide_eq_false_iff_not]
    omega
  rw [isIntegerBlank, hblank, Bool.false_and]

end Digit

/-- Nothing is trimmed off a text without blanks. -/
theorem trimBoth_eq_self {p : Char → Bool} {s : List Char} (h : ∀ c ∈ s, p c = false) :
    trimBoth p s = s := by
  have hdrop (t : List Char) (ht : ∀ c ∈ t, p c = false) : t.dropWhile p = t := by
    cases t with
    | nil => rfl
    | cons c t =>
        rw [List.dropWhile_cons_of_neg]
        rw [ht c List.mem_cons_self]
        exact Bool.false_ne_true
  have hback : s.reverse.dropWhile p = s.reverse :=
    hdrop s.reverse fun c hc => h c (List.mem_reverse.1 hc)
  rw [trimBoth, hdrop s h, hback, List.reverse_reverse]

/-- A run of plain digits is read digit by digit. -/
theorem digitGroups?_of_isDigit {s : List Char} (hne : s ≠ []) (h : ∀ c ∈ s, c.isDigit = true) :
    digitGroups? s = some (s.map fun c => c.toNat - 48) := by
  induction s with
  | nil => exact absurd rfl hne
  | cons c s ih =>
      have hc := digitValue?_of_isDigit (h c List.mem_cons_self)
      cases s with
      | nil => rw [digitGroups?, hc, List.map_singleton, Option.map_some]
      | cons d s =>
          have hs := ih (List.cons_ne_nil d s) fun e he => h e (List.mem_cons_of_mem c he)
          have hd : d ≠ '_' := by
            rintro rfl
            exact absurd (h '_' (by simp)) (by decide)
          rw [digitGroups?, hc, hs, List.map_cons]
          · rfl
          · exact List.cons_ne_nil d s
          · exact fun rest hrest => hd (List.cons.inj hrest).1

/-! ## Writing and reading -/

/-- The digits of a number have its value. -/
theorem ofDigits_toDigits (n : Nat) :
    ofDigits ((Nat.toDigits 10 n).map fun c => c.toNat - 48) = n := by
  rw [ofDigits, List.foldl_map]
  exact Nat.ofDigitChars_ten_toDigits

/-- Digits behind a sign are read with their value if they are few enough. -/
theorem readInteger_of_digits {text : String} {sign body : List Char} {negative : Bool} {n : Nat}
    (htext : text.toList = sign ++ body) (hsign : ∀ c ∈ sign, isIntegerBlank c = false)
    (hbody : body = Nat.toDigits 10 n) (hsplit : splitSign (sign ++ body) = (negative, body)) :
    readInteger text = if body.length ≤ integerDigitLimit then .ok (signedInt negative n)
      else .error (.tooLong body.length) := by
  have hdigit : ∀ c ∈ body, c.isDigit = true := fun c hc =>
    Nat.isDigit_of_mem_toDigits (by decide) (by decide) (hbody ▸ hc)
  have htrim : trimBoth isIntegerBlank (sign ++ body) = sign ++ body := by
    refine trimBoth_eq_self fun c hc => ?_
    cases List.mem_append.1 hc with
    | inl hfront => exact hsign c hfront
    | inr hback => exact isIntegerBlank_of_isDigit (hdigit c hback)
  have hne : body ≠ [] := by
    rw [hbody]
    exact Nat.toDigits_ne_nil
  have hvalue : ofDigits (body.map fun c => c.toNat - 48) = n := by
    rw [hbody, ofDigits_toDigits]
  rw [readInteger, htext, htrim, hsplit]
  simp only [digitGroups?_of_isDigit hne hdigit, List.length_map]
  rw [hvalue]

/-- The canonical text of a number is read back, unless the number has too many digits. -/
theorem readInteger_intText (n : Int) : readInteger (intText n) =
    match excessDigits? n with
    | none => .ok n
    | some digits => .error (.tooLong digits) := by
  have hread {negative : Bool} (hn : signedInt negative n.natAbs = n) :
      (if (Nat.toDigits 10 n.natAbs).length ≤ integerDigitLimit
        then Except.ok (signedInt negative n.natAbs)
        else .error (IntegerError.tooLong (Nat.toDigits 10 n.natAbs).length)) =
      match excessDigits? n with
      | none => .ok n
      | some digits => .error (.tooLong digits) := by
    rw [excessDigits?, hn]
    split <;> rfl
  rw [intText]
  split
  · next hneg =>
    have htext : ("-" ++ natText n.natAbs).toList = ['-'] ++ Nat.toDigits 10 n.natAbs := by
      rw [String.toList_append, natText, String.toList_ofList, String.toList_ofList]
    have hsign : ∀ c ∈ ['-'], isIntegerBlank c = false := by
      intro c hc
      rw [List.mem_singleton.1 hc]
      rfl
    rw [readInteger_of_digits htext hsign rfl rfl]
    refine hread ?_
    rw [signedInt, if_pos rfl]
    omega
  · next hneg =>
    have htext : (natText n.natAbs).toList = [] ++ Nat.toDigits 10 n.natAbs := by
      rw [natText, String.toList_ofList, List.nil_append]
    have hsplit : splitSign (Nat.toDigits 10 n.natAbs) = (false, Nat.toDigits 10 n.natAbs) := by
      rw [splitSign]
      · intro rest hrest
        have hminus : '-' ∈ Nat.toDigits 10 n.natAbs := by simp [hrest]
        exact absurd (Nat.isDigit_of_mem_toDigits (by decide) (by decide) hminus) (by decide)
      · intro rest hrest
        have hplus : '+' ∈ Nat.toDigits 10 n.natAbs := by simp [hrest]
        exact absurd (Nat.isDigit_of_mem_toDigits (by decide) (by decide) hplus) (by decide)
    rw [readInteger_of_digits htext (by simp) rfl hsplit]
    refine hread ?_
    rw [signedInt, if_neg Bool.false_ne_true]
    omega

/-- A number has no digits in excess exactly if it lies below the power of ten of the limit. -/
theorem excessDigits?_eq_none_iff {n : Int} :
    excessDigits? n = none ↔ n.natAbs < 10 ^ integerDigitLimit := by
  rw [← Nat.length_toDigits_le_iff (by decide) (by decide), excessDigits?]
  split
  · next h => exact iff_of_true rfl h
  · next h => exact iff_of_false (Option.some_ne_none _) h

/-! ## Numbers that were read -/

theorem ofDigits_append (ds : List Nat) (d : Nat) :
    ofDigits (ds ++ [d]) = 10 * ofDigits ds + d := by
  rw [ofDigits, List.foldl_append]
  rfl

/-- Digits below ten stay below the power of ten of their number. -/
theorem ofDigits_lt {ds : List Nat} (h : ∀ d ∈ ds, d < 10) : ofDigits ds < 10 ^ ds.length := by
  induction ds using List.reverseRecOn with
  | nil => simp [ofDigits]
  | append_singleton ds d ih =>
      have hds := ih fun e he => h e (List.mem_append_left _ he)
      have hd := h d (by simp)
      rw [ofDigits_append, List.length_append, List.length_singleton, Nat.pow_succ]
      omega

/-- Digits that are read are below ten. -/
theorem lt_of_digitGroups? {s : List Char} {ds : List Nat} (h : digitGroups? s = some ds) :
    ∀ d ∈ ds, d < 10 := by
  fun_induction digitGroups? s generalizing ds with
  | case1 => cases h
  | case2 c =>
      obtain ⟨d, hd, rfl⟩ := Option.map_eq_some_iff.1 h
      simpa using digitValue?_lt hd
  | case3 c rest ih =>
      simp only [Option.pure_def, Option.bind_eq_bind, Option.bind_eq_some_iff,
        Option.some.injEq] at h
      obtain ⟨d, hd, es, hes, rfl⟩ := h
      exact List.forall_mem_cons.2 ⟨digitValue?_lt hd, ih hes⟩
  | case4 c rest _ _ ih =>
      simp only [Option.pure_def, Option.bind_eq_bind, Option.bind_eq_some_iff,
        Option.some.injEq] at h
      obtain ⟨d, hd, es, hes, rfl⟩ := h
      exact List.forall_mem_cons.2 ⟨digitValue?_lt hd, ih hes⟩

/-- A number that was read can be written and read again. -/
theorem readInteger_intText_of_read {s : String} {n : Int} (h : readInteger s = .ok n) :
    readInteger (intText n) = .ok n := by
  suffices hsmall : n.natAbs < 10 ^ integerDigitLimit by
    rw [readInteger_intText, excessDigits?_eq_none_iff.2 hsmall]
  rw [readInteger] at h
  rcases hsplit : splitSign (trimBoth isIntegerBlank s.toList) with ⟨negative, body⟩
  simp only [hsplit] at h
  cases hds : digitGroups? body with
  | none => simp [hds] at h
  | some ds =>
      simp only [hds] at h
      split at h
      · next hlength =>
        have hlt : ofDigits ds < 10 ^ integerDigitLimit :=
          Nat.lt_of_lt_of_le (ofDigits_lt (lt_of_digitGroups? hds))
            (Nat.pow_le_pow_right (by decide) hlength)
        have habs : n.natAbs = ofDigits ds := by
          obtain rfl := Except.ok.inj h
          rw [signedInt]
          split
          · exact Int.natAbs_neg _
          · rfl
        rw [habs]
        exact hlt
      · cases h

end VaultGovernance
