import VaultGovernance.Proofs.IntegerText

/-!
# VaultGovernance.Proofs.IntegerSpelling

Which texts are read as whole numbers.  A number is spelled with blanks around it, a
sign that may be missing, and digits of any script with single underscores between
them.  The reader takes exactly these texts, as long as they have no more digits than
it reads.
-/

namespace VaultGovernance

/-! ## Texts that spell a number -/

/-- Digits of any script with single underscores between them, and their values. -/
inductive DigitRun : List Char → List Nat → Prop
  | one {c : Char} {d : Nat} (digit : digitValue? c = some d) : DigitRun [c] [d]
  | next {c : Char} {d : Nat} {s : List Char} {ds : List Nat} (digit : digitValue? c = some d)
      (rest : DigitRun s ds) : DigitRun (c :: s) (d :: ds)
  | apart {c : Char} {d : Nat} {s : List Char} {ds : List Nat} (digit : digitValue? c = some d)
      (rest : DigitRun s ds) : DigitRun (c :: '_' :: s) (d :: ds)

/-- What stands before the digits of a number, and whether it makes the number negative. -/
inductive SignText : List Char → Bool → Prop
  | none : SignText [] false
  | plus : SignText ['+'] false
  | minus : SignText ['-'] true

/-- A text spells a number with as many digits. -/
inductive Spells : List Char → Int → Nat → Prop
  | of {front sign run back : List Char} {negative : Bool} {ds : List Nat}
      (before : ∀ c ∈ front, isIntegerBlank c = true)
      (after : ∀ c ∈ back, isIntegerBlank c = true)
      (signed : SignText sign negative) (digits : DigitRun run ds) :
      Spells (front ++ (sign ++ run) ++ back) (signedInt negative (ofDigits ds)) ds.length

/-! ## Blanks -/

section Trim

variable {p : Char → Bool} {s : List Char}

/-- Only what is blank is trimmed. -/
theorem exists_trimBoth (p : Char → Bool) (s : List Char) : ∃ front back,
    (∀ c ∈ front, p c = true) ∧ (∀ c ∈ back, p c = true) ∧ s = front ++ trimBoth p s ++ back := by
  refine ⟨s.takeWhile p, ((s.dropWhile p).reverse.takeWhile p).reverse,
    fun c hc => List.mem_takeWhile_imp hc,
    fun c hc => List.mem_takeWhile_imp (List.mem_reverse.1 hc), ?_⟩
  rw [trimBoth, List.append_assoc, ← List.reverse_append, List.takeWhile_append_dropWhile,
    List.reverse_reverse, List.takeWhile_append_dropWhile]

/-- Blanks around a text without blanks are trimmed. -/
theorem trimBoth_of_blanks {front back : List Char} (hne : s ≠ []) (hs : ∀ c ∈ s, p c = false)
    (hfront : ∀ c ∈ front, p c = true) (hback : ∀ c ∈ back, p c = true) :
    trimBoth p (front ++ s ++ back) = s := by
  have hdrop {t u : List Char} (ht : ∀ c ∈ t, p c = true) (hu : ∀ c ∈ u.head?, p c = false) :
      (t ++ u).dropWhile p = u := by
    rw [List.dropWhile_append_of_pos ht]
    cases u with
    | nil => rfl
    | cons c u => rw [List.dropWhile_cons_of_neg (by simpa using hu c rfl)]
  have hhead : ∀ c ∈ (s ++ back).head?, p c = false := by
    intro c hc
    rw [List.head?_append_of_ne_nil _ hne] at hc
    exact hs c (List.mem_of_head? hc)
  have hlast : ∀ c ∈ s.reverse.head?, p c = false := fun c hc =>
    hs c (List.mem_reverse.1 (List.mem_of_head? hc))
  rw [trimBoth, List.append_assoc, hdrop hfront hhead, List.reverse_append,
    hdrop (fun c hc => hback c (List.mem_reverse.1 hc)) hlast, List.reverse_reverse]

end Trim

/-- No digit is blank. -/
theorem isIntegerBlank_of_digitValue? {c : Char} {d : Nat} (h : digitValue? c = some d) :
    isIntegerBlank c = false := by
  obtain ⟨z, hz, -⟩ := Option.map_eq_some_iff.1 h
  have hrow := List.find?_some hz
  simp only [Bool.and_eq_true, decide_eq_true_eq] at hrow
  -- The rows of digits lie between the groups of blanks.
  have hgaps : ∀ z ∈ digitZeros, 48 ≤ z ∧ (z + 10 ≤ 133 ∨ 160 < z ∧ z + 10 ≤ 5760 ∨
      5760 < z ∧ z + 10 ≤ 8192 ∨ 12288 < z) := by decide
  have hgap := hgaps z (List.mem_of_find?_eq_some hz)
  have hblank : isBlank c = false := by
    simp only [isBlank, Bool.or_eq_false_iff, Bool.and_eq_false_iff, beq_eq_false_iff_ne,
      decide_eq_false_iff_not]
    omega
  rw [isIntegerBlank, hblank, Bool.false_and]

/-! ## Runs of digits -/

/-- The marks that stand in a number are no digits. -/
theorem digitValue?_of_mark {c : Char} (h : c = '_' ∨ c = '+' ∨ c = '-') :
    digitValue? c = none := by
  rcases h with rfl | rfl | rfl <;> decide

section Run

variable {s sign : List Char} {ds : List Nat} {negative : Bool}

/-- A run begins with a digit. -/
theorem DigitRun.exists_cons (h : DigitRun s ds) :
    ∃ c d t, s = c :: t ∧ digitValue? c = some d := by
  cases h with
  | one digit => exact ⟨_, _, _, rfl, digit⟩
  | next digit rest => exact ⟨_, _, _, rfl, digit⟩
  | apart digit rest => exact ⟨_, _, _, rfl, digit⟩

/-- No character of a run is blank. -/
theorem DigitRun.not_blank (h : DigitRun s ds) : ∀ c ∈ s, isIntegerBlank c = false := by
  induction h with
  | one digit => simpa using isIntegerBlank_of_digitValue? digit
  | next digit _ ih => exact List.forall_mem_cons.2 ⟨isIntegerBlank_of_digitValue? digit, ih⟩
  | apart digit _ ih =>
      exact List.forall_mem_cons.2 ⟨isIntegerBlank_of_digitValue? digit,
        List.forall_mem_cons.2 ⟨by decide, ih⟩⟩

/-- The runs are the texts that are read digit by digit. -/
theorem digitGroups?_eq_some_iff : digitGroups? s = some ds ↔ DigitRun s ds := by
  constructor
  · intro h
    fun_induction digitGroups? s generalizing ds with
    | case1 => cases h
    | case2 c =>
        obtain ⟨d, hd, rfl⟩ := Option.map_eq_some_iff.1 h
        exact .one hd
    | case3 c rest ih =>
        simp only [Option.pure_def, Option.bind_eq_bind, Option.bind_eq_some_iff,
          Option.some.injEq] at h
        obtain ⟨d, hd, es, hes, rfl⟩ := h
        exact .apart hd (ih hes)
    | case4 c rest _ _ ih =>
        simp only [Option.pure_def, Option.bind_eq_bind, Option.bind_eq_some_iff,
          Option.some.injEq] at h
        obtain ⟨d, hd, es, hes, rfl⟩ := h
        exact .next hd (ih hes)
  · intro h
    induction h with
    | one digit => rw [digitGroups?, digit, Option.map_some]
    | @next c d s ds digit rest ih =>
        obtain ⟨x, e, t, rfl, hx⟩ := rest.exists_cons
        have hunderscore : x ≠ '_' := by
          rintro rfl
          cases (digitValue?_of_mark (.inl rfl)).symm.trans hx
        rw [digitGroups?, digit, ih]
        · rfl
        · exact List.cons_ne_nil x t
        · exact fun rest hrest => hunderscore (List.cons.inj hrest).1
    | apart digit rest ih =>
        rw [digitGroups?, digit, ih]
        rfl

/-- A sign is split off a run. -/
theorem SignText.splitSign (hsign : SignText sign negative) (h : DigitRun s ds) :
    splitSign (sign ++ s) = (negative, s) := by
  cases hsign with
  | plus => rfl
  | minus => rfl
  | none =>
      obtain ⟨c, d, t, rfl, hc⟩ := h.exists_cons
      rw [List.nil_append, VaultGovernance.splitSign]
      · rintro rest hrest
        rw [(List.cons.inj hrest).1, digitValue?_of_mark (.inr (.inr rfl))] at hc
        cases hc
      · rintro rest hrest
        rw [(List.cons.inj hrest).1, digitValue?_of_mark (.inr (.inl rfl))] at hc
        cases hc

/-- What is split off is a sign. -/
theorem signText_of_splitSign {body : List Char} (h : splitSign s = (negative, body)) :
    ∃ sign, SignText sign negative ∧ s = sign ++ body := by
  rw [splitSign.eq_def] at h
  split at h
  · obtain ⟨rfl, rfl⟩ := Prod.mk.inj h
    exact ⟨_, .minus, rfl⟩
  · obtain ⟨rfl, rfl⟩ := Prod.mk.inj h
    exact ⟨_, .plus, rfl⟩
  · obtain ⟨rfl, rfl⟩ := Prod.mk.inj h
    exact ⟨_, .none, rfl⟩

theorem SignText.not_blank (h : SignText sign negative) :
    ∀ c ∈ sign, isIntegerBlank c = false := by
  intro c hc
  cases h with
  | none => cases hc
  | plus =>
      rw [List.mem_singleton.1 hc]
      rfl
  | minus =>
      rw [List.mem_singleton.1 hc]
      rfl

/-- A text that spells a number begins with a blank, a sign or a digit. -/
theorem Spells.head {c : Char} {n : Int} {width : Nat} (h : Spells (c :: s) n width) :
    isIntegerBlank c = true ∨ c = '+' ∨ c = '-' ∨ (digitValue? c).isSome = true := by
  generalize htext : c :: s = text at h
  cases h with
  | @of front sign run back _ _ before _ signed digits =>
      cases front with
      | cons d front =>
          obtain rfl := (List.cons.inj htext).1
          exact .inl (before c List.mem_cons_self)
      | nil =>
          obtain ⟨d, value, rest, rfl, hd⟩ := digits.exists_cons
          cases signed with
          | plus => exact .inr (.inl (List.cons.inj htext).1)
          | minus => exact .inr (.inr (.inl (List.cons.inj htext).1))
          | none =>
              obtain rfl := (List.cons.inj htext).1
              exact .inr (.inr (.inr (Option.isSome_iff_exists.2 ⟨value, hd⟩)))

end Run

/-! ## The reader -/

/-- A text that spells a number is read as that number, unless it has too many digits. -/
theorem readInteger_of_spells {text : String} {n : Int} {width : Nat}
    (h : Spells text.toList n width) :
    readInteger text = if width ≤ integerDigitLimit then .ok n else .error (.tooLong width) := by
  generalize htext : text.toList = s at h
  cases h with
  | @of front sign run back negative ds hfront hback hsign hrun =>
      have hchars : ∀ c ∈ sign ++ run, isIntegerBlank c = false := fun c hc =>
        (List.mem_append.1 hc).elim (hsign.not_blank c) (hrun.not_blank c)
      have hne : sign ++ run ≠ [] := by
        obtain ⟨c, d, t, rfl, -⟩ := hrun.exists_cons
        exact List.append_ne_nil_of_right_ne_nil sign (List.cons_ne_nil c t)
      rw [readInteger, htext, trimBoth_of_blanks hne hchars hfront hback, hsign.splitSign hrun]
      simp only [digitGroups?_eq_some_iff.2 hrun]

/-- A text is read as a number exactly if it spells it with few enough digits. -/
theorem readInteger_eq_ok_iff {text : String} {n : Int} :
    readInteger text = .ok n ↔ ∃ width ≤ integerDigitLimit, Spells text.toList n width := by
  constructor
  · intro h
    rw [readInteger] at h
    obtain ⟨front, back, hfront, hback, htext⟩ := exists_trimBoth isIntegerBlank text.toList
    rcases hsplit : splitSign (trimBoth isIntegerBlank text.toList) with ⟨negative, body⟩
    obtain ⟨sign, hsign, hbody⟩ := signText_of_splitSign hsplit
    simp only [hsplit] at h
    cases hds : digitGroups? body with
    | none => simp [hds] at h
    | some ds =>
        simp only [hds] at h
        split at h
        · next hwidth =>
          obtain rfl := Except.ok.inj h
          refine ⟨ds.length, hwidth, ?_⟩
          rw [htext, hbody]
          exact .of hfront hback hsign (digitGroups?_eq_some_iff.1 hds)
        · cases h
  · rintro ⟨width, hwidth, h⟩
    rw [readInteger_of_spells h, if_pos hwidth]

/-- Plain digits spell a number, each of them counted. -/
theorem exists_spells_of_isDigit {s : List Char} (hne : s ≠ [])
    (hdigits : ∀ c ∈ s, c.isDigit = true) : ∃ n, 0 ≤ n ∧ Spells s n s.length := by
  have hrun := digitGroups?_eq_some_iff.1 (digitGroups?_of_isDigit hne hdigits)
  have hspells := Spells.of (List.forall_mem_nil _) (List.forall_mem_nil _) .none hrun
  rw [List.append_nil, List.nil_append, List.nil_append, List.length_map] at hspells
  exact ⟨_, Int.natCast_nonneg _, hspells⟩

end VaultGovernance
