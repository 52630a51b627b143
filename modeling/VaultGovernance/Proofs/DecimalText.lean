import VaultGovernance.Number.DecimalText
import VaultGovernance.Proofs.IntegerText

/-!
# VaultGovernance.Proofs.DecimalText

A decimal number survives being written and read.  Its scientific text consists of
digits, perhaps a point among them, and perhaps an exponent, so the reader finds the same
digits again, and the point and the exponent add up to the exponent of the number.  Only
numbers beyond the exponents that a text may give are not read.
-/

namespace VaultGovernance

namespace Decimal

/-! ## Runs of digits -/

section Digits

variable {ds : List Char}

/-- The value of a run of plain digits. -/
def valueOf (ds : List Char) : Nat := ofDigits (ds.map fun c => c.toNat - 48)

theorem valueOf_toDigits (n : Nat) : valueOf (Nat.toDigits 10 n) = n := ofDigits_toDigits n

/-- Zeros in front do not count. -/
theorem valueOf_zeros_append (k : Nat) (ds : List Char) :
    valueOf (List.replicate k '0' ++ ds) = valueOf ds := by
  induction k with
  | zero => rfl
  | succ k ih =>
      rw [← ih]
      rfl

theorem isDigit_toDigits (n : Nat) : ∀ c ∈ Nat.toDigits 10 n, c.isDigit = true :=
  fun _ hc => Nat.isDigit_of_mem_toDigits (by decide) (by decide) hc

theorem isDigit_zeros (k : Nat) : ∀ c ∈ List.replicate k '0', c.isDigit = true := by
  intro c hc
  rw [List.eq_of_mem_replicate hc]
  rfl

theorem isDigit_append {es : List Char} (h : ∀ c ∈ ds, c.isDigit = true)
    (h' : ∀ c ∈ es, c.isDigit = true) : ∀ c ∈ ds ++ es, c.isDigit = true := by
  intro c hc
  exact (List.mem_append.1 hc).elim (h c) (h' c)

/-- What follows a run of digits does not go on with one. -/
def Ends (rest : List Char) : Prop := ∀ c ∈ rest.head?, isDigit c = false

theorem ends_nil : Ends [] := by
  intro c hc
  cases hc

theorem ends_cons {c : Char} (rest : List Char) (h : isDigit c = false) : Ends (c :: rest) := by
  intro d hd
  obtain rfl : c = d := Option.some.inj hd
  exact h

/-- The leading digits are split off with their values. -/
theorem spanDigits_append {rest : List Char} (h : ∀ c ∈ ds, c.isDigit = true)
    (hrest : Ends rest) :
    spanDigits (ds ++ rest) = (ds.map fun c => c.toNat - 48, rest) := by
  induction ds with
  | nil =>
      cases rest with
      | nil => rfl
      | cons c rest => simp [spanDigits, hrest c rfl]
  | cons c ds ih =>
      have hc := digitValue?_of_isDigit (h c List.mem_cons_self)
      have hdigit : isDigit c = true := by rw [isDigit, hc, Option.isSome_some]
      have hds := ih fun d hd => h d (List.mem_cons_of_mem c hd)
      rw [spanDigits, Prod.mk.injEq] at hds
      simp [spanDigits, hdigit, hc, hds.1, hds.2]

theorem spanDigits_of_isDigit (h : ∀ c ∈ ds, c.isDigit = true) :
    spanDigits ds = (ds.map fun c => c.toNat - 48, []) := by
  have hsplit := spanDigits_append h ends_nil
  rw [List.append_nil] at hsplit
  exact hsplit

end Digits

/-! ## Reading the parts -/

/-- The number with these parts, if a text may give such exponents. -/
def withinText? (negative : Bool) (coefficient : Nat) (exponent : Int) : Option Decimal :=
  if leadingExponent coefficient exponent ≤ maxTextExponent ∧ minTextExponent ≤ exponent then
    some (finite negative coefficient exponent)
  else none

section Parts

variable {negative : Bool} {whole fraction rest : List Char} {e : Int}

/-- Digits without a point are a whole number, moved by the exponent. -/
theorem readNumber?_whole (hne : whole ≠ []) (hwhole : ∀ c ∈ whole, c.isDigit = true)
    (hends : Ends rest) (hpoint : rest.head? ≠ some '.') (he : readExponent? rest = some e) :
    readNumber? negative (whole ++ rest) = withinText? negative (valueOf whole) e := by
  have hvalues : whole.map (fun c => c.toNat - 48) ≠ [] := by simpa using hne
  rw [readNumber?, spanDigits_append hwhole hends]
  cases rest with
  | nil =>
      simp [hvalues, he, valueOf, withinText?]
      congr
  | cons c rest =>
      have hc : c ≠ '.' := fun h => hpoint (by rw [h]; rfl)
      simp [hvalues, he, valueOf, withinText?, hc]
      congr

/-- Digits behind a point take their number off the exponent. -/
theorem readNumber?_point (hne : whole ≠ []) (hwhole : ∀ c ∈ whole, c.isDigit = true)
    (hfraction : ∀ c ∈ fraction, c.isDigit = true) (hends : Ends rest)
    (he : readExponent? rest = some e) :
    readNumber? negative (whole ++ '.' :: (fraction ++ rest)) =
      withinText? negative (valueOf (whole ++ fraction)) (e - fraction.length) := by
  have hvalues : whole.map (fun c => c.toNat - 48) ≠ [] := by simpa using hne
  rw [readNumber?, spanDigits_append hwhole (ends_cons _ (by decide))]
  simp [spanDigits_append hfraction hends, hvalues, he, valueOf, withinText?]

/-- A written exponent is read back. -/
theorem readExponent?_written (e : Int) :
    readExponent? ('E' :: (if e < 0 then '-' else '+') :: Nat.toDigits 10 e.natAbs) = some e := by
  have hdigits := spanDigits_of_isDigit (isDigit_toDigits e.natAbs)
  have hne : (Nat.toDigits 10 e.natAbs).map (fun c => c.toNat - 48) ≠ [] := by simp
  have hvalue := ofDigits_toDigits e.natAbs
  by_cases h : e < 0
  · have hsigned : signedInt true e.natAbs = e := by
      rw [signedInt, if_pos rfl]
      omega
    simp [readExponent?, h, splitSign, hdigits, hne, hvalue, hsigned]
  · have hsigned : signedInt false e.natAbs = e := by
      rw [signedInt, if_neg Bool.false_ne_true]
      omega
    simp [readExponent?, h, splitSign, hdigits, hne, hvalue, hsigned]

end Parts

/-! ## Reading the whole -/

/-- A point stands among digits of the same value, or at their end, where it is left
out. -/
theorem pointDigits_eq {ds : List Char} {point : Int} (hds : ∀ c ∈ ds, c.isDigit = true)
    (hpoint : point ≤ ds.length) :
    (point = ds.length ∧ pointDigits ds point = ds) ∨
      ∃ whole fraction, pointDigits ds point = whole ++ '.' :: fraction ∧ whole ≠ [] ∧
        (∀ c ∈ whole, c.isDigit = true) ∧ (∀ c ∈ fraction, c.isDigit = true) ∧
        valueOf (whole ++ fraction) = valueOf ds ∧ point = ds.length - fraction.length := by
  by_cases hfront : point ≤ 0
  · refine .inr ⟨['0'], List.replicate (-point).toNat '0' ++ ds, ?_, List.cons_ne_nil _ _,
      isDigit_zeros 1, isDigit_append (isDigit_zeros _) hds, ?_, ?_⟩
    · rw [pointDigits, if_pos hfront]
      rfl
    · rw [← List.append_assoc, ← valueOf_zeros_append (1 + (-point).toNat) ds,
        List.replicate_add]
      rfl
    · rw [List.length_append, List.length_replicate]
      omega
  · by_cases hamong : point.toNat < ds.length
    · refine .inr ⟨ds.take point.toNat, ds.drop point.toNat, ?_, ?_,
        fun c hc => hds c (List.mem_of_mem_take hc), fun c hc => hds c (List.mem_of_mem_drop hc),
        ?_, ?_⟩
      · rw [pointDigits, if_neg hfront, if_pos hamong]
      · rw [Ne, List.take_eq_nil_iff]
        rintro (hzero | rfl)
        · omega
        · exact absurd hamong (Nat.not_lt_zero _)
      · rw [List.take_append_drop]
      · rw [List.length_drop]
        omega
    · have hend : point = ds.length := by omega
      refine .inl ⟨hend, ?_⟩
      rw [pointDigits, if_neg hfront, if_neg hamong, hend, Int.toNat_natCast, Nat.sub_self,
        List.replicate_zero, List.append_nil]

/-- Digits with a point among them are read with the point taken into the exponent. -/
theorem readNumber?_pointDigits (negative : Bool) {ds rest : List Char} {point e : Int}
    (hne : ds ≠ []) (hds : ∀ c ∈ ds, c.isDigit = true) (hpoint : point ≤ ds.length)
    (hends : Ends rest) (hrest : rest.head? ≠ some '.') (he : readExponent? rest = some e) :
    readNumber? negative (pointDigits ds point ++ rest) =
      withinText? negative (valueOf ds) (e + point - ds.length) := by
  rcases pointDigits_eq hds hpoint with ⟨rfl, htext⟩ |
    ⟨whole, fraction, htext, hwholeNe, hwhole, hfraction, hvalue, rfl⟩
  · have hexponent : e + (ds.length : Int) - ds.length = e := by omega
    rw [htext, hexponent, readNumber?_whole hne hds hends hrest he]
  · have hexponent : e + (ds.length - fraction.length : Int) - ds.length =
        e - fraction.length := by omega
    rw [htext, hexponent, ← hvalue, List.append_assoc, List.cons_append,
      readNumber?_point hwholeNe hwhole hfraction hends he]

/-- The body of a scientific text. -/
def scientificBody (coefficient : Nat) (exponent : Int) : List Char :=
  let ds := Nat.toDigits 10 coefficient
  let point := exponent + ds.length
  if exponent ≤ 0 ∧ -6 < point then pointDigits ds point
  else pointDigits ds 1 ++
    'E' :: (if point - 1 < 0 then '-' else '+') :: Nat.toDigits 10 (point - 1).natAbs

theorem scientificText_finite (negative : Bool) (coefficient : Nat) (exponent : Int) :
    (finite negative coefficient exponent).scientificText.toList =
      signText negative ++ scientificBody coefficient exponent := by
  rw [scientificText, String.toList_ofList]
  rfl

/-- The body of a scientific text is read as the number. -/
theorem readNumber?_scientificBody (negative : Bool) (coefficient : Nat) (exponent : Int) :
    readNumber? negative (scientificBody coefficient exponent) =
      withinText? negative coefficient exponent := by
  have hne : Nat.toDigits 10 coefficient ≠ [] := Nat.toDigits_ne_nil
  have hds := isDigit_toDigits coefficient
  have hlength : 0 < (Nat.toDigits 10 coefficient).length := List.length_pos_of_ne_nil hne
  unfold scientificBody
  dsimp only
  split
  · next hplain =>
    have hread := readNumber?_pointDigits negative hne hds
      (by omega : exponent + (Nat.toDigits 10 coefficient).length ≤ _) ends_nil (by decide)
      (rfl : readExponent? [] = some 0)
    rw [List.append_nil] at hread
    rw [hread, valueOf_toDigits]
    congr 1
    omega
  · rw [readNumber?_pointDigits _ hne hds (by omega) (ends_cons _ (by decide)) (by simp)
      (readExponent?_written _), valueOf_toDigits]
    congr 1
    omega

/-- The characters of a scientific text. -/
def IsNumeral (c : Char) : Prop := c.isDigit = true ∨ c ∈ ['.', 'E', '+', '-']

/-- Nothing in a scientific text is passed over. -/
theorem IsNumeral.kept {c : Char} (h : IsNumeral c) : isBlank c = false ∧ c ≠ '_' := by
  rcases h with hdigit | hmark
  · have hc := toNat_of_isDigit hdigit
    constructor
    · simp only [isBlank, Bool.or_eq_false_iff, Bool.and_eq_false_iff, beq_eq_false_iff_ne,
        decide_eq_false_iff_not]
      omega
    · rintro rfl
      exact absurd hdigit (by decide)
  · simp only [List.mem_cons, List.not_mem_nil, or_false] at hmark
    rcases hmark with rfl | rfl | rfl | rfl <;> decide

/-- The digits of a number start with a digit, wherever the point stands. -/
theorem pointDigits_cons {ds : List Char} {point : Int} (hne : ds ≠ [])
    (hds : ∀ c ∈ ds, c.isDigit = true) (hpoint : point ≤ ds.length) :
    (∃ c rest, pointDigits ds point = c :: rest ∧ c.isDigit = true) ∧
      ∀ c ∈ pointDigits ds point, IsNumeral c := by
  rcases pointDigits_eq hds hpoint with ⟨-, htext⟩ |
    ⟨whole, fraction, htext, hwholeNe, hwhole, hfraction, -⟩
  · obtain ⟨c, rest, rfl⟩ := List.exists_cons_of_ne_nil hne
    rw [htext]
    exact ⟨⟨c, rest, rfl, hds c List.mem_cons_self⟩, fun d hd => .inl (hds d hd)⟩
  · obtain ⟨c, rest, rfl⟩ := List.exists_cons_of_ne_nil hwholeNe
    rw [htext]
    refine ⟨⟨c, _, rfl, hwhole c List.mem_cons_self⟩, fun d hd => ?_⟩
    rcases List.mem_append.1 hd with hfront | hback
    · exact .inl (hwhole d hfront)
    · rcases List.mem_cons.1 hback with rfl | hback
      · exact .inr (by simp)
      · exact .inl (hfraction d hback)

theorem scientificBody_cons (coefficient : Nat) (exponent : Int) :
    (∃ c rest, scientificBody coefficient exponent = c :: rest ∧ c.isDigit = true) ∧
      ∀ c ∈ scientificBody coefficient exponent, IsNumeral c := by
  have hne : Nat.toDigits 10 coefficient ≠ [] := Nat.toDigits_ne_nil
  have hds := isDigit_toDigits coefficient
  have hlength : 0 < (Nat.toDigits 10 coefficient).length := List.length_pos_of_ne_nil hne
  unfold scientificBody
  dsimp only
  split
  · exact pointDigits_cons hne hds (by omega)
  · obtain ⟨⟨c, rest, htext, hc⟩, hall⟩ := pointDigits_cons hne hds (by omega : (1 : Int) ≤ _)
    refine ⟨⟨c, _, by rw [htext, List.cons_append], hc⟩, fun d hd => ?_⟩
    rcases List.mem_append.1 hd with hfront | hback
    · exact hall d hfront
    · rcases List.mem_cons.1 hback with rfl | hback
      · exact .inr (by simp)
      · rcases List.mem_cons.1 hback with rfl | hback
        · refine .inr ?_
          split <;> simp
        · exact .inl (isDigit_toDigits _ d hback)

/-- A number that starts with a digit is no name of a special value. -/
theorem readSigned?_of_digit {negative : Bool} {s : List Char} {c : Char} {rest : List Char}
    (hs : s = c :: rest) (hc : c.isDigit = true) :
    readSigned? (signText negative ++ s) = readNumber? negative s := by
  have hrange := toNat_of_isDigit hc
  have hlower : c.toLower = c := by
    unfold Char.toLower
    rw [dif_neg]
    rintro ⟨hupper, -⟩
    have hupper' : 65 ≤ c.toNat := hupper
    omega
  have hne {d : Char} (hd : d.isDigit = false) : c ≠ d := by
    rintro rfl
    rw [hc] at hd
    cases hd
  have hsplit : splitSign (signText negative ++ s) = (negative, s) := by
    cases negative with
    | true => rfl
    | false =>
        rw [hs, signText, if_neg Bool.false_ne_true, List.nil_append]
        unfold splitSign
        split
        · next heq => exact absurd (List.cons.inj heq).1 (hne rfl)
        · next heq => exact absurd (List.cons.inj heq).1 (hne rfl)
        · rfl
  have hletters : lowerAscii s = c :: lowerAscii rest := by
    rw [hs, lowerAscii, List.map_cons, hlower]
    rfl
  unfold readSigned?
  rw [hsplit]
  dsimp only
  rw [hletters]
  split
  · next heq => exact absurd (List.cons.inj heq).1 (hne rfl)
  · next heq => exact absurd (List.cons.inj heq).1 (hne rfl)
  · next heq => exact absurd (List.cons.inj heq).1 (hne rfl)
  · next heq => exact absurd (List.cons.inj heq).1 (hne rfl)
  · rfl

/-- The scientific text of a number is read back, if a text may give its exponents. -/
theorem ofText?_scientificText (negative : Bool) (coefficient : Nat) (exponent : Int) :
    ofText? (finite negative coefficient exponent).scientificText =
      withinText? negative coefficient exponent := by
  obtain ⟨⟨c, rest, hbody, hc⟩, hnumeral⟩ := scientificBody_cons coefficient exponent
  have hkept : ∀ d ∈ signText negative ++ scientificBody coefficient exponent,
      isBlank d = false ∧ d ≠ '_' := by
    intro d hd
    rcases List.mem_append.1 hd with hsign | hd
    · cases negative with
      | false => cases hsign
      | true =>
          obtain rfl := List.mem_singleton.1 hsign
          decide
    · exact (hnumeral d hd).kept
  have htrim := trimBoth_eq_self fun d hd => (hkept d hd).1
  have hfilter : (signText negative ++ scientificBody coefficient exponent).filter
      (fun d => decide (d ≠ '_')) = signText negative ++ scientificBody coefficient exponent :=
    List.filter_eq_self.2 fun d hd => decide_eq_true (hkept d hd).2
  rw [ofText?, scientificText_finite, htrim, hfilter, readSigned?_of_digit hbody hc,
    readNumber?_scientificBody]

/-- A number whose scientific text is read is read as itself. -/
theorem eq_of_ofText?_scientificText {d d' : Decimal} (h : ofText? d.scientificText = some d')
    (hfinite : d.isFinite = true) : d' = d := by
  cases d with
  | infinite => cases hfinite
  | nan => cases hfinite
  | finite negative coefficient exponent =>
      rw [ofText?_scientificText, withinText?] at h
      split at h
      · exact (Option.some.inj h).symm
      · cases h

end Decimal

end VaultGovernance
