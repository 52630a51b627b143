import VaultGovernance.Proofs.IntegerSpelling
import VaultGovernance.Proofs.Maps

/-!
# VaultGovernance.Proofs.CanonicalBalances

From balances as they are submitted to voting powers.  A balance is accepted if its
text spells a number that is not negative and has no more digits than are read; it is
then written in canonical form, which is accepted again and is its own canonical form.
The first entry that is not accepted decides the fault.  The voting powers of the
snapshot are the numbers that were spelled, and there is no bound on their sum.
-/

namespace VaultGovernance

/-! ## Canonical texts -/

/-- The text of a number in plain digits, without zeros in front. -/
structure IsCanonical (text : String) (n : Int) : Prop where
  nonempty : text ≠ ""
  plain : ∀ c ∈ text.toList, c.isDigit = true
  shortest : text.toList.head? = some '0' → text = "0"
  value : (ofDigits (text.toList.map fun c => c.toNat - 48) : Int) = n

/-- The digits of a positive number do not begin with a zero. -/
theorem head?_toDigits_ne_zero {n : Nat} (h : 0 < n) :
    (Nat.toDigits 10 n).head? ≠ some '0' := by
  induction n using Nat.strong_induction_on with
  | _ n ih =>
      rw [Nat.toDigits_eq_if (by decide)]
      split
      · next hsmall =>
        have hdigits : ∀ d < 10, 0 < d → [Nat.digitChar d].head? ≠ some '0' := by decide
        exact hdigits n hsmall h
      · next hlarge =>
        rw [List.head?_append_of_ne_nil _ Nat.toDigits_ne_nil]
        exact ih (n / 10) (by omega) (by omega)

/-- A number that is not negative is written in canonical form. -/
theorem isCanonical_intText {n : Int} (h : 0 ≤ n) : IsCanonical (intText n) n := by
  have hchars : (intText n).toList = Nat.toDigits 10 n.natAbs := by
    rw [intText, if_neg (Int.not_lt.2 h), natText, String.toList_ofList]
  constructor
  case nonempty =>
    intro hempty
    rw [hempty] at hchars
    exact Nat.toDigits_ne_nil hchars.symm
  case plain =>
    rw [hchars]
    exact fun c hc => Nat.isDigit_of_mem_toDigits (by decide) (by decide) hc
  case shortest =>
    rw [hchars]
    intro hzero
    obtain hn | hn := Nat.eq_zero_or_pos n.natAbs
    · obtain rfl := Int.natAbs_eq_zero.1 hn
      rfl
    · exact absurd hzero (head?_toDigits_ne_zero hn)
  case value =>
    rw [hchars, ofDigits_toDigits]
    omega

namespace Snapshot

/-! ## One balance -/

/-- A balance amounts to a number: its text spells the number, which is not negative, with
no more digits than are read. -/
def AmountsTo (balance : Json) (n : Int) : Prop :=
  0 ≤ n ∧ ∃ width ≤ integerDigitLimit, Spells balance.display.toList n width

/-- Why an entry is not accepted. -/
inductive Offends (address : String) (balance : Json) : String → Prop
  | nameless (empty : address = "") :
      Offends address balance "Snapshot address must not be empty"
  | overlong (named : address ≠ "") (long : balance.canShow = false) :
      Offends address balance integerTextMessage
  | unreadable (named : address ≠ "") (shown : balance.canShow = true)
      (strange : ∀ n, ∀ width ≤ integerDigitLimit, ¬ Spells balance.display.toList n width) :
      Offends address balance
        ("Balance for '" ++ address ++ "' is not an integer: " ++ balance.literal)
  | negative {n : Int} {width : Nat} (named : address ≠ "") (short : width ≤ integerDigitLimit)
      (spelled : Spells balance.display.toList n width) (below : n < 0) :
      Offends address balance ("Balance for '" ++ address ++ "' must not be negative")

section Entry

variable {address text : String} {balance : Json} {n : Int} {f : Fault}

/-- A value whose text is read as a number has a text. -/
theorem canShow_of_readInteger (h : readInteger balance.display = .ok n) :
    balance.canShow = true := by
  have hbracket {c : Char} {s : List Char} (htext : balance.display.toList = c :: s)
      (hc : isIntegerBlank c = false ∧ c ≠ '+' ∧ c ≠ '-' ∧ (digitValue? c).isSome = false) :
      False := by
    obtain ⟨width, -, hspells⟩ := readInteger_eq_ok_iff.1 h
    rw [htext] at hspells
    have hhead := hspells.head
    simp [hc] at hhead
  cases balance with
  | int m =>
      have hread : readInteger (intText m) = .ok n := h
      rw [readInteger_intText] at hread
      rw [Json.canShow, Json.overlong?]
      cases hdigits : excessDigits? m with
      | none => rfl
      | some digits =>
          rw [hdigits] at hread
          cases hread
  | arr items =>
      have htext : (Json.arr items).display = "[" ++ Json.literalItems items ++ "]" := rfl
      refine (hbracket (c := '[') (s := (Json.literalItems items ++ "]").toList) ?_
        (by decide)).elim
      rw [htext, String.append_assoc, String.toList_append]
      rfl
  | obj entries =>
      have htext : (Json.obj entries).display =
          "\x7b" ++ Json.literalEntries entries ++ "\x7d" := rfl
      refine (hbracket (c := '\x7b')
        (s := (Json.literalEntries entries ++ "\x7d").toList) ?_ (by decide)).elim
      rw [htext, String.append_assoc, String.toList_append]
      rfl
  | _ => rfl

theorem amountsTo_iff : AmountsTo balance n ↔ 0 ≤ n ∧ readInteger balance.display = .ok n := by
  rw [AmountsTo, readInteger_eq_ok_iff]

/-- An entry is accepted exactly if it has an address and its balance amounts to a number. -/
theorem normalizeBalance_eq_ok_iff : normalizeBalance address balance = .ok text ↔
    address ≠ "" ∧ ∃ n, AmountsTo balance n ∧ text = intText n := by
  simp only [amountsTo_iff]
  constructor
  · intro h
    rw [normalizeBalance] at h
    split at h
    · cases h
    split at h
    · cases h
    · next hnamed _ =>
      refine ⟨hnamed, ?_⟩
      cases hread : readInteger balance.display with
      | error e => simp [hread] at h
      | ok n =>
          simp only [hread] at h
          split at h
          · cases h
          · next hpos => exact ⟨n, ⟨Int.not_lt.1 hpos, rfl⟩, (Except.ok.inj h).symm⟩
  · rintro ⟨hnamed, n, ⟨hpos, hread⟩, rfl⟩
    rw [normalizeBalance, if_neg hnamed, if_neg (by simp [canShow_of_readInteger hread])]
    simp only [hread]
    rw [if_neg (Int.not_lt.2 hpos)]

/-- An entry that is not accepted fails for what is wrong with it. -/
theorem normalizeBalance_eq_error_iff : normalizeBalance address balance = .error f ↔
    ∃ message, Offends address balance message ∧ f = .badValue message := by
  have hspelled {n : Int} : readInteger balance.display = .ok n ↔ _ := readInteger_eq_ok_iff
  constructor
  · intro h
    rw [normalizeBalance] at h
    split at h
    · next hempty => exact ⟨_, .nameless hempty, (Except.error.inj h).symm⟩
    split at h
    · next hnamed hlong =>
      exact ⟨_, .overlong hnamed (by simpa using hlong), (Except.error.inj h).symm⟩
    · next hnamed hshown =>
      rw [Bool.not_eq_true, Bool.not_eq_false'] at hshown
      cases hread : readInteger balance.display with
      | error e =>
          simp only [hread] at h
          refine ⟨_, .unreadable hnamed hshown fun n width hwidth hspells => ?_,
            (Except.error.inj h).symm⟩
          cases hread.symm.trans (hspelled.2 ⟨width, hwidth, hspells⟩)
      | ok n =>
          simp only [hread] at h
          split at h
          · next hneg =>
            obtain ⟨width, hwidth, hspells⟩ := hspelled.1 hread
            exact ⟨_, .negative hnamed hwidth hspells hneg, (Except.error.inj h).symm⟩
          · cases h
  · rintro ⟨message, hoffends, rfl⟩
    cases hoffends with
    | nameless empty => rw [normalizeBalance, if_pos empty]
    | overlong named long => rw [normalizeBalance, if_neg named, long]; rfl
    | unreadable named shown strange =>
        rw [normalizeBalance, if_neg named, shown]
        cases hread : readInteger balance.display with
        | error e => rfl
        | ok n =>
            obtain ⟨width, hwidth, hspells⟩ := hspelled.1 hread
            exact absurd hspells (strange n width hwidth)
    | negative named short spelled below =>
        have hread := hspelled.2 ⟨_, short, spelled⟩
        rw [normalizeBalance, if_neg named, canShow_of_readInteger hread]
        simp only [hread, Bool.not_true, Bool.false_eq_true, if_false]
        rw [if_pos below]

/-- What a balance amounts to is written in a form that amounts to the same. -/
theorem AmountsTo.again (h : AmountsTo balance n) : AmountsTo (.str (intText n)) n := by
  rw [amountsTo_iff] at h ⊢
  exact ⟨h.1, readInteger_intText_of_read h.2⟩

end Entry

/-! ## All balances -/

/-- An entry is accepted. -/
def Accepted (e : String × Json) : Prop := e.1 ≠ "" ∧ ∃ n, AmountsTo e.2 n

/-- The amounts of entries that are accepted, under the same addresses and in the same
order. -/
def Amounts (balances : OrderedMap Json) (amounts : OrderedMap Int) : Prop :=
  List.Forall₂ (fun e a => e.1 ≠ "" ∧ a.1 = e.1 ∧ AmountsTo e.2 a.2) balances amounts

section All

variable {balances : OrderedMap Json} {amounts : OrderedMap Int} {texts : OrderedMap String}
  {f : Fault}

theorem Amounts.keys (h : Amounts balances amounts) : amounts.keys = balances.keys := by
  induction h with
  | nil => rfl
  | cons hentry _ ih => rw [OrderedMap.keys_cons, OrderedMap.keys_cons, hentry.2.1, ih]

/-- Balances are accepted exactly if they have amounts, whose texts they become. -/
theorem normalizeBalances_eq_ok_iff : normalizeBalances balances = .ok texts ↔
    ∃ amounts, Amounts balances amounts ∧ texts = amounts.map fun a => (a.1, intText a.2) := by
  induction balances generalizing texts with
  | nil =>
      simp only [normalizeBalances, Amounts, List.forall₂_nil_left_iff, Except.ok.injEq]
      constructor
      · rintro rfl
        exact ⟨[], rfl, rfl⟩
      · rintro ⟨_, rfl, rfl⟩
        rfl
  | cons e rest ih =>
      simp only [normalizeBalances, bind_eq_ok, pure_eq_ok, ih, normalizeBalance_eq_ok_iff]
      constructor
      · rintro ⟨_, ⟨hnamed, n, hn, rfl⟩, _, ⟨amounts, hrest, rfl⟩, rfl⟩
        exact ⟨(e.1, n) :: amounts, .cons ⟨hnamed, rfl, hn⟩ hrest, rfl⟩
      · rintro ⟨_, hall, rfl⟩
        cases hall with
        | @cons _ a _ amounts hentry hrest =>
            obtain ⟨hnamed, hkey, hn⟩ := hentry
            exact ⟨_, ⟨hnamed, a.2, hn, rfl⟩, _, ⟨amounts, hrest, rfl⟩, by rw [List.map_cons, hkey]⟩

/-- All entries are accepted exactly if they have amounts. -/
theorem exists_amounts_iff :
    (∃ amounts, Amounts balances amounts) ↔ ∀ e ∈ balances, Accepted e := by
  induction balances with
  | nil => simp [Amounts]
  | cons e rest ih =>
      rw [List.forall_mem_cons, ← ih]
      constructor
      · rintro ⟨_, hall⟩
        cases hall with
        | cons hentry hrest => exact ⟨⟨hentry.1, _, hentry.2.2⟩, _, hrest⟩
      · rintro ⟨⟨hnamed, n, hn⟩, amounts, hrest⟩
        exact ⟨(e.1, n) :: amounts, .cons ⟨hnamed, rfl, hn⟩ hrest⟩

/-- The first entry that is not accepted decides the fault. -/
theorem normalizeBalances_eq_error_iff : normalizeBalances balances = .error f ↔
    ∃ fine e rest message, balances = fine ++ e :: rest ∧ (∀ x ∈ fine, Accepted x) ∧
      Offends e.1 e.2 message ∧ f = .badValue message := by
  induction balances with
  | nil => simp [normalizeBalances]
  | cons e rest ih =>
      have hpure {a : OrderedMap String} :
          (pure a : Except Fault (OrderedMap String)) ≠ .error f := by
        intro h
        cases h
      simp only [normalizeBalances, bind_eq_error, hpure, and_false, exists_false, or_false, ih]
      constructor
      · rintro (hfirst | ⟨text, htext, fine, x, later, message, rfl, hfine, hx⟩)
        · obtain ⟨message, hoffends, rfl⟩ := normalizeBalance_eq_error_iff.1 hfirst
          exact ⟨[], e, rest, message, rfl, List.forall_mem_nil _, hoffends, rfl⟩
        · obtain ⟨hnamed, n, hn, -⟩ := normalizeBalance_eq_ok_iff.1 htext
          exact ⟨e :: fine, x, later, message, rfl,
            List.forall_mem_cons.2 ⟨⟨hnamed, n, hn⟩, hfine⟩, hx⟩
      · rintro ⟨fine, x, later, message, hsplit, hfine, hoffends, rfl⟩
        cases fine with
        | nil =>
            obtain ⟨rfl, rfl⟩ := List.cons.inj hsplit
            exact .inl (normalizeBalance_eq_error_iff.2 ⟨message, hoffends, rfl⟩)
        | cons y fine =>
            obtain ⟨rfl, rfl⟩ := List.cons.inj hsplit
            obtain ⟨⟨hnamed, n, hn⟩, hfine⟩ := List.forall_mem_cons.1 hfine
            exact .inr ⟨_, normalizeBalance_eq_ok_iff.2 ⟨hnamed, n, hn, rfl⟩, fine, x, later,
              message, rfl, hfine, hoffends, rfl⟩

/-- A balance with too many digits is refused, whatever number it spells. -/
theorem not_ok_of_length {address text : String} {n : Int} {width : Nat}
    (hspells : Spells text.toList n width) (hlong : integerDigitLimit < width) :
    ¬ ∃ texts, normalizeBalances [(address, .str text)] = .ok texts := by
  rintro ⟨texts, htexts⟩
  obtain ⟨amounts, hamounts, -⟩ := normalizeBalances_eq_ok_iff.1 htexts
  obtain ⟨-, m, hm⟩ := exists_amounts_iff.1 ⟨amounts, hamounts⟩ _ List.mem_cons_self
  have hread := (amountsTo_iff.1 hm).2
  rw [Json.display, readInteger_of_spells hspells, if_neg (Nat.not_le.2 hlong)] at hread
  cases hread

/-- Canonical balances have the same amounts. -/
theorem Amounts.again (h : Amounts balances amounts) :
    Amounts (amounts.map fun a => (a.1, .str (intText a.2))) amounts := by
  induction h with
  | nil => exact .nil
  | cons hentry _ ih => exact .cons ⟨hentry.2.1 ▸ hentry.1, rfl, hentry.2.2.again⟩ ih

/-- The texts of the amounts are canonical. -/
theorem Amounts.canonical (h : Amounts balances amounts) :
    List.Forall₂ (fun a t => t.1 = a.1 ∧ IsCanonical t.2 a.2) amounts
      (amounts.map fun a => (a.1, intText a.2)) := by
  induction h with
  | nil => exact .nil
  | cons hentry _ ih => exact .cons ⟨rfl, isCanonical_intText hentry.2.2.1⟩ ih

/-- Every amount is that of a balance. -/
theorem Amounts.exists_balance (h : Amounts balances amounts) :
    ∀ a ∈ amounts, ∃ balance, AmountsTo balance a.2 := by
  induction h with
  | nil => exact List.forall_mem_nil _
  | cons hentry _ ih => exact List.forall_mem_cons.2 ⟨⟨_, hentry.2.2⟩, ih⟩

/-- A snapshot of the texts holds the amounts. -/
theorem Amounts.holds (h : Amounts balances amounts) {x : Snapshot}
    (hx : x.balances = balanceDocument (amounts.map fun a => (a.1, intText a.2))) :
    x.Holds amounts where
  document := hx
  nonneg a ha := by
    obtain ⟨balance, hn⟩ := h.exists_balance a ha
    exact hn.1
  readable a ha := by
    obtain ⟨balance, hn⟩ := h.exists_balance a ha
    exact (amountsTo_iff.1 hn.again).2

end All

end Snapshot

open Snapshot

/-- Balances are accepted exactly if every address is given and the text of every balance
spells a number that is not negative and has no more digits than are read; otherwise the first
entry that offends decides the fault.  Accepted balances keep their addresses, become the
canonical texts of the numbers, and are accepted as they then are.  In a snapshot of them every
listed address has the voting power that was spelled, any other has none, and all together
have the sum, which has no bound. -/
theorem balances_canonical_within_limit {balances : OrderedMap Json}
    (distinct : balances.keys.Nodup) :
    ((∃ texts, normalizeBalances balances = .ok texts) ↔ ∀ e ∈ balances, Accepted e) ∧
    (∀ f, normalizeBalances balances = .error f ↔
      ∃ fine e rest message, balances = fine ++ e :: rest ∧ (∀ x ∈ fine, Accepted x) ∧
        Offends e.1 e.2 message ∧ f = .badValue message) ∧
    ∀ texts, normalizeBalances balances = .ok texts →
      ∃ amounts : OrderedMap Int, Amounts balances amounts ∧
        List.Forall₂ (fun a t => t.1 = a.1 ∧ IsCanonical t.2 a.2) amounts texts ∧
        normalizeBalances (texts.map fun t => (t.1, .str t.2)) = .ok texts ∧
        ∀ x : Snapshot, x.balances = balanceDocument texts →
          (∀ a ∈ amounts, x.votingPower (some a.1) = .ok a.2) ∧
          (∀ address, address ∉ balances.keys → x.votingPower (some address) = .ok 0) ∧
          x.totalVotingPower = .ok (amounts.map (·.2)).sum := by
  refine ⟨?_, fun f => normalizeBalances_eq_error_iff, fun texts htexts => ?_⟩
  · rw [← exists_amounts_iff]
    simp only [normalizeBalances_eq_ok_iff]
    constructor
    · rintro ⟨_, amounts, hamounts, -⟩
      exact ⟨amounts, hamounts⟩
    · rintro ⟨amounts, hamounts⟩
      exact ⟨_, amounts, hamounts, rfl⟩
  · obtain ⟨amounts, hamounts, rfl⟩ := normalizeBalances_eq_ok_iff.1 htexts
    have hkeys := hamounts.keys
    refine ⟨amounts, hamounts, hamounts.canonical, ?_, fun x hx => ?_⟩
    · rw [List.map_map]
      exact normalizeBalances_eq_ok_iff.2 ⟨amounts, hamounts.again, rfl⟩
    · have hholds := hamounts.holds hx
      refine ⟨fun a ha => ?_, fun address hnew => ?_, hholds.totalVotingPower⟩
      · have hfound : amounts.get? a.1 = some a.2 := OrderedMap.get?_of_mem (hkeys ▸ distinct) ha
        rw [hholds.votingPower, OrderedMap.amount, hfound, Option.getD_some]
      · have hnone : amounts.get? address = none := OrderedMap.get?_eq_none.2 (hkeys ▸ hnew)
        rw [hholds.votingPower, OrderedMap.amount, hnone, Option.getD_none]

namespace Sample

/-- Balances in liberal spellings: blanks and a sign, digits of another script with an
underscore, a number as such, zeros in front. -/
def liberal : OrderedMap Json :=
  [("alice", .str " +7\n"), ("bob", .str "\u0661_\u0660"), ("carol", .int 5), ("dave", .str "007")]

end Sample

/-- The liberal spellings become 7, 10, 5 and 7, which are 29 together. -/
theorem balances_canonical_of_liberal : Sample.liberal.keys.Nodup ∧
    ∃ texts, normalizeBalances Sample.liberal = .ok texts ∧
      texts = [("alice", "7"), ("bob", "10"), ("carol", "5"), ("dave", "7")] ∧
      ∀ x : Snapshot, x.balances = balanceDocument texts → x.totalVotingPower = .ok 29 := by
  have distinct : Sample.liberal.keys.Nodup := by decide
  have hok : normalizeBalances Sample.liberal =
      .ok [("alice", "7"), ("bob", "10"), ("carol", "5"), ("dave", "7")] := by decide +kernel
  refine ⟨distinct, _, hok, rfl, fun x hx => ?_⟩
  obtain ⟨-, -, hall⟩ := balances_canonical_within_limit distinct
  obtain ⟨amounts, -, hcanonical, -, hpowers⟩ := hall _ hok
  obtain ⟨-, -, htotal⟩ := hpowers x hx
  obtain _ | ⟨⟨-, ha⟩, _ | ⟨⟨-, hb⟩, _ | ⟨⟨-, hc⟩, _ | ⟨⟨-, hd⟩, _ | _⟩⟩⟩⟩ := hcanonical
  rw [htotal]
  simp only [List.map_cons, List.map_nil, ← ha.value, ← hb.value, ← hc.value, ← hd.value]
  decide +kernel

/-- A text of 4301 ones spells a positive number and is refused for its length alone. -/
theorem balance_refused_of_length :
    let ones := String.ofList (List.replicate 4301 '1')
    (∃ n width, 0 ≤ n ∧ Spells (Json.str ones).display.toList n width) ∧
      ¬ ∃ texts, normalizeBalances [("alice", .str ones)] = .ok texts := by
  have hlength : (List.replicate 4301 '1').length = 4301 := List.length_replicate
  have hones : ∀ c ∈ List.replicate 4301 '1', c.isDigit = true := by
    intro c hc
    rw [List.eq_of_mem_replicate hc]
    rfl
  obtain ⟨n, hpos, hspells⟩ :=
    exists_spells_of_isDigit (List.ne_nil_of_length_eq_add_one hlength) hones
  rw [hlength, ← String.toList_ofList (l := List.replicate 4301 '1')] at hspells
  exact ⟨⟨n, 4301, hpos, hspells⟩, not_ok_of_length hspells (by decide)⟩

end VaultGovernance
