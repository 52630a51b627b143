import VaultGovernance.Proofs.Action
import VaultGovernance.Proofs.IntegerText
import VaultGovernance.Snapshot.Basic

/-!
# VaultGovernance.Proofs.Balances

What a recorded snapshot holds.  Balances are stored as texts, so voting power
is a reading that might fail; in canonical form it never does, and a snapshot is
then a map from addresses to whole numbers that are not negative.  Different
addresses have different entries of the map, so what they hold together is at
most the sum of all entries.
-/

namespace VaultGovernance

namespace OrderedMap

variable {α β : Type}

/-- Looking up commutes with changing the values. -/
theorem get?_mapped (f : α → β) (m : OrderedMap α) (key : String) :
    get? (m.map fun e => (e.1, f e.2)) key = (m.get? key).map f := by
  induction m with
  | nil => rfl
  | cons e rest ih =>
      rw [List.map_cons, get?, get?]
      split
      · rfl
      · exact ih

/-- A value that is found is the value of an entry. -/
theorem mem_of_get? {m : OrderedMap α} {key : String} {value : α}
    (h : m.get? key = some value) : (key, value) ∈ m := by
  induction m with
  | nil => cases h
  | cons e rest ih =>
      rw [get?] at h
      split at h
      · next hkey =>
        obtain rfl := Option.some.inj h
        rw [← hkey]
        exact List.mem_cons_self
      · exact List.mem_cons_of_mem _ (ih h)

/-! ## Sums of amounts -/

/-- The amount of a key; a key that is not there has none. -/
def amount (m : OrderedMap Int) (key : String) : Int := (m.get? key).getD 0

/-- The amounts of all entries together. -/
def total (m : OrderedMap Int) : Int := (m.map (·.2)).sum

theorem amount_nonneg {m : OrderedMap Int} (h : ∀ e ∈ m, 0 ≤ e.2) (key : String) :
    0 ≤ m.amount key := by
  rw [amount]
  cases hkey : m.get? key with
  | none => exact Int.le_refl 0
  | some n => exact h _ (mem_of_get? hkey)

/-- One entry more raises the amounts of distinct keys by its own value at
most. -/
theorem sum_amount_cons_le {rest : OrderedMap Int} {key : String} {value : Int} (hv : 0 ≤ value)
    (hrest : ∀ e ∈ rest, 0 ≤ e.2) {keys : List String} (hkeys : keys.Nodup) :
    (keys.map (amount ((key, value) :: rest))).sum ≤ value + (keys.map rest.amount).sum := by
  have hamount : amount ((key, value) :: rest) =
      fun k => if k = key then value else rest.amount k := by
    funext k
    rw [amount, get?]
    by_cases hk : key = k
    · rw [if_pos hk, if_pos hk.symm, Option.getD_some]
    · rw [if_neg hk, if_neg (Ne.symm hk), amount]
  have hcount : keys.count key ≤ 1 := List.nodup_iff_count_le_one.1 hkeys key
  have hnonneg := amount_nonneg hrest key
  rw [hamount, List.sum_map_ite_eq]
  -- The key is among the given ones once or not at all.
  obtain hzero | hone : keys.count key = 0 ∨ keys.count key = 1 := by omega
  · rw [hzero, zero_smul]
    omega
  · rw [hone, one_smul]
    omega

/-- Distinct keys have at most the amounts of all entries. -/
theorem sum_amount_le {m : OrderedMap Int} (h : ∀ e ∈ m, 0 ≤ e.2) {keys : List String}
    (hkeys : keys.Nodup) : (keys.map m.amount).sum ≤ m.total := by
  induction m with
  | nil =>
      have hzero : amount [] = fun _ => 0 := rfl
      rw [hzero]
      simp [total]
  | cons e rest ih =>
      obtain ⟨key, value⟩ := e
      obtain ⟨hvalue, hrest⟩ := List.forall_mem_cons.1 h
      calc
        (keys.map (amount ((key, value) :: rest))).sum
            ≤ value + (keys.map (amount rest)).sum := sum_amount_cons_le hvalue hrest hkeys
        _ ≤ value + total rest := Int.add_le_add_left (ih hrest) value
        _ = total ((key, value) :: rest) := by simp only [total, List.map_cons, List.sum_cons]

end OrderedMap

namespace Snapshot

/-! ## Balances in canonical form -/

/-- The balances of a snapshot are these amounts: none is negative, and each
can be read from its text. -/
structure Holds (x : Snapshot) (amounts : OrderedMap Int) : Prop where
  document : x.balances = balanceDocument (amounts.map fun e => (e.1, intText e.2))
  nonneg : ∀ e ∈ amounts, 0 ≤ e.2
  readable : ∀ e ∈ amounts, readInteger (intText e.2) = .ok e.2

/-- A normalized balance is the text of an amount. -/
theorem normalizeBalance_ok {address : String} {balance : Json} {text : String}
    (h : normalizeBalance address balance = .ok text) :
    ∃ n : Int, 0 ≤ n ∧ text = intText n ∧ readInteger (intText n) = .ok n := by
  rw [normalizeBalance] at h
  split at h
  · cases h
  split at h
  · cases h
  · cases hread : readInteger balance.display with
    | error e => simp [hread] at h
    | ok n =>
        simp only [hread] at h
        split at h
        · cases h
        · next hnonneg =>
          obtain rfl := Except.ok.inj h
          exact ⟨n, Int.not_lt.1 hnonneg, rfl, readInteger_intText_of_read hread⟩

/-- Normalized balances are the texts of amounts. -/
theorem normalizeBalances_ok {balances : OrderedMap Json} {texts : OrderedMap String}
    (h : normalizeBalances balances = .ok texts) :
    ∃ amounts : OrderedMap Int, texts = amounts.map (fun e => (e.1, intText e.2)) ∧
      (∀ e ∈ amounts, 0 ≤ e.2) ∧ ∀ e ∈ amounts, readInteger (intText e.2) = .ok e.2 := by
  induction balances generalizing texts with
  | nil =>
      obtain rfl := Except.ok.inj h
      exact ⟨[], rfl, by simp, by simp⟩
  | cons e rest ih =>
      simp only [normalizeBalances, bind_eq_ok, pure_eq_ok] at h
      obtain ⟨text, htext, others, hothers, rfl⟩ := h
      obtain ⟨n, hn, rfl, hread⟩ := normalizeBalance_ok htext
      obtain ⟨amounts, rfl, hnonneg, hreadable⟩ := ih hothers
      exact ⟨(e.1, n) :: amounts, rfl, List.forall_mem_cons.2 ⟨hn, hnonneg⟩,
        List.forall_mem_cons.2 ⟨hread, hreadable⟩⟩

/-- A snapshot with normalized balances holds amounts. -/
theorem holds_of_normalized {id vaultId : Uuid} {assetId : String} {time : Timestamp}
    {balances : OrderedMap Json} {texts : OrderedMap String}
    (h : normalizeBalances balances = .ok texts) :
    ∃ amounts, Holds ⟨id, vaultId, assetId, balanceDocument texts, time⟩ amounts := by
  obtain ⟨amounts, rfl, hnonneg, hreadable⟩ := normalizeBalances_ok h
  exact ⟨amounts, rfl, hnonneg, hreadable⟩

/-! ## Voting power -/

/-- The text of an amount is read as the amount. -/
theorem toInteger_text {n : Int} (h : readInteger (intText n) = .ok n) :
    (Json.str (intText n)).toInteger = .ok n := by
  rw [Json.toInteger, integerOfText, h]

variable {x : Snapshot} {amounts : OrderedMap Int}

theorem Holds.entries (h : x.Holds amounts) :
    x.balances.entries = amounts.map fun e => (e.1, Json.str (intText e.2)) := by
  rw [h.document, balanceDocument, List.map_map]
  rfl

/-- The voting power of an address is its amount. -/
theorem Holds.votingPower (h : x.Holds amounts) (address : String) :
    x.votingPower (some address) = .ok (amounts.amount address) := by
  have hget : x.balances.entries.get? address =
      (amounts.get? address).map fun n => Json.str (intText n) := by
    rw [h.entries]
    exact OrderedMap.get?_mapped (fun n => Json.str (intText n)) amounts address
  rw [Snapshot.votingPower, powerIn, hget, OrderedMap.amount]
  cases hn : amounts.get? address with
  | none => rfl
  | some n =>
      have hread := h.readable _ (OrderedMap.mem_of_get? hn)
      rw [Option.map_some, Option.getD_some, Option.getD_some, toInteger_text hread]

/-- Adding up texts of amounts adds up the amounts. -/
theorem foldlM_amounts {amounts : OrderedMap Int}
    (h : ∀ e ∈ amounts, readInteger (intText e.2) = .ok e.2) (start : Int) :
    (amounts.map fun e => (e.1, Json.str (intText e.2))).foldlM
        (fun total e => do return total + (← e.2.toInteger)) start =
      (.ok (start + amounts.total) : Except Fault Int) := by
  induction amounts generalizing start with
  | nil => simp [OrderedMap.total, pure, Except.pure]
  | cons e rest ih =>
      have hfirst := toInteger_text (h e List.mem_cons_self)
      have hrest := ih (fun e he => h e (List.mem_cons_of_mem _ he)) (start + e.2)
      rw [List.map_cons, List.foldlM_cons, hfirst]
      simp only [OrderedMap.total, List.map_cons, List.sum_cons] at hrest ⊢
      rw [← Int.add_assoc]
      exact hrest

/-- The total voting power is the sum of the amounts. -/
theorem Holds.totalVotingPower (h : x.Holds amounts) :
    x.totalVotingPower = .ok amounts.total := by
  rw [Snapshot.totalVotingPower, totalIn, h.entries, foldlM_amounts h.readable, Int.zero_add]

end Snapshot

end VaultGovernance
