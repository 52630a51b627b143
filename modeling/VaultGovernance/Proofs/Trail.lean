import VaultGovernance.Proofs.History

/-!
# VaultGovernance.Proofs.Trail

Runs as one row sees them.  `World.trail look w calls` lists what a look at the
store shows after each of the calls, beginning with the first call after which
it shows something.  Where every call leads from what is shown to something that
is related to it, neighbours in the trail are related (`isChain_trail`), and its
first entry was made by a call of the run (`head?_trail`).

What does not hold when a run starts and holds when it ends began to hold at one
of its calls (`exists_call`).
-/

namespace VaultGovernance

namespace World

/-! ## Calls that change something -/

/-- A call that does not leave the store as it was is a call that succeeded. -/
theorem succeeded_of_store_ne {w : World} {k : Call} (h : (w.called k).store ≠ w.store) :
    ∃ u, k.operation.action k.context w = (.ok u, w.called k) := by
  rw [called] at h ⊢
  rcases hrun : Action.transaction k.operation.action k.context w with ⟨e | u, w'⟩
  · rw [hrun] at h
    exact absurd (Action.store_of_transaction_error hrun) h
  · exact ⟨u, Action.transaction_eq_ok.1 hrun⟩

/-- What comes to hold in a run comes to hold at one of its calls. -/
theorem exists_call {P : Store → Prop} {w : World} {calls : List Call} (h : ¬ P w.store)
    (h' : P (w.after calls).store) :
    ∃ earlier k later, calls = earlier ++ k :: later ∧ ¬ P (w.after earlier).store ∧
      P (w.after (earlier ++ [k])).store := by
  induction calls generalizing w with
  | nil => exact absurd h' h
  | cons k calls ih =>
      by_cases hk : P (w.called k).store
      · exact ⟨[], k, calls, rfl, h, hk⟩
      · obtain ⟨earlier, k', later, rfl, hbefore, hafter⟩ := ih hk h'
        exact ⟨k :: earlier, k', later, rfl, hbefore, hafter⟩

/-! ## Trails -/

variable {α : Type} {look : Store → Option α} {w : World} {calls : List Call}

/-- What a look at the store shows after each call, with the call.  A call after
which it shows nothing leaves no entry. -/
def trail (look : Store → Option α) : World → List Call → List (Call × α)
  | _, [] => []
  | w, k :: calls =>
    match look (w.called k).store with
    | some a => (k, a) :: trail look (w.called k) calls
    | none => trail look (w.called k) calls

/-- A call after which something is shown leaves an entry. -/
theorem trail_cons_of_some {k : Call} {a : α} (h : look (w.called k).store = some a) :
    trail look w (k :: calls) = (k, a) :: trail look (w.called k) calls := by
  rw [trail, h]

/-- A call after which nothing is shown leaves none. -/
theorem trail_cons_of_none {k : Call} (h : look (w.called k).store = none) :
    trail look w (k :: calls) = trail look (w.called k) calls := by
  rw [trail, h]

section Chain

variable {R : Call → α → α → Prop}

/-- The trail goes on from what is shown at the start, whatever call that is
entered with. -/
theorem isChain_cons_trail
    (step : ∀ (w : World) k a, look w.store = some a →
      ∃ b, look (w.called k).store = some b ∧ R k a b)
    {k : Call} {a : α} (h : look w.store = some a) (calls : List Call) :
    ((k, a) :: trail look w calls).IsChain fun x y => R y.1 x.2 y.2 := by
  induction calls generalizing w k a with
  | nil => exact .singleton _
  | cons k' calls ih =>
      obtain ⟨b, hb, hR⟩ := step w k' a h
      rw [trail_cons_of_some hb]
      exact .cons_cons hR (ih hb)

/-- Neighbours in a trail are related where every call keeps something shown and
leads to something related. -/
theorem isChain_trail
    (step : ∀ (w : World) k a, look w.store = some a →
      ∃ b, look (w.called k).store = some b ∧ R k a b)
    (w : World) (calls : List Call) :
    (trail look w calls).IsChain fun x y => R y.1 x.2 y.2 := by
  induction calls generalizing w with
  | nil => exact .nil
  | cons k calls ih =>
      cases hk : look (w.called k).store with
      | none =>
          rw [trail_cons_of_none hk]
          exact ih _
      | some a =>
          rw [trail_cons_of_some hk]
          exact isChain_cons_trail step hk calls

end Chain

/-- The first entry of a trail is made by the call after which something is shown
for the first time. -/
theorem head?_trail {k : Call} {a : α} (hnone : look w.store = none)
    (h : (trail look w calls).head? = some (k, a)) :
    ∃ earlier later, calls = earlier ++ k :: later ∧ look (w.after earlier).store = none ∧
      look (w.after (earlier ++ [k])).store = some a := by
  induction calls generalizing w with
  | nil => cases h
  | cons k' calls ih =>
      cases hk : look (w.called k').store with
      | none =>
          rw [trail_cons_of_none hk] at h
          obtain ⟨earlier, later, rfl, hbefore, hafter⟩ := ih hk h
          exact ⟨k' :: earlier, later, rfl, hbefore, hafter⟩
      | some b =>
          rw [trail_cons_of_some hk] at h
          obtain ⟨rfl, rfl⟩ : k' = k ∧ b = a := by simpa using h
          exact ⟨[], calls, rfl, hnone, hk⟩

/-- The first entry of a trail that shows a column of a row is made by the call that
adds the row. -/
theorem head?_trail_row {ρ : Type} {row : Store → Option ρ} {column : ρ → α} {k : Call} {a : α}
    (hnone : row w.store = none)
    (h : (trail (fun s => (row s).map column) w calls).head? = some (k, a)) :
    ∃ earlier later r, calls = earlier ++ k :: later ∧ row (w.after earlier).store = none ∧
      row (w.after (earlier ++ [k])).store = some r ∧ column r = a := by
  obtain ⟨earlier, later, rfl, hbefore, hafter⟩ := head?_trail (by rw [hnone]; rfl) h
  obtain ⟨r, hr, rfl⟩ := Option.map_eq_some_iff.1 hafter
  exact ⟨earlier, later, r, rfl, Option.map_eq_none_iff.1 hbefore, hr, rfl⟩

end World

end VaultGovernance
