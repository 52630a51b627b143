import VaultGovernance.Action

/-!
# VaultGovernance.Proofs.Action

What an action that ended with a result went through.  Each equation here takes
one step off an action: a sequence with a result is a first action with a
result and a second one from where the first left the world, a look at the world
changes nothing, and a refusal has no result.  Reading an operation off its
result is then one pass of the simplifier.
-/

namespace VaultGovernance

/-- A sequence of readings succeeds exactly when each of them does. -/
theorem bind_eq_ok {ε α β : Type} {x : Except ε α} {f : α → Except ε β} {b : β} :
    (x >>= f) = .ok b ↔ ∃ a, x = .ok a ∧ f a = .ok b := by
  cases x <;> simp [bind, Except.bind]

/-- A sequence of readings fails exactly when one of them does, the others before it
having succeeded. -/
theorem bind_eq_error {ε α β : Type} {r : Except ε α} {f : α → Except ε β} {e : ε} :
    (r >>= f) = .error e ↔ r = .error e ∨ ∃ a, r = .ok a ∧ f a = .error e := by
  cases r <;> simp [bind, Except.bind]

/-- A pure reading succeeds with its value. -/
@[simp] theorem pure_eq_ok {ε α : Type} {a b : α} : (pure a : Except ε α) = .ok b ↔ a = b := by
  simp [pure, Except.pure]

/-- A mapped reading succeeds with the image of a value. -/
theorem map_eq_ok {ε α β : Type} {x : Except ε α} {f : α → β} {b : β} :
    x.map f = .ok b ↔ ∃ a, x = .ok a ∧ f a = b := by
  cases x <;> simp [Except.map]

/-- What a reading gives as an option is its value. -/
theorem toOption_eq_some {ε α : Type} {x : Except ε α} {a : α} :
    x.toOption = some a ↔ x = .ok a := by
  cases x <;> simp [Except.toOption]

namespace Action

variable {α β : Type} {c : Context} {w w' : World}

/-- A sequence ends with a result exactly when both its parts do. -/
theorem andThen_eq_ok {act : Action α} {f : α → Action β} {b : β} :
    act.andThen f c w = (.ok b, w') ↔
      ∃ a w₁, act c w = (.ok a, w₁) ∧ f a c w₁ = (.ok b, w') := by
  rw [andThen]
  rcases act c w with ⟨e | a, w₁⟩
  · simp
  · constructor
    · intro h
      exact ⟨a, w₁, rfl, h⟩
    · rintro ⟨a', w₂, h, hf⟩
      cases h
      exact hf

@[simp] theorem refuse_run (e : DomainError) :
    (refuse e : Action α) c w = (.error (.refusal e), w) := rfl

@[simp] theorem now_andThen (f : Timestamp → Action β) :
    now.andThen f c w = f c.now c w := rfl

@[simp] theorem configuration_andThen (f : Configuration → Action β) :
    configuration.andThen f c w = f c.configuration c w := rfl

@[simp] theorem store_andThen (f : Store → Action β) :
    store.andThen f c w = f w.store c w := rfl

@[simp] theorem modify_andThen (g : Store → Store) (f : Unit → Action β) :
    (modify g).andThen f c w = f () c { w with store := g w.store } := rfl

@[simp] theorem record_andThen (e : Event) (f : Unit → Action β) :
    (record e).andThen f c w = f () c { w with events := e :: w.events } := rfl

@[simp] theorem recordAll_andThen (es : List Event) (f : Unit → Action β) :
    (recordAll es).andThen f c w = f () c { w with events := es.reverse ++ w.events } := rfl

/-- An action that ends with a given result leaves the world. -/
@[simp] theorem done_eq_ok {a b : α} : done a c w = (.ok b, w') ↔ a = b ∧ w = w' := by
  simp [done]

/-- A reading ends as it does and leaves the world. -/
theorem ofExcept_run (x : Except Fault α) : ofExcept x c w = (x, w) := by
  cases x <;> rfl

/-- A reading has a result exactly when it succeeds, and leaves the world. -/
theorem ofExcept_eq_ok {x : Except Fault α} {a : α} :
    ofExcept x c w = (.ok a, w') ↔ x = .ok a ∧ w = w' := by
  cases x <;> simp [ofExcept]

/-- After a reading that succeeds the sequence goes on. -/
theorem ofExcept_ok_andThen (a : α) (f : α → Action β) :
    (ofExcept (.ok a)).andThen f = f a := rfl

/-- A reading that fails ends the sequence. -/
theorem ofExcept_error_andThen (e : Fault) (f : α → Action β) :
    (ofExcept (.error e)).andThen f = fail e := rfl

/-- After a reading that succeeds the sequence goes on in the same world. -/
theorem ofExcept_andThen_eq_ok {x : Except Fault α} {f : α → Action β} {b : β} :
    (ofExcept x).andThen f c w = (.ok b, w') ↔ ∃ a, x = .ok a ∧ f a c w = (.ok b, w') := by
  cases x <;> simp [ofExcept, andThen]

/-- A check that is made on a condition stops the sequence where it fails, and
changes nothing where it succeeds. -/
theorem checkIf_eq_ok {P : Prop} [Decidable P] {check : Store → Except Fault Unit}
    {rest : Action β} {b : β} :
    (if P then store.andThen fun s => (ofExcept (check s)).andThen fun _ => rest else rest) c w
        = (.ok b, w') ↔
      (P → check w.store = .ok ()) ∧ rest c w = (.ok b, w') := by
  by_cases h : P
  · rw [if_pos h, store_andThen, ofExcept_andThen_eq_ok]
    constructor
    · rintro ⟨_, hcheck, hrest⟩
      exact ⟨fun _ => hcheck, hrest⟩
    · rintro ⟨hcheck, hrest⟩
      exact ⟨(), hcheck h, hrest⟩
  · rw [if_neg h]
    exact ⟨fun hrest => ⟨fun h' => absurd h' h, hrest⟩, And.right⟩

/-- A transaction ends with a result exactly when its action does, in the same
world. -/
theorem transaction_eq_ok {act : Action α} {a : α} :
    transaction act c w = (.ok a, w') ↔ act c w = (.ok a, w') := by
  rw [transaction]
  rcases act c w with ⟨_ | a, w₁⟩ <;> simp

end Action

end VaultGovernance
