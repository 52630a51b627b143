import VaultGovernance.Configuration.Basic
import VaultGovernance.Metrics.Event
import VaultGovernance.Store.Basic

/-!
# VaultGovernance.Action

What operations are made of.  An action sees the clock and the configuration,
reads and writes the world, and ends with a result or a fault.  The world that
an action leaves behind is there in both cases; a transaction puts the store
back when its action fails, and leaves the events.
-/

namespace VaultGovernance

/-- What an action sees and cannot change. -/
structure Context where
  now : Timestamp
  configuration : Configuration
deriving DecidableEq, Inhabited

/-- What an action reads and writes: the store, and what has happened, the
latest event first. -/
structure World where
  store : Store := {}
  events : List Event := []
deriving DecidableEq, Inhabited

/-- A computation on the world that may fail. -/
def Action (α : Type) : Type := Context → World → Except Fault α × World

namespace Action

variable {α β : Type}

/-- Runs an action. -/
def run (act : Action α) (c : Context) (w : World) : Except Fault α × World := act c w

/-- Ends with a result. -/
def done (a : α) : Action α := fun _ w => (.ok a, w)

/-- Goes on with a result, and ends where the first action fails. -/
def andThen (act : Action α) (f : α → Action β) : Action β := fun c w =>
  match act c w with
  | (.ok a, w') => f a c w'
  | (.error e, w') => (.error e, w')

instance : Monad Action where
  pure := done
  bind := andThen

/-- Ends with a fault. -/
def fail (e : Fault) : Action α := fun _ w => (.error e, w)

/-- Ends with a refusal. -/
def refuse (e : DomainError) : Action α := fail (.refusal e)

/-- A result or a fault that needs no world. -/
def ofExcept : Except Fault α → Action α
  | .ok a => done a
  | .error e => fail e

/-- The time. -/
def now : Action Timestamp := fun c w => (.ok c.now, w)

/-- The configuration. -/
def configuration : Action Configuration := fun c w => (.ok c.configuration, w)

/-- The store as it is. -/
def store : Action Store := fun _ w => (.ok w.store, w)

/-- What has happened, the latest event first. -/
def events : Action (List Event) := fun _ w => (.ok w.events, w)

/-- Changes the store. -/
def modify (f : Store → Store) : Action Unit := fun _ w => (.ok (), { w with store := f w.store })

/-- Notes that something happened. -/
def record (e : Event) : Action Unit := fun _ w => (.ok (), { w with events := e :: w.events })

/-- Notes several happenings, the first one first. -/
def recordAll (es : List Event) : Action Unit := fun _ w =>
  (.ok (), { w with events := es.reverse ++ w.events })

/-- Runs an action as one unit: when it fails the store is as before, and a row
refused by the store becomes a refusal. -/
def transaction (act : Action α) : Action α := fun c w =>
  match act c w with
  | (.ok a, w') => (.ok a, w')
  | (.error e, w') => (.error e.atCommit, { w' with store := w.store })

/-- Runs an action for its result alone: the store is as before whatever the
outcome. -/
def rolledBack (act : Action α) : Action α := fun c w =>
  let (r, w') := act c w
  (r, { w' with store := w.store })

/-- Runs an action and goes on with its outcome, whatever it is. -/
def attempt (act : Action α) : Action (Except Fault α) := fun c w =>
  let (r, w') := act c w
  (.ok r, w')

/-! ## Equations -/

@[simp] theorem pure_eq (a : α) : (pure a : Action α) = done a := rfl

@[simp] theorem bind_eq (act : Action α) (f : α → Action β) : (act >>= f) = act.andThen f := rfl

@[simp] theorem done_run (a : α) (c : Context) (w : World) : done a c w = (.ok a, w) := rfl

@[simp] theorem fail_run (e : Fault) (c : Context) (w : World) :
    (fail e : Action α) c w = (.error e, w) := rfl

/-- A sequence goes on from where its first action left the world. -/
theorem andThen_of_ok {act : Action α} {f : α → Action β} {c : Context} {w w' : World} {a : α}
    (h : act c w = (.ok a, w')) : act.andThen f c w = f a c w' := by
  rw [andThen, h]

/-- A sequence ends where its first action fails. -/
theorem andThen_of_error {act : Action α} {f : α → Action β} {c : Context} {w w' : World}
    {e : Fault} (h : act c w = (.error e, w')) : act.andThen f c w = (.error e, w') := by
  rw [andThen, h]

/-- Ending with the result of an action is the action. -/
theorem andThen_done (act : Action α) : act.andThen done = act := by
  funext c w
  rw [andThen]
  rcases act c w with ⟨_ | _, _⟩ <;> rfl

/-- Sequences may be regrouped. -/
theorem andThen_assoc {γ : Type} (act : Action α) (f : α → Action β) (g : β → Action γ) :
    (act.andThen f).andThen g = act.andThen fun a => (f a).andThen g := by
  funext c w
  rw [andThen, andThen, andThen]
  rcases act c w with ⟨_ | _, _⟩ <;> rfl

instance : LawfulMonad Action :=
  LawfulMonad.mk' Action andThen_done (fun _ _ => rfl) andThen_assoc

/-- A failed transaction leaves the store as it was. -/
theorem store_of_transaction_error {act : Action α} {c : Context} {w w' : World} {e : Fault}
    (h : transaction act c w = (.error e, w')) : w'.store = w.store := by
  unfold transaction at h
  split at h
  · simp at h
  · simp only [Prod.mk.injEq] at h
    rw [← h.2]

end Action

end VaultGovernance
