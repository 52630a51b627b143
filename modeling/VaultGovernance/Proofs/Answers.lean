import VaultGovernance.Proofs.Identifiers
import VaultGovernance.Proofs.Requests
import VaultGovernance.Proofs.Showable

/-!
# VaultGovernance.Proofs.Answers

What requests are answered with.  The answer to a request is the one that the endpoint gives
which it reaches, at once or where it is redirected to; the endpoint shows the result of its
action, or the fault that ended it.  `Store.Reached` are the stores that requests and calls
lead to, in any order.
-/

namespace VaultGovernance

/-! ## Input that is accepted -/

/-- Values that are all there are the outcome of all. -/
theorem Checked.all_valid {α : Type} (values : List α) :
    Checked.all (values.map .valid) = .valid values := by
  induction values with
  | nil => rfl
  | cons a values ih =>
      rw [List.map_cons, all, ih]
      rfl

/-- Any object is an object of any values. -/
theorem Form.anyObject_obj {p : Place} (entries : OrderedMap Json) :
    anyObject p (.obj entries) = .valid entries :=
  Checked.all_valid entries

/-- An input that has a value is accepted with it. -/
theorem Checked.exists_valid {α : Type} {x : Checked α} (h : x.value?.isSome = true) :
    ∃ a, x = .valid a := by
  cases x with
  | valid a => exact ⟨a, rfl⟩
  | invalid issues => cases h

/-! ## Answers -/

namespace Http

open VaultGovernance.Action

variable {α : Type} {r : Request} {c : Context} {w w' : World} {status : Nat}
  {toShown : α → Representation.Shown} {blame : Blame} {act : Action α}

/-- A body is what its text is read as. -/
theorem Request.content_of_read {text : String} {j : Json} (hbody : r.body = some text)
    (hne : text ≠ "") (hmark : text.toList.head? ≠ some byteOrderMark)
    (h : Json.read text = .ok j) : r.content = .value j := by
  simp only [content, hbody, if_neg hne, if_neg hmark, h]

/-- The value of a body can be shown. -/
theorem Request.canShow_of_content {j : Json} (h : r.content = .value j) : j.canShow = true := by
  rw [content] at h
  split at h
  · cases h
  · split at h
    · cases h
    · dsimp only at h
      split at h
      · next hread =>
        cases h
        exact Json.canShow_of_read hread
      · cases h
      · cases h

/-- A result is answered with what shows it. -/
theorem perform_ok {a : α} (h : act c w = (.ok a, w')) :
    perform status toShown blame (.valid act) c w =
      (.ok (shownReply status (toShown a)), w') := by
  simp only [perform, bind_eq, andThen, attempt, transaction, h, done_run]

/-- A fault is answered as such, and the store is as before. -/
theorem perform_error {e : Fault} (h : act c w = (.error e, w')) :
    perform status toShown blame (.valid act) c w =
      (.ok (ofFault blame e.atCommit), { w' with store := w.store }) := by
  simp only [perform, bind_eq, andThen, attempt, transaction, h, done_run]

/-- Counting an answer does not change it. -/
theorem answer_run {answering : Action Reply} {reply : Reply}
    (h : answering c w = (.ok reply, w')) :
    ∃ w'', answer r answering c w = (.ok reply, w'') ∧ w''.store = w'.store := by
  rw [answer, bind_eq, andThen_of_ok h]
  cases reply <;> exact ⟨_, rfl, rfl⟩

/-- A request does to the store what the endpoint does that it reaches. -/
theorem exchange_store_of_reaches {e : Endpoint} (fresh : String) (reached : Reaches c r e) :
    ∃ (path : String) (v : World), v.store = w.store ∧
      (exchange fresh r c w).2.store = (handle { r with path } e c v).2.store := by
  rw [exchange_store, Http.reply, bind_eq, configuration_andThen]
  rcases reached with hfound | ⟨path, helsewhere, hfound⟩
  · simp only [hfound]
    exact ⟨r.path, w, rfl, answer_store _⟩
  · simp only [helsewhere, bind_eq, recordAnswer, record_andThen, hfound]
    generalize hv : World.mk w.store _ = v
    exact ⟨path, v, by rw [← hv], answer_store _⟩

/-- A request is answered as the endpoint answers it that it reaches. -/
theorem exchange_of_handle {e : Endpoint} (reply : Reply) (s' : Store) (fresh : String)
    (reached : Reaches c r e) (hmethod : r.method ≠ headMethod)
    (h : ∀ path (v : World), v.store = w.store →
      ∃ v', handle { r with path } e c v = (.ok reply, v') ∧ v'.store = s') :
    ∃ w', exchange fresh r c w = (.ok (reply.toResponse (r.trace?.getD fresh)), w') ∧
      w'.store = s' := by
  suffices hreply : ∃ w', Http.reply r c w = (.ok reply, w') ∧ w'.store = s' by
    obtain ⟨w', hrun, hstore⟩ := hreply
    refine ⟨w', ?_, hstore⟩
    rw [exchange, bind_eq, andThen_of_ok hrun, if_neg hmethod]
    rfl
  rw [Http.reply, bind_eq, configuration_andThen]
  rcases reached with hfound | ⟨path, helsewhere, hfound⟩
  · simp only [hfound]
    obtain ⟨v', hrun, hstore⟩ := h r.path w rfl
    obtain ⟨w'', hanswer, hkept⟩ := answer_run (r := r) hrun
    exact ⟨w'', hanswer, hkept.trans hstore⟩
  · simp only [helsewhere, bind_eq, recordAnswer, record_andThen, hfound]
    generalize hv : World.mk w.store _ = v
    obtain ⟨v', hrun, hstore⟩ := h path v (by rw [← hv])
    obtain ⟨w'', hanswer, hkept⟩ := answer_run (r := { r with path }) hrun
    exact ⟨w'', hanswer, hkept.trans hstore⟩

section Performing

variable {e : Endpoint} (fresh : String) (reached : Reaches c r e) (hmethod : r.method ≠ headMethod)
  (hhandle : ∀ path, handle { r with path } e = perform status toShown blame (.valid act))

include reached hmethod hhandle

/-- A request whose action succeeds shows the result and has its effect. -/
theorem exchange_of_action_ok {a : α} {s' : Store}
    (h : ∀ v : World, v.store = w.store → ∃ v', act c v = (.ok a, v') ∧ v'.store = s') :
    ∃ w', exchange fresh r c w =
        (.ok ((shownReply status (toShown a)).toResponse (r.trace?.getD fresh)), w') ∧
      w'.store = s' := by
  refine exchange_of_handle _ s' fresh reached hmethod fun path v hv => ?_
  obtain ⟨v', hact, hstore⟩ := h v hv
  rw [hhandle, perform_ok hact]
  exact ⟨_, rfl, hstore⟩

/-- A request whose action fails shows the fault and has no effect. -/
theorem exchange_of_action_error {fault : Fault}
    (h : ∀ v : World, v.store = w.store → ∃ v', act c v = (.error fault, v')) :
    ∃ w', exchange fresh r c w =
        (.ok ((ofFault blame fault.atCommit).toResponse (r.trace?.getD fresh)), w') ∧
      w'.store = w.store := by
  refine exchange_of_handle _ w.store fresh reached hmethod fun path v hv => ?_
  obtain ⟨v', hact⟩ := h v hv
  rw [hhandle, perform_error hact]
  exact ⟨_, rfl, hv⟩

end Performing

end Http

/-! ## Stores that are reached -/

namespace Store

/-- The stores that calls and requests lead to from an empty one, in any order. -/
inductive Reached : Store → Prop
  | empty : Reached {}
  | called {w : World} (k : Call) (h : Reached w.store) : Reached (w.called k).store
  | answered {w : World} (k : Arrival) (h : Reached w.store) : Reached (w.answered k).store

namespace Reached

variable {s : Store}

/-- What every call keeps holds of every store that is reached. -/
theorem invariant {P : Store → Prop} (empty : P {})
    (step : ∀ (w : World) (k : Call), P w.store → P (w.called k).store) (h : s.Reached) : P s := by
  induction h with
  | empty => exact empty
  | called k _ ih => exact step _ k ih
  | @answered w k _ ih =>
      rcases World.answered_store w k with hsame | ⟨_, op, w₁, -, -, hw, hcalled⟩
      · rw [hsame]
        exact ih
      · rw [hcalled]
        exact step w₁ _ (hw ▸ ih)

/-- A run of requests leads on. -/
theorem served {w : World} (h : w.store.Reached) (requests : List Arrival) :
    (w.served requests).store.Reached := by
  induction requests using List.reverseRecOn with
  | nil => exact h
  | append_singleton requests k ih =>
      rw [World.served_append]
      exact .answered k ih

theorem numbered (h : s.Reached) : s.Numbered :=
  h.invariant .empty fun w k hw => (World.change_called w k).numbered hw

end Reached

end Store

end VaultGovernance
