namespace AccessControl

/-- A change to a state of type `σ` that gives a result or fails. What was done before a failure stays done. -/
abbrev Transition (ε σ : Type) := ExceptT ε (StateM σ)

namespace Transition

def perform (change : Transition ε σ α) (state : σ) : Except ε α × σ :=
  change.run.run state

/-- Gives what is known already, and changes nothing. -/
def ofExcept (outcome : Except ε α) : Transition ε σ α :=
  liftExcept outcome

theorem perform_pure (value : α) (state : σ) :
    perform (pure value : Transition ε σ α) state = (.ok value, state) :=
  rfl

theorem perform_throw (error : ε) (state : σ) :
    perform (throw error : Transition ε σ α) state = (.error error, state) :=
  rfl

theorem perform_get (state : σ) : perform (get : Transition ε σ σ) state = (.ok state, state) :=
  rfl

theorem perform_set (next state : σ) : perform (set next : Transition ε σ PUnit) state = (.ok ⟨⟩, next) :=
  rfl

theorem perform_modify (update : σ → σ) (state : σ) :
    perform (modify update : Transition ε σ PUnit) state = (.ok ⟨⟩, update state) :=
  rfl

theorem perform_ofExcept (outcome : Except ε α) (state : σ) : perform (ofExcept outcome) state = (outcome, state) := by
  cases outcome <;> rfl

theorem perform_bind (first : Transition ε σ α) (next : α → Transition ε σ β) (state : σ) :
    perform (first >>= next) state =
      match perform first state with
      | (.ok value, after) => perform (next value) after
      | (.error error, after) => (.error error, after) := by
  simp only [perform, ExceptT.run_bind, StateT.run_bind]
  obtain ⟨outcome, after⟩ := StateT.run (ExceptT.run first) state
  cases outcome <;> rfl

/-- What is done about a failure starts from where the failure left the state. -/
theorem perform_tryCatch (change : Transition ε σ α) (handle : ε → Transition ε σ α) (state : σ) :
    perform (tryCatch change handle) state =
      match perform change state with
      | (.ok value, after) => (.ok value, after)
      | (.error error, after) => perform (handle error) after := by
  simp only [perform, ExceptT.run_tryCatch, StateT.run_bind]
  obtain ⟨outcome, after⟩ := StateT.run (ExceptT.run change) state
  cases outcome <;> rfl

theorem perform_adapt (wrap : ε → δ) (change : Transition ε σ α) (state : σ) :
    perform (ExceptT.adapt wrap change) state =
      ((perform change state).1.mapError wrap, (perform change state).2) :=
  rfl

end Transition

end AccessControl
