/-!
Loops counted by their iterations. A loop that works off a stack is watched from outside: how many times it has gone
round, and what has ever been on its stack. If every iteration leaves less to do, the loop ends, and it does not go
round more often than there was to do at first.
-/

namespace AccessControl

/-- What has come on top of a stack, told by its heights. -/
def placed (before after : List α) : List α :=
  after.take (after.length - before.length)

/-- So many iterations lead from `first` to a state. All that has been put on the stack by then, beginning with what was
on it at first, is listed with the latest first. -/
inductive Iterates (step : σ → Except ε (Option σ)) (stack : σ → List α) (first : σ) : Nat → List α → σ → Prop where
  | start : Iterates step stack first 0 (stack first) first
  | next {count : Nat} {pushed : List α} {state after : σ} (before : Iterates step stack first count pushed state)
    (stepped : step state = .ok (some after)) :
    Iterates step stack first (count + 1) (placed (stack state) (stack after) ++ pushed) after

section

variable {step : σ → Except ε (Option σ)} {stack : σ → List α} {first state : σ} {count : Nat} {pushed : List α}
  {work : σ → Nat}

@[simp] theorem placed_of_length_le {before after : List α} (lower : after.length ≤ before.length) :
    placed before after = [] := by
  rw [placed, Nat.sub_eq_zero_of_le lower, List.take_zero]

@[simp] theorem placed_cons (new : α) {before rest : List α} (same : rest.length = before.length) :
    placed before (new :: rest) = [new] := by
  rw [placed, List.length_cons, same, Nat.add_sub_cancel_left, List.take_succ_cons, List.take_zero]

theorem Iterates.count_add_le (spends : ∀ state after, step state = .ok (some after) → work after < work state)
    (iterates : Iterates step stack first count pushed state) : count + work state ≤ work first := by
  induction iterates with
  | start => exact Nat.le_of_eq (Nat.zero_add _)
  | next _ stepped ih =>
    have less := spends _ _ stepped
    omega

/-- From wherever a loop has come it goes on to an end. -/
theorem Iterates.to_end (spends : ∀ state after, step state = .ok (some after) → work after < work state)
    (iterates : Iterates step stack first count pushed state) :
    ∃ total all last, Iterates step stack first total all last ∧ ∀ after, step last ≠ .ok (some after) := by
  induction left : work state using Nat.strongRecOn generalizing count pushed state with
  | ind amount ih =>
    by_cases continues : ∃ after, step state = .ok (some after)
    · obtain ⟨after, stepped⟩ := continues
      exact ih (work after) (left ▸ spends state after stepped) (iterates.next stepped) rfl
    · exact ⟨count, pushed, state, iterates, fun after stepped => continues ⟨after, stepped⟩⟩

theorem Iterates.value_eq {value : σ → β} (continues : ∀ state after, step state = .ok (some after) →
    value state = value after) (iterates : Iterates step stack first count pushed state) :
    value first = value state := by
  induction iterates with
  | start => rfl
  | next _ stepped ih => exact ih.trans (continues _ _ stepped)

/-- The loop ends within the bound, and the outcome is read off the state in which it does. -/
def EndsWithin (step : σ → Except ε (Option σ)) (stack : σ → List α) (first : σ) (result : σ → β) (bound : Nat)
    (outcome : Except ε β) : Prop :=
  ∃ count pushed last, Iterates step stack first count pushed last ∧ count ≤ bound ∧
    (step last = .ok none ∧ outcome = .ok (result last) ∨ ∃ error, step last = .error error ∧ outcome = .error error)

theorem EndsWithin.mono {result : σ → β} {bound more : Nat} {outcome : Except ε β} (le : bound ≤ more)
    (ends : EndsWithin step stack first result bound outcome) : EndsWithin step stack first result more outcome := by
  obtain ⟨count, pushed, last, iterates, counted, read⟩ := ends
  exact ⟨count, pushed, last, iterates, Nat.le_trans counted le, read⟩

theorem endsWithin_of_work {value : σ → Except ε β} {result : σ → β}
    (spends : ∀ state after, step state = .ok (some after) → work after < work state)
    (continues : ∀ state after, step state = .ok (some after) → value state = value after)
    (ends : ∀ state, step state = .ok none → value state = .ok (result state))
    (fails : ∀ state error, step state = .error error → value state = .error error) (stack : σ → List α) (first : σ) :
    EndsWithin step stack first result (work first) (value first) := by
  have begun : Iterates step stack first 0 (stack first) first := .start
  obtain ⟨count, pushed, last, iterates, stops⟩ := begun.to_end spends
  have counted := iterates.count_add_le spends
  refine ⟨count, pushed, last, iterates, by omega, ?_⟩
  rw [iterates.value_eq continues]
  cases stepped : step last with
  | error error => exact .inr ⟨error, rfl, fails last error stepped⟩
  | ok next =>
    cases next with
    | none => exact .inl ⟨rfl, ends last stepped⟩
    | some after => exact absurd stepped (stops after)

end

end AccessControl
