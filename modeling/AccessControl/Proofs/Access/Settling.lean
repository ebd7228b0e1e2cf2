import AccessControl.Access.Loader

/-!
Changes on the clock whose outcome does not depend on when they start. Reads that answer at all are such changes,
and what is made from them by one step after the other is one too.
-/

namespace AccessControl.Transition

variable {change : Transition ε Duration α} {outcome : Except ε α} {within more : Duration}

/-- Whenever it starts, the change comes to this outcome, and takes no longer than `within`. -/
def Settles (change : Transition ε Duration α) (outcome : Except ε α) (within : Duration) : Prop :=
  ∀ elapsed, ∃ later, change.perform elapsed = (outcome, later) ∧
    later.nanoseconds ≤ elapsed.nanoseconds + within.nanoseconds

@[simp] theorem nanoseconds_zero : Duration.zero.nanoseconds = 0 := rfl

@[simp] theorem nanoseconds_add (within more : Duration) :
    (within + more).nanoseconds = within.nanoseconds + more.nanoseconds := rfl

theorem Settles.mono (settles : change.Settles outcome within) (longer : within.nanoseconds ≤ more.nanoseconds) :
    change.Settles outcome more := by
  intro elapsed
  obtain ⟨later, performed, inTime⟩ := settles elapsed
  exact ⟨later, performed, by omega⟩

theorem Settles.result_eq {loading : Loading α} {outcome : Except LoadError α}
    (settles : loading.Settles outcome within) : loading.result = outcome := by
  obtain ⟨_, performed, _⟩ := settles .zero
  exact congrArg Prod.fst performed

theorem settles_ofExcept : (ofExcept outcome : Transition ε Duration α).Settles outcome .zero :=
  fun elapsed => ⟨elapsed, perform_ofExcept outcome elapsed, Nat.le_add_right _ _⟩

theorem settles_pure (value : α) : (pure value : Transition ε Duration α).Settles (.ok value) .zero :=
  fun elapsed => ⟨elapsed, perform_pure value elapsed, Nat.le_add_right _ _⟩

theorem settles_throw (error : ε) : (throw error : Transition ε Duration α).Settles (.error error) .zero :=
  fun elapsed => ⟨elapsed, perform_throw error elapsed, Nat.le_add_right _ _⟩

theorem Settles.bind {value : α} {next : α → Transition ε Duration β} {result : Except ε β}
    (first : change.Settles (.ok value) within) (second : (next value).Settles result more) :
    (change >>= next).Settles result (within + more) := by
  intro elapsed
  obtain ⟨between, performed, inTime⟩ := first elapsed
  obtain ⟨later, continued, stillInTime⟩ := second between
  refine ⟨later, by rw [perform_bind, performed]; exact continued, ?_⟩
  rw [nanoseconds_add]
  omega

theorem Settles.bind_error {error : ε} (next : α → Transition ε Duration β)
    (failed : change.Settles (.error error) within) : (change >>= next).Settles (.error error) within := by
  intro elapsed
  obtain ⟨later, performed, inTime⟩ := failed elapsed
  exact ⟨later, by rw [perform_bind, performed], inTime⟩

theorem Settles.map (settles : change.Settles outcome within) (apply : α → β) :
    (do return apply (← change) : Transition ε Duration β).Settles (outcome.map apply) within := by
  cases outcome with
  | ok value =>
    intro elapsed
    obtain ⟨later, performed, inTime⟩ := settles elapsed
    exact ⟨later, by rw [perform_bind, performed]; rfl, inTime⟩
  | error error => exact settles.bind_error _

theorem Settles.adapt (settles : change.Settles outcome within) (wrap : ε → δ) :
    Settles (ExceptT.adapt wrap change : Transition δ Duration α) (outcome.mapError wrap) within := by
  intro elapsed
  obtain ⟨later, performed, inTime⟩ := settles elapsed
  exact ⟨later, by rw [perform_adapt, performed], inTime⟩

end AccessControl.Transition
