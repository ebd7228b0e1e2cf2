import Mathlib.Logic.Function.Basic
import AccessControl.Proofs.Registry.Registering
import AccessControl.Registry.Implications
import AccessControl.Registry.Validity

/-!
Several modules that register permissions in one registry at the same time. A call holds the lock of the registry from
its check to its insertion, so a run is the calls one after the other, in some order in which those of each module keep
theirs. In every order the same ids come to be registered, each by the first call that could take it; and where the
modules agree on what an id stands for, the same registry comes about.
-/

namespace AccessControl

open Function

/-- What may be registered as long as its id is free. -/
structure Permission.Admissible (permission : Permission) : Prop where
  named : permission.normalize.id ≠ ""
  independent : permission.normalize.id ∉ permission.normalize.dependsOn
  unimplied : permission.normalize.id ∉ permission.normalize.implies

/-- The permission would be registered under the id if nothing else were. -/
def Permission.Offers (permission : Permission) (id : PermissionId) : Prop :=
  permission.Admissible ∧ permission.normalize.id = id

theorem Registry.perform_register_outcome (registry : Registry) (permission : Permission) :
    (¬ permission.Admissible ∧
      ∃ error, (Registration.register permission).perform registry = (.error error, registry)) ∨
    (permission.Admissible ∧ permission.normalize.id ∉ registry ∧
      (Registration.register permission).perform registry = (.ok (), registry.insert permission.normalize)) ∨
    permission.Admissible ∧ permission.normalize.id ∈ registry ∧
      (Registration.register permission).perform registry =
        (.error (.duplicateId permission.normalize.id), registry) := by
  rcases registry.perform_register_cases permission with ⟨accepted, done⟩ | ⟨error, refuses, done⟩
  · obtain ⟨_, named, independent, unimplied, free⟩ := Registry.accept_eq_ok_iff.mp accepted
    exact .inr (.inl ⟨⟨named, independent, unimplied⟩, free, done⟩)
  · cases refuses with
    | unnamed empty => exact .inl ⟨fun admissible => admissible.named empty, _, done⟩
    | dependsOnItself _ itself => exact .inl ⟨fun admissible => admissible.independent itself, _, done⟩
    | impliesItself _ _ itself => exact .inl ⟨fun admissible => admissible.unimplied itself, _, done⟩
    | known named independent unimplied present =>
      exact .inr (.inr ⟨⟨named, independent, unimplied⟩, present, done⟩)

/-- A call that has been made, by whom and with what answer. -/
structure AnsweredCall (μ : Type) where
  caller : μ
  permission : Permission
  answer : Except RegistryError Unit

/-- Modules at work on one registry. -/
structure Initialization (μ : Type) where
  registry : Registry
  /-- The calls that each module has yet to make. -/
  ahead : μ → List Permission
  /-- The calls made so far, the earliest first. -/
  made : List (AnsweredCall μ)

namespace Initialization

section

variable {μ : Type} {calls : μ → List Permission} {state : Initialization μ} {id : PermissionId}
  {earlier later : List (AnsweredCall μ)} {winner : AnsweredCall μ}

def start (calls : μ → List Permission) : Initialization μ :=
  ⟨.empty, calls, []⟩

/-- All calls have been made. -/
def Done (state : Initialization μ) : Prop :=
  ∀ caller, state.ahead caller = []

/-- The first call that could take the id has taken it, and all later ones have been told so. -/
structure WonBy (state : Initialization μ) (id : PermissionId) (earlier : List (AnsweredCall μ))
    (winner : AnsweredCall μ) (later : List (AnsweredCall μ)) : Prop where
  split : state.made = earlier ++ winner :: later
  first : ∀ call ∈ earlier, ¬ call.permission.Offers id
  offers : winner.permission.Offers id
  accepted : winner.answer = .ok ()
  stored : state.registry.find? id = some winner.permission.normalize
  refused : ∀ call ∈ later, call.permission.Offers id → call.answer = .error (.duplicateId id)

/-- The winner of an id stays the winner when another call is made. -/
theorem WonBy.extend (won : state.WonBy id earlier winner later) {registry : Registry} {ahead : μ → List Permission}
    {call : AnsweredCall μ} (stored : registry.find? id = state.registry.find? id)
    (refused : call.permission.Offers id → call.answer = .error (.duplicateId id)) :
    WonBy ⟨registry, ahead, state.made ++ [call]⟩ id earlier winner (later ++ [call]) where
  split := by simp [won.split]
  first := won.first
  offers := won.offers
  accepted := won.accepted
  stored := stored.trans won.stored
  refused := by
    intro other member offers
    rcases List.mem_append.mp member with before | last
    · exact won.refused other before offers
    · obtain rfl := List.mem_singleton.mp last
      exact refused offers

variable [DecidableEq μ]

/-- A module makes its next call. One that has made all of its calls leaves its turn to others. -/
def turn (state : Initialization μ) (caller : μ) : Initialization μ :=
  match state.ahead caller with
  | [] => state
  | permission :: rest =>
    let (answer, registry) := (Registration.register permission).perform state.registry
    { registry
      ahead := update state.ahead caller rest
      made := state.made ++ [⟨caller, permission, answer⟩] }

/-- What the modules have come to after these turns. -/
def after (calls : μ → List Permission) (schedule : List μ) : Initialization μ :=
  schedule.foldl turn (start calls)

def callsOf (state : Initialization μ) (caller : μ) : List Permission :=
  (state.made.filter fun call => call.caller = caller).map AnsweredCall.permission

/-- What the calls made so far have to do with the registry. -/
structure Sound (calls : μ → List Permission) (state : Initialization μ) : Prop where
  dealt : ∀ caller, state.callsOf caller ++ state.ahead caller = calls caller
  inadmissible : ∀ call ∈ state.made, ¬ call.permission.Admissible → call.answer ≠ .ok ()
  unclaimed : ∀ id, id ∉ state.registry → ∀ call ∈ state.made, ¬ call.permission.Offers id
  claimed : ∀ id, id ∈ state.registry → ∃ earlier winner later, state.WonBy id earlier winner later

theorem start_sound (calls : μ → List Permission) : Sound calls (start calls) where
  dealt _ := rfl
  inadmissible := by simp [start]
  unclaimed := by simp [start]
  claimed := by simp [start]

theorem turn_of_nil {caller : μ} (none : state.ahead caller = []) : state.turn caller = state := by
  rw [turn, none]

theorem turn_of_cons {caller : μ} {permission : Permission} {rest : List Permission} {registry : Registry}
    {answer : Except RegistryError Unit} (next : state.ahead caller = permission :: rest)
    (done : (Registration.register permission).perform state.registry = (answer, registry)) :
    state.turn caller =
      ⟨registry, update state.ahead caller rest, state.made ++ [⟨caller, permission, answer⟩]⟩ := by
  rw [turn, next]
  dsimp only
  rw [done]

/-- A call is added to those of its caller and to no others. -/
theorem dealt_turn {caller : μ} {permission : Permission} {rest : List Permission} {registry : Registry}
    {answer : Except RegistryError Unit} (next : state.ahead caller = permission :: rest)
    (dealt : ∀ caller, state.callsOf caller ++ state.ahead caller = calls caller) (other : μ) :
    callsOf ⟨registry, update state.ahead caller rest, state.made ++ [⟨caller, permission, answer⟩]⟩ other ++
      update state.ahead caller rest other = calls other := by
  rw [← dealt other]
  by_cases same : other = caller
  · subst same
    simp [callsOf, next]
  · simp [callsOf, same, Ne.symm same]

theorem Sound.refuse {caller : μ} {permission : Permission} {rest : List Permission} {error : RegistryError}
    (sound : Sound calls state) (next : state.ahead caller = permission :: rest)
    (done : (Registration.register permission).perform state.registry = (.error error, state.registry))
    (known : ∀ id, permission.Offers id → id ∈ state.registry ∧ error = .duplicateId id) :
    Sound calls (state.turn caller) := by
  rw [turn_of_cons next done]
  refine ⟨dealt_turn next sound.dealt, ?_, fun id absent => ?_, fun id present => ?_⟩
  · exact List.forall_mem_append.mpr ⟨sound.inadmissible, by simp⟩
  · refine List.forall_mem_append.mpr ⟨sound.unclaimed id absent, List.forall_mem_singleton.mpr fun offers => ?_⟩
    exact absent (known id offers).1
  · obtain ⟨earlier, winner, later, won⟩ := sound.claimed id present
    exact ⟨earlier, winner, _, won.extend rfl fun offers => congrArg Except.error (known id offers).2⟩

theorem Sound.accept {caller : μ} {permission : Permission} {rest : List Permission}
    (sound : Sound calls state) (next : state.ahead caller = permission :: rest)
    (admissible : permission.Admissible) (free : permission.normalize.id ∉ state.registry)
    (done : (Registration.register permission).perform state.registry =
      (.ok (), state.registry.insert permission.normalize)) : Sound calls (state.turn caller) := by
  rw [turn_of_cons next done]
  refine ⟨dealt_turn next sound.dealt, ?_, fun id absent => ?_, fun id present => ?_⟩
  · exact List.forall_mem_append.mpr ⟨sound.inadmissible, List.forall_mem_singleton.mpr (absurd admissible)⟩
  · rw [Registry.mem_insert, not_or] at absent
    exact List.forall_mem_append.mpr
      ⟨sound.unclaimed id absent.2, List.forall_mem_singleton.mpr fun offers => absent.1 offers.2⟩
  · by_cases same : permission.normalize.id = id
    · subst same
      refine ⟨state.made, _, [], rfl, sound.unclaimed _ free, ⟨admissible, rfl⟩, rfl, ?_, by simp⟩
      rw [Registry.find?_insert, if_pos rfl]
    · have older : id ∈ state.registry := (Registry.mem_insert.mp present).resolve_left same
      obtain ⟨earlier, winner, later, won⟩ := sound.claimed id older
      refine ⟨earlier, winner, _, won.extend ?_ fun offers => absurd offers.2 same⟩
      rw [Registry.find?_insert, if_neg same]

/-- Whichever module is next, its call takes a free id or leaves the registry as it is. -/
theorem Sound.turn (sound : Sound calls state) (caller : μ) : Sound calls (state.turn caller) := by
  cases next : state.ahead caller with
  | nil => rwa [turn_of_nil next]
  | cons permission rest =>
    rcases state.registry.perform_register_outcome permission with
      ⟨inadmissible, error, done⟩ | ⟨admissible, free, done⟩ | ⟨_, taken, done⟩
    · exact sound.refuse next done fun id offers => absurd offers.1 inadmissible
    · exact sound.accept next admissible free done
    · refine sound.refuse next done fun id offers => ?_
      obtain ⟨_, rfl⟩ := offers
      exact ⟨taken, rfl⟩

theorem after_sound (calls : μ → List Permission) (schedule : List μ) : Sound calls (after calls schedule) := by
  have run : ∀ state, Sound calls state → Sound calls (schedule.foldl Initialization.turn state) := by
    induction schedule with
    | nil => exact fun _ sound => sound
    | cons caller rest ih => exact fun state sound => ih _ (sound.turn caller)
  exact run _ (start_sound calls)

theorem Sound.mem_made (sound : Sound calls state) {call : AnsweredCall μ} (member : call ∈ state.made) :
    call.permission ∈ calls call.caller := by
  rw [← sound.dealt]
  exact List.mem_append_left _ (List.mem_map.mpr ⟨call, List.mem_filter.mpr ⟨member, by simp⟩, rfl⟩)

/-- When all calls have been made, each module's are among those made, in its own order. -/
theorem Sound.callsOf_eq (sound : Sound calls state) (done : state.Done) (caller : μ) :
    state.callsOf caller = calls caller := by
  rw [← sound.dealt, done caller, List.append_nil]

/-- What ends up registered is what some module offers, however the calls of the modules fall. -/
theorem Sound.mem_registry_iff (sound : Sound calls state) (done : state.Done) :
    id ∈ state.registry ↔ ∃ caller, ∃ permission ∈ calls caller, permission.Offers id := by
  constructor
  · intro present
    obtain ⟨earlier, winner, later, won⟩ := sound.claimed id present
    exact ⟨winner.caller, _, sound.mem_made (by simp [won.split]), won.offers⟩
  · intro offered
    obtain ⟨caller, permission, member, offers⟩ := offered
    by_contra absent
    rw [← sound.callsOf_eq done] at member
    obtain ⟨call, made, rfl⟩ := List.mem_map.mp member
    exact sound.unclaimed id absent call (List.mem_filter.mp made).1 offers

/-- No two admissible calls give one id two different meanings. -/
def Consistent (calls : μ → List Permission) : Prop :=
  ∀ caller other, ∀ permission ∈ calls caller, ∀ another ∈ calls other, permission.Admissible → another.Admissible →
    permission.normalize.id = another.normalize.id → permission.normalize = another.normalize

/-- Where the modules agree, what is stored under an id does not depend on who was first. -/
theorem Sound.registry_eq {other : Initialization μ} (consistent : Consistent calls) (sound : Sound calls state)
    (done : state.Done) (otherSound : Sound calls other) (otherDone : other.Done) :
    state.registry = other.registry := by
  refine Registry.ext_find? fun id => ?_
  have sameIds : id ∈ state.registry ↔ id ∈ other.registry :=
    (sound.mem_registry_iff done).trans (otherSound.mem_registry_iff otherDone).symm
  by_cases present : id ∈ state.registry
  · obtain ⟨_, winner, _, won⟩ := sound.claimed id present
    obtain ⟨_, rival, _, otherWon⟩ := otherSound.claimed id (sameIds.mp present)
    have agree : winner.permission.normalize = rival.permission.normalize :=
      consistent winner.caller rival.caller _ (sound.mem_made (by simp [won.split])) _
        (otherSound.mem_made (by simp [otherWon.split])) won.offers.1 otherWon.offers.1
        (won.offers.2.trans otherWon.offers.2.symm)
    rw [won.stored, otherWon.stored, agree]
  · have absent : id ∉ other.registry := fun there => present (sameIds.mpr there)
    rw [Registry.find?_eq_none_iff.mpr present, Registry.find?_eq_none_iff.mpr absent]

end

/-- Everything that is asked of a registry is answered alike, down to the order of what is listed and to the permission
that an error names. -/
structure SameAnswers (left right : Registry) : Prop where
  find? : ∀ id, left.find? id = right.find? id
  resolveDependencies : ∀ id, left.resolveDependencies id = right.resolveDependencies id
  expandImplied : ∀ ids, left.expandImplied ids = right.expandImplied ids
  validateDependencies : left.validateDependencies = right.validateDependencies
  validateGraph : left.validateGraph = right.validateGraph

theorem SameAnswers.refl (registry : Registry) : SameAnswers registry registry :=
  ⟨fun _ => rfl, fun _ => rfl, fun _ => rfl, rfl, rfl⟩

/-- However the calls of several modules fall, those ids come to be registered that some admissible call offers, each
for the first such call, and every other call for it is told that the id is taken. Modules that agree on what they
offer end up with the same registry. -/
theorem registration_in_any_order {μ : Type} [DecidableEq μ] (calls : μ → List Permission) :
    (∀ schedule, (after calls schedule).Done →
      (∀ caller, (after calls schedule).callsOf caller = calls caller) ∧
      (∀ id, id ∈ (after calls schedule).registry ↔ ∃ caller, ∃ permission ∈ calls caller, permission.Offers id) ∧
      (∀ id ∈ (after calls schedule).registry,
        ∃ earlier winner later, (after calls schedule).WonBy id earlier winner later) ∧
      ∀ call ∈ (after calls schedule).made, ¬ call.permission.Admissible → call.answer ≠ .ok ()) ∧
    (Consistent calls → ∀ schedule other, (after calls schedule).Done → (after calls other).Done →
      (after calls schedule).registry = (after calls other).registry ∧
      SameAnswers (after calls schedule).registry (after calls other).registry) := by
  refine ⟨fun schedule done => ?_, fun consistent schedule other done otherDone => ?_⟩
  · have sound := after_sound calls schedule
    exact ⟨sound.callsOf_eq done, fun id => sound.mem_registry_iff done, sound.claimed, sound.inadmissible⟩
  · have same : (after calls schedule).registry = (after calls other).registry :=
      (after_sound calls schedule).registry_eq consistent done (after_sound calls other) otherDone
    exact ⟨same, same ▸ .refl _⟩

/-- Two modules that offer one permission in different spellings; one of their calls can never succeed. -/
def rivals : Bool → List Permission
  | false => [Registry.padded, { id := " ", moduleName := "docs" }]
  | true => [{ id := "edit", moduleName := "docs", dependsOn := ["read", " read"] }, { id := "read", moduleName := "docs" }]

theorem rivals_consistent : Consistent rivals := by
  have agree : ∀ caller other, ∀ permission ∈ rivals caller, ∀ another ∈ rivals other,
      permission.normalize.id = another.normalize.id → permission.normalize = another.normalize := by decide
  exact fun caller other permission member another offered _ _ => agree caller other permission member another offered

/-- Each of the two modules is first in one of the orders, and the registry is the same. -/
theorem rivals_agree :
    Consistent rivals ∧ (after rivals [false, true, true, false]).Done ∧ (after rivals [true, true, false, false]).Done ∧
      (after rivals [false, true, true, false]).registry = (after rivals [true, true, false, false]).registry ∧
      (after rivals [false, true, true, false]).made.map (fun call => (call.caller, call.answer.isOk)) =
        [(false, true), (true, false), (true, true), (false, false)] ∧
      (after rivals [true, true, false, false]).made.map (fun call => (call.caller, call.answer.isOk)) =
        [(true, true), (true, true), (false, false), (false, false)] ∧
      "edit" ∈ (after rivals [true, true, false, false]).registry ∧
      ∃ earlier winner later, (after rivals [true, true, false, false]).WonBy "edit" earlier winner later := by
  have inAnyOrder := registration_in_any_order rivals
  have done : (after rivals [false, true, true, false]).Done := by unfold Done; decide
  have otherDone : (after rivals [true, true, false, false]).Done := by unfold Done; decide
  have present : "edit" ∈ (after rivals [true, true, false, false]).registry := by decide
  obtain ⟨_, _, won, _⟩ := inAnyOrder.1 _ otherDone
  exact ⟨rivals_consistent, done, otherDone, (inAnyOrder.2 rivals_consistent _ _ done otherDone).1, by decide, by decide,
    present, won "edit" present⟩

end Initialization

end AccessControl
