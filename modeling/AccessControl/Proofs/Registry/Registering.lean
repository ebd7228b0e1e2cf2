import AccessControl.Registry.CoreCatalog
import AccessControl.Registry.Protocol

namespace AccessControl

open Text

/-- Edges of a permission in normal form. -/
structure WellFormedEdges (id : PermissionId) (edges : List PermissionId) : Prop where
  present : ∀ edge ∈ edges, edge ≠ ""
  trimmed : ∀ edge ∈ edges, Trimmed edge
  distinct : edges.Nodup
  others : id ∉ edges

structure Permission.WellFormed (permission : Permission) : Prop where
  named : permission.id ≠ ""
  trimmed : Trimmed permission.id
  dependsOn : WellFormedEdges permission.id permission.dependsOn
  implies : WellFormedEdges permission.id permission.implies

theorem wellFormedEdges_normalEdges {id : PermissionId} {edges : List PermissionId} (others : id ∉ normalEdges edges) :
    WellFormedEdges id (normalEdges edges) where
  present _ member := (mem_normalEdges.mp member).1
  trimmed _ member := by
    obtain ⟨_, edge, _, rfl⟩ := mem_normalEdges.mp member
    exact trimmed_trim edge
  distinct := nodup_normalEdges edges
  others := others

theorem WellFormedEdges.normalEdges_eq {id : PermissionId} {edges : List PermissionId}
    (wellFormed : WellFormedEdges id edges) : normalEdges edges = edges := by
  have trimmed : edges.map trim = edges :=
    (List.map_congr_left fun edge member => (wellFormed.trimmed edge member).trim_eq).trans (List.map_id _)
  have present : edges.filter (fun edge => !edge.isEmpty) = edges := by
    rw [List.filter_eq_self]
    intro edge member
    simpa using wellFormed.present edge member
  rw [normalEdges, trimmed, present, eraseDups_of_nodup wellFormed.distinct]

theorem Permission.WellFormed.normalize_eq {permission : Permission} (wellFormed : permission.WellFormed) :
    permission.normalize = permission := by
  rw [normalize, wellFormed.trimmed.trim_eq, wellFormed.dependsOn.normalEdges_eq, wellFormed.implies.normalEdges_eq]

namespace Registry

variable {registry before between after : Registry} {permission normal : Permission} {error : RegistryError}
  {added permissions : List Permission} {id : PermissionId}

/-- Why a permission in normal form may not be added. Each reason counts only where those before it do not. -/
inductive Refuses (registry : Registry) (normal : Permission) : RegistryError → Prop where
  | unnamed (empty : normal.id = "") : Refuses registry normal .emptyId
  | dependsOnItself (named : normal.id ≠ "") (itself : normal.id ∈ normal.dependsOn) :
    Refuses registry normal (.selfDependency normal.id)
  | impliesItself (named : normal.id ≠ "") (independent : normal.id ∉ normal.dependsOn)
    (itself : normal.id ∈ normal.implies) : Refuses registry normal (.selfImplication normal.id)
  | known (named : normal.id ≠ "") (independent : normal.id ∉ normal.dependsOn)
    (unimplied : normal.id ∉ normal.implies) (present : normal.id ∈ registry) :
    Refuses registry normal (.duplicateId normal.id)

theorem accept_eq_error_iff :
    registry.accept permission = .error error ↔ registry.Refuses permission.normalize error := by
  constructor
  · intro refused
    simp only [accept] at refused
    split at refused
    · next empty =>
      cases refused
      exact .unnamed empty
    split at refused
    · next named itself =>
      cases refused
      exact .dependsOnItself named itself
    split at refused
    · next named independent itself =>
      cases refused
      exact .impliesItself named independent itself
    split at refused
    · next named independent unimplied present =>
      cases refused
      exact .known named independent unimplied present
    · cases refused
  · intro refuses
    cases refuses with
    | unnamed empty => simp [accept, empty]
    | dependsOnItself named itself => simp [accept, named, itself]
    | impliesItself named independent itself => simp [accept, named, independent, itself]
    | known named independent unimplied present => simp [accept, named, independent, unimplied, present]

theorem wellFormed_of_accept (accepted : registry.accept permission = .ok normal) : normal.WellFormed := by
  obtain ⟨rfl, named, independent, unimplied, _⟩ := accept_eq_ok_iff.mp accepted
  exact ⟨named, trimmed_trim permission.id, wellFormedEdges_normalEdges independent,
    wellFormedEdges_normalEdges unimplied⟩

theorem perform_register_cases (registry : Registry) (permission : Permission) :
    registry.accept permission = .ok permission.normalize ∧
      (Registration.register permission).perform registry = (.ok (), registry.insert permission.normalize) ∨
    ∃ error, registry.Refuses permission.normalize error ∧
      (Registration.register permission).perform registry = (.error error, registry) := by
  rw [Registration.perform_register]
  cases outcome : registry.accept permission with
  | ok normal =>
    obtain ⟨rfl, _⟩ := accept_eq_ok_iff.mp outcome
    exact .inl ⟨rfl, rfl⟩
  | error error => exact .inr ⟨error, accept_eq_error_iff.mp outcome, rfl⟩

/-- Exactly the normal forms of these permissions have been added, each under an id that was new. -/
structure Adds (before : Registry) (added : List Permission) (after : Registry) : Prop where
  wellFormed : ∀ given ∈ added, given.normalize.WellFormed
  fresh : ∀ given ∈ added, given.normalize.id ∉ before
  distinct : (added.map fun given => given.normalize.id).Nodup
  found : ∀ id permission, after.find? id = some permission ↔
    before.find? id = some permission ∨ ∃ given ∈ added, given.normalize = permission ∧ permission.id = id

theorem Adds.nil (registry : Registry) : registry.Adds [] registry where
  wellFormed := by simp
  fresh := by simp
  distinct := List.nodup_nil
  found := by simp

theorem find?_insert_eq_some_iff (fresh : normal.id ∉ registry) :
    (registry.insert normal).find? id = some permission ↔
      registry.find? id = some permission ∨ normal = permission ∧ permission.id = id := by
  rw [find?_insert]
  by_cases same : normal.id = id
  · subst same
    rw [if_pos rfl, find?_eq_none_iff.mpr fresh]
    simp only [Option.some.injEq, reduceCtorEq, false_or]
    exact ⟨fun equal => ⟨equal, congrArg Permission.id equal.symm⟩, And.left⟩
  · rw [if_neg same]
    constructor
    · exact .inl
    · intro present
      rcases present with present | ⟨rfl, other⟩
      · exact present
      · exact absurd other same

theorem Adds.cons (accepted : before.accept permission = .ok normal) (adds : (before.insert normal).Adds added after) :
    before.Adds (permission :: added) after := by
  have wellFormed := wellFormed_of_accept accepted
  obtain ⟨rfl, _, _, _, fresh⟩ := accept_eq_ok_iff.mp accepted
  refine ⟨?_, ?_, ?_, fun id found => ?_⟩
  · exact List.forall_mem_cons.mpr ⟨wellFormed, adds.wellFormed⟩
  · refine List.forall_mem_cons.mpr ⟨fresh, fun given member present => ?_⟩
    exact adds.fresh given member (mem_insert.mpr (.inr present))
  · refine List.nodup_cons.mpr ⟨fun again => ?_, adds.distinct⟩
    obtain ⟨given, member, same⟩ := List.mem_map.mp again
    exact adds.fresh given member (mem_insert.mpr (.inl same.symm))
  · rw [adds.found, find?_insert_eq_some_iff fresh, or_assoc]
    simp only [List.mem_cons, exists_eq_or_imp]

theorem Adds.kept (adds : before.Adds added after) (present : before.find? id = some permission) :
    after.find? id = some permission :=
  (adds.found id permission).mpr (.inl present)

theorem adds_of_accept (accepted : registry.accept permission = .ok normal) :
    registry.Adds [permission] (registry.insert normal) :=
  .cons accepted (.nil _)

/-- How adding one permission after the other comes out: all are added, or those before the first that is refused,
with the error of that one. -/
inductive BatchOutcome (before : Registry) (permissions : List Permission) :
    Except RegistryError Unit × Registry → Prop where
  | all {after : Registry} (adds : before.Adds permissions after) : BatchOutcome before permissions (.ok (), after)
  | stopped {added later : List Permission} {failing : Permission} {error : RegistryError} {after : Registry}
    (split : permissions = added ++ failing :: later) (adds : before.Adds added after)
    (refuses : after.Refuses failing.normalize error) : BatchOutcome before permissions (.error error, after)

theorem registerAll_outcome (registry : Registry) (permissions : List Permission) :
    registry.BatchOutcome permissions ((Registration.registerAll permissions).perform registry) := by
  induction permissions generalizing registry with
  | nil =>
    rw [Registration.perform_registerAll_nil]
    exact .all (.nil registry)
  | cons permission rest ih =>
    rw [Registration.perform_registerAll_cons]
    cases accepted : registry.accept permission with
    | error error =>
      have split : permission :: rest = [] ++ permission :: rest := rfl
      exact .stopped split (.nil registry) (accept_eq_error_iff.mp accepted)
    | ok normal =>
      have continued := ih (registry.insert normal)
      dsimp only
      generalize (Registration.registerAll rest).perform (registry.insert normal) = result at continued
      cases continued with
      | all adds => exact .all (adds.cons accepted)
      | stopped split adds refuses => exact .stopped (congrArg _ split) (adds.cons accepted) refuses

theorem BatchOutcome.adds {outcome : Except RegistryError Unit × Registry}
    (batch : before.BatchOutcome permissions outcome) : ∃ added, before.Adds added outcome.2 := by
  cases batch with
  | all adds => exact ⟨permissions, adds⟩
  | stopped _ adds _ => exact ⟨_, adds⟩

end Registry

/-- A call that registers permissions. -/
inductive RegistryCall where
  | register (permission : Permission)
  | registerAll (permissions : List Permission)
  | registerProtocol (driver action : String) (permission : Permission)
  | registerCore

def RegistryCall.registration : RegistryCall → Registration Unit
  | register permission => Registration.register permission
  | registerAll permissions => Registration.registerAll permissions
  | registerProtocol driver action permission => Protocol.register driver action permission
  | registerCore => CoreCatalog.register

/-- A protocol's permission is refused for its names, or is registered as any other. -/
theorem Protocol.perform_register_cases (registry : Registry) (driver action : String) (permission : Permission) :
    (∃ reason, (Protocol.register driver action permission).perform registry =
      (.error (.invalidProtocolPermission reason), registry)) ∨
    (Protocol.register driver action permission).perform registry =
      (Registration.register (permissionFor (trim driver) (trim action) permission)).perform registry := by
  unfold Protocol.register
  by_cases noDriver : trim driver = ""
  · rw [if_pos noDriver]
    exact .inl ⟨_, rfl⟩
  by_cases noAction : trim action = ""
  · rw [if_neg noDriver, if_pos noAction]
    exact .inl ⟨_, rfl⟩
  · rw [if_neg noDriver, if_neg noAction]
    exact .inr rfl

namespace Registry

variable {registry before after : Registry} {added : List Permission}

def step (registry : Registry) (call : RegistryCall) : Registry :=
  (call.registration.perform registry).2

/-- The registry after these calls. One that fails does not keep the others from being made. -/
def afterCalls (registry : Registry) (calls : List RegistryCall) : Registry :=
  calls.foldl step registry

theorem register_adds (registry : Registry) (permission : Permission) :
    ∃ added, registry.Adds added ((Registration.register permission).perform registry).2 := by
  rcases perform_register_cases registry permission with ⟨accepted, done⟩ | ⟨error, _, done⟩
  · exact ⟨[permission], done ▸ adds_of_accept accepted⟩
  · exact ⟨[], done ▸ .nil registry⟩

/-- Whatever is called, permissions are added and nothing else happens. -/
theorem step_adds (registry : Registry) (call : RegistryCall) : ∃ added, registry.Adds added (registry.step call) := by
  cases call with
  | register permission => exact registry.register_adds permission
  | registerAll permissions => exact (registry.registerAll_outcome permissions).adds
  | registerProtocol driver action permission =>
    rcases Protocol.perform_register_cases registry driver action permission with ⟨reason, done⟩ | done
    · exact ⟨[], by rw [step, RegistryCall.registration, done]; exact .nil registry⟩
    · obtain ⟨added, adds⟩ := registry.register_adds (Protocol.permissionFor (trim driver) (trim action) permission)
      exact ⟨added, by rw [step, RegistryCall.registration, done]; exact adds⟩
  | registerCore => exact (registry.registerAll_outcome CoreCatalog.permissions).adds

structure WellFormed (registry : Registry) : Prop where
  ownId : ∀ id permission, registry.find? id = some permission → permission.id = id
  permissions : ∀ id permission, registry.find? id = some permission → permission.WellFormed

theorem wellFormed_empty : WellFormed empty where
  ownId := by simp [find?, empty]
  permissions := by simp [find?, empty]

theorem Adds.keeps_wellFormed (adds : before.Adds added after) (wellFormed : before.WellFormed) : after.WellFormed where
  ownId id permission present := by
    rcases (adds.found id permission).mp present with old | ⟨_, _, _, same⟩
    · exact wellFormed.ownId id permission old
    · exact same
  permissions id permission present := by
    rcases (adds.found id permission).mp present with old | ⟨given, member, rfl, _⟩
    · exact wellFormed.permissions id permission old
    · exact adds.wellFormed given member

theorem afterCalls_wellFormed (wellFormed : registry.WellFormed) (calls : List RegistryCall) :
    (registry.afterCalls calls).WellFormed := by
  induction calls generalizing registry with
  | nil => exact wellFormed
  | cons call rest ih =>
    obtain ⟨_, adds⟩ := registry.step_adds call
    exact ih (adds.keeps_wellFormed wellFormed)

theorem perform_register_eq_error_iff {permission : Permission} {error : RegistryError} :
    (Registration.register permission).perform registry = (.error error, after) ↔
      after = registry ∧ registry.Refuses permission.normalize error := by
  rw [← accept_eq_error_iff, Registration.perform_register]
  cases registry.accept permission with
  | ok normal => simp
  | error _ => simp [eq_comm, and_comm]

theorem perform_registerProtocol_error {driver action : String} {permission : Permission} {error : RegistryError}
    (failed : (Protocol.register driver action permission).perform registry = (.error error, after)) :
    after = registry := by
  rcases Protocol.perform_register_cases registry driver action permission with ⟨reason, done⟩ | done
  · exact (congrArg Prod.snd (failed.symm.trans done)).trans rfl
  · exact (perform_register_eq_error_iff.mp (done.symm.trans failed)).1

/-- Every run of calls gives a well-formed registry, in which all that was registered stays as it was. A single
permission is refused for the first reason there is, and with no effect; of several, those before the first that is
refused are added. -/
theorem registrations_only_add :
    (∀ calls, (empty.afterCalls calls).WellFormed) ∧
    (∀ registry call id permission, Registry.find? registry id = some permission →
      (registry.step call).find? id = some permission) ∧
    (∀ registry permission error after,
      (Registration.register permission).perform registry = (.error error, after) ↔
        after = registry ∧ registry.Refuses permission.normalize error) ∧
    (∀ registry driver action permission error after,
      (Protocol.register driver action permission).perform registry = (.error error, after) → after = registry) ∧
    (∀ registry permissions,
      Registry.BatchOutcome registry permissions ((Registration.registerAll permissions).perform registry)) ∧
    ∀ registry, Registry.BatchOutcome registry CoreCatalog.permissions (CoreCatalog.register.perform registry) := by
  refine ⟨afterCalls_wellFormed wellFormed_empty, ?_, ?_, ?_, ?_, ?_⟩
  · intro registry call id permission present
    obtain ⟨_, adds⟩ := registry.step_adds call
    exact adds.kept present
  · exact fun registry permission error after => perform_register_eq_error_iff
  · exact fun registry driver action permission error after => perform_registerProtocol_error
  · exact registerAll_outcome
  · exact fun registry => registry.registerAll_outcome CoreCatalog.permissions

/-- Written with white space around it, and with an edge that is the same twice. -/
def padded : Permission :=
  { id := " edit\u00a0", moduleName := "docs", dependsOn := ["read ", "\u2003", "\tread"] }

/-- The second has the id of `padded`. -/
def imported : List Permission :=
  [{ id := "read", moduleName := "docs" }, { id := "edit ", moduleName := "mail" },
    { id := "share", moduleName := "docs" }]

theorem imported_up_to_duplicate :
    let registry := empty.afterCalls [.register padded, .registerAll imported]
    registry.WellFormed ∧ registry.ids = ["edit", "read"] ∧
      registry.find? "edit" = some { id := "edit", moduleName := "docs", dependsOn := ["read"] } ∧
      (Registration.register { id := "edit ", moduleName := "mail" }).perform registry =
        (.error (.duplicateId "edit"), registry) ∧
      (Protocol.register "ssh" " " padded).perform registry =
        (.error (.invalidProtocolPermission "action for driver ssh must not be empty"), registry) := by
  obtain ⟨wellFormed, kept, refused, unchanged, _⟩ := registrations_only_add
  have first : (empty.afterCalls [.register padded]).find? "edit" =
      some { id := "edit", moduleName := "docs", dependsOn := ["read"] } := by decide
  refine ⟨wellFormed _, by decide, kept _ (.registerAll imported) _ _ first, ?_, ?_⟩
  · refine (refused _ _ _ _).mpr ⟨rfl, ?_⟩
    exact .known (by decide) (by decide) (by decide) (by decide)
  · have failed : ((Protocol.register "ssh" " " padded).perform
        (empty.afterCalls [.register padded, .registerAll imported])).1 =
          .error (.invalidProtocolPermission "action for driver ssh must not be empty") := rfl
    exact Prod.ext failed (unchanged _ "ssh" " " padded _ _ (Prod.ext failed rfl))

end Registry

end AccessControl
