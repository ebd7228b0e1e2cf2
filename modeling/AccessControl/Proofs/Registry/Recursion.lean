import AccessControl.Proofs.Registry.Resolution

/-!
The search for dependencies by recursion. What a recursion keeps by itself the walk keeps on its path: while it looks
at the dependencies of the permission on top it does what the recursion does with them, and then stands where it stood.
So both list the same in the same order, and of several faults both meet the same one first.
-/

namespace AccessControl

namespace Registry

variable {registry : Registry} {id : PermissionId} {path : List PermissionId}

/-- The registered permissions that are not on the path. -/
def beyond (registry : Registry) (path : List PermissionId) : List PermissionId :=
  registry.ids.filter fun id => id ∉ path

theorem beyond_cons_lt (registered : id ∈ registry) (offPath : id ∉ path) :
    (registry.beyond (id :: path)).length < (registry.beyond path).length := by
  refine length_filter_lt_of_imp (a := id) (fun other _ beyond => ?_) (mem_ids.mpr registered) ?_ ?_
  · simp only [List.mem_cons, not_or, decide_eq_true_eq] at beyond ⊢
    exact beyond.2
  · simpa using offPath
  · simp

/-- Searches depth first through the dependencies of the permission that the path ends in, the path being given from
there back to the origin. A dependency is listed when all that it depends on has been, and then it is finished. -/
def search (registry : Registry) (path entries listed : List PermissionId) :
    Except RegistryError (List PermissionId) :=
  match entries with
  | [] => .ok listed
  | entry :: rest =>
    if entry ∈ path then .error (.circularDependency entry)
    else if entry ∈ listed then registry.search path rest listed
    else if entry ∈ registry then do
      let below ← registry.search (entry :: path) (registry.dependencies entry) listed
      registry.search path rest (below ++ [entry])
    else .error (.unknownPermission entry)
termination_by ((registry.beyond path).length, entries.length)
decreasing_by
  · exact .right _ (Nat.lt_succ_self _)
  · exact .left _ _ (beyond_cons_lt ‹_› ‹_›)
  · exact .right _ (Nat.lt_succ_self _)

def searchFrom (registry : Registry) (id : PermissionId) : Except RegistryError (List PermissionId) :=
  if id ∈ registry then registry.search [id] (registry.dependencies id) []
  else .error (.unknownPermission id)

end Registry

namespace DependencyWalk

variable {registry : Registry} {origin permission entry : PermissionId} {walk next : DependencyWalk} {rest : List Frame}
  {ahead path listed : List PermissionId} {outcome : Except RegistryError (List PermissionId)}

theorem run_leave (top : walk.path = ⟨permission, []⟩ :: rest) :
    walk.run registry = (walk.leave permission rest).run registry :=
  run_of_step (step_eq_some_iff.mpr (.inl ⟨permission, rest, top, rfl⟩))

theorem run_skip (top : walk.path = ⟨permission, entry :: ahead⟩ :: rest) (offPath : entry ∉ walk.onPath)
    (finished : entry ∈ walk.finished) :
    walk.run registry = run registry { walk with path := ⟨permission, ahead⟩ :: rest } :=
  run_of_step (step_eq_some_iff.mpr (.inr ⟨permission, entry, ahead, rest, top, offPath, .inl ⟨finished, rfl⟩⟩))

theorem run_enter (top : walk.path = ⟨permission, entry :: ahead⟩ :: rest) (offPath : entry ∉ walk.onPath)
    (unfinished : entry ∉ walk.finished) (registered : entry ∈ registry) :
    walk.run registry = (walk.enter registry entry (⟨permission, ahead⟩ :: rest)).run registry :=
  run_of_step (step_eq_some_iff.mpr
    (.inr ⟨permission, entry, ahead, rest, top, offPath, .inr ⟨unfinished, registered, rfl⟩⟩))

theorem run_cyclic (top : walk.path = ⟨permission, entry :: ahead⟩ :: rest) (onPath : entry ∈ walk.onPath) :
    walk.run registry = .error (.circularDependency entry) :=
  run_of_error (step_eq_error_iff.mpr ⟨permission, entry, ahead, rest, top, .inl ⟨onPath, rfl⟩⟩)

theorem run_unknown (top : walk.path = ⟨permission, entry :: ahead⟩ :: rest) (offPath : entry ∉ walk.onPath)
    (unfinished : entry ∉ walk.finished) (missing : entry ∉ registry) :
    walk.run registry = .error (.unknownPermission entry) :=
  run_of_error (step_eq_error_iff.mpr
    ⟨permission, entry, ahead, rest, top, .inr ⟨offPath, unfinished, missing, rfl⟩⟩)

/-- The walk comes to what a search comes to: it stops at the fault that the search reports, or it reaches the end of the
dependencies of the permission on top, with what the search lists resolved and all below as it was. -/
inductive Mirrors (registry : Registry) (origin permission : PermissionId) (rest : List Frame) (walk : DependencyWalk) :
    Except RegistryError (List PermissionId) → Prop where
  | stopped {error : RegistryError} (same : walk.run registry = .error error) :
    Mirrors registry origin permission rest walk (.error error)
  | arrived {after : DependencyWalk} (sound : Sound registry origin after) (top : after.path = ⟨permission, []⟩ :: rest)
    (same : walk.run registry = after.run registry) :
    Mirrors registry origin permission rest walk (.ok after.resolved.reverse)

theorem Mirrors.of_run_eq (same : walk.run registry = next.run registry)
    (mirrors : Mirrors registry origin permission rest next outcome) :
    Mirrors registry origin permission rest walk outcome := by
  cases mirrors with
  | stopped fault => exact .stopped (same.trans fault)
  | arrived sound top continued => exact .arrived sound top (same.trans continued)

/-- While the origin is on the path, just what has been listed is finished. -/
theorem Sound.mem_finished_iff {frame : Frame} {id : PermissionId} (sound : Sound registry origin walk)
    (top : walk.path = frame :: rest) : id ∈ walk.finished ↔ id ∈ walk.resolved.reverse := by
  rw [sound.finished, left_of_path top, List.mem_reverse]

/-- The induction follows the search. Where the search calls itself for a permission, the walk enters that permission,
does what the call does with the present frame below, and leaves. -/
theorem Sound.mirrors_search (sound : Sound registry origin walk) (top : walk.path = ⟨permission, ahead⟩ :: rest)
    (samePath : path = walk.path.map Frame.permission) (sameList : listed = walk.resolved.reverse) :
    Mirrors registry origin permission rest walk (registry.search path ahead listed) := by
  induction path, ahead, listed using Registry.search.induct registry generalizing walk permission rest with
  | case1 path listed =>
    subst sameList
    rw [Registry.search]
    exact .arrived sound top rfl
  | case2 path listed entry ahead entered =>
    rw [Registry.search, if_pos entered]
    exact .stopped (run_cyclic top ((sound.onPath entry).mpr (samePath ▸ entered)))
  | case3 path listed entry ahead notEntered done skip =>
    rw [Registry.search, if_neg notEntered, if_pos done]
    have offPath := mt (sound.onPath entry).mp (samePath ▸ notEntered)
    have finished := (sound.mem_finished_iff top).mpr (sameList ▸ done)
    refine .of_run_eq (run_skip top offPath finished) (skip (sound.skip top finished) rfl ?_ sameList)
    simp [samePath, top]
  | case4 path listed entry ahead notEntered undone registered enter resume =>
    rw [Registry.search, if_neg notEntered, if_neg undone, if_pos registered]
    have offPath := mt (sound.onPath entry).mp (samePath ▸ notEntered)
    have unfinished := mt (sound.mem_finished_iff top).mp (sameList ▸ undone)
    refine .of_run_eq (run_enter top offPath unfinished registered) ?_
    have call := enter (sound.enter top offPath unfinished registered) rfl
      (by simp [DependencyWalk.enter, samePath, top]) sameList
    generalize registry.search (entry :: path) (registry.dependencies entry) listed = outcome at call
    cases call with
    | stopped same => exact .stopped same
    | @arrived after soundAfter topAfter same =>
      refine .of_run_eq (same.trans (run_leave topAfter)) ?_
      refine resume after.resolved.reverse (soundAfter.leave topAfter) rfl ?_ ?_
      · simp [DependencyWalk.leave, samePath, top]
      · simp [DependencyWalk.leave]
  | case5 path listed entry ahead notEntered undone missing =>
    rw [Registry.search, if_neg notEntered, if_neg undone, if_neg missing]
    have offPath := mt (sound.onPath entry).mp (samePath ▸ notEntered)
    have unfinished := mt (sound.mem_finished_iff top).mp (sameList ▸ undone)
    exact .stopped (run_unknown top offPath unfinished missing)

end DependencyWalk

/-- Dependencies are resolved as a recursive search would: the same list in the same order, or the same fault. -/
theorem Registry.resolves_like_recursion (registry : Registry) (id : PermissionId) :
    registry.resolveDependencies id = registry.searchFrom id := by
  unfold resolveDependencies searchFrom
  by_cases registered : id ∈ registry
  · rw [if_pos registered, if_pos registered]
    have mirrors : DependencyWalk.Mirrors registry id id [] (DependencyWalk.start registry id)
        (registry.search [id] (registry.dependencies id) []) :=
      (DependencyWalk.start_sound registered).mirrors_search rfl rfl rfl
    generalize registry.search [id] (registry.dependencies id) [] = outcome at mirrors ⊢
    cases mirrors with
    | stopped same => exact same
    | arrived sound top same =>
      rw [same, DependencyWalk.run_leave top, DependencyWalk.run_of_end (DependencyWalk.step_eq_none_iff.mpr rfl)]
      rfl
  · rw [if_neg registered, if_neg registered]

/-- What two permissions depend on in common is listed before both, and once. -/
example :
    ((((Registry.empty.insert { id := "base", moduleName := "docs" }).insert
      { id := "left", moduleName := "docs", dependsOn := ["base"] }).insert
      { id := "right", moduleName := "docs", dependsOn := ["base"] }).insert
      { id := "top", moduleName := "docs", dependsOn := ["left", "right"] }).searchFrom "top" =
      .ok ["base", "left", "right"] := by
  cbv

end AccessControl
