import AccessControl.Proofs.Access.Growth
import AccessControl.Proofs.Access.Standing

namespace AccessControl

open Std Function

namespace Registry

variable {registry : Registry} {permission : PermissionId} {dependencies : List PermissionId}

/-- None is listed twice, and each comes after those of its requirements that are listed. -/
structure Listed (registry : Registry) (ids : List PermissionId) : Prop where
  nodup : ids.Nodup
  ordered : ∀ before id after, ids = before ++ id :: after →
    ∀ target ∈ ids, target ∈ registry.requirements id → target ∈ before

theorem listed_filter (resolved : registry.resolveDependencies permission = .ok dependencies)
    (keep : PermissionId → Bool) : registry.Listed (dependencies.filter keep) := by
  refine ⟨(resolveDependencies_nodup resolved).filter keep, fun before id after split target member required => ?_⟩
  obtain ⟨first, second, rfl, rfl, rest⟩ := List.filter_eq_append_iff.mp split
  obtain ⟨dropped, later, rfl, none, -, -⟩ := List.filter_eq_cons_iff.mp rest
  have kept : keep target = true := (List.mem_filter.mp member).2
  rw [← List.append_assoc] at resolved
  rcases List.mem_append.mp (resolveDependencies_before resolved required) with listed | omitted
  · exact List.mem_filter.mpr ⟨listed, kept⟩
  · exact absurd kept (none target omitted)

end Registry

namespace Checker

variable {checker : Checker} {grants : UserGrants} {user : UserId} {permission : PermissionId}
  {dependencies : List PermissionId} {decision : Decision}

theorem decide_held (notRoot : grants.isRoot = false) (verified : grants.verificationPending = false)
    (resolved : checker.registry.resolveDependencies permission = .ok dependencies)
    (held : permission ∈ grants.permissions) :
    checker.decide grants permission = .ok (.ofMissing permission (grants.missing dependencies)) := by
  have holds : grants.holds permission = true := by simpa [UserGrants.holds] using held
  rw [decide_resolved notRoot resolved, if_neg (by simp [verified]), if_pos holds]

/-- Something is said to be missing only to one who holds the permission itself. -/
theorem decide_lacking (decided : checker.decide grants permission = .ok decision)
    (lacking : decision.reason = .missingDependencies) :
    grants.isRoot = false ∧ grants.verificationPending = false ∧ permission ∈ grants.permissions ∧
      ∃ dependencies, checker.registry.resolveDependencies permission = .ok dependencies ∧
        decision.missing = grants.missing dependencies ∧ decision.missing ≠ [] := by
  cases isRoot : grants.isRoot with
  | true =>
    rw [decide_root isRoot] at decided
    cases decided
    cases lacking
  | false =>
    obtain ⟨dependencies, resolved⟩ := Registry.resolvable_iff.mp (resolvable_of_decide isRoot decided)
    rw [decide_resolved isRoot resolved] at decided
    split at decided
    · cases decided
      cases lacking
    · next verified =>
      split at decided
      · next holds =>
        cases decided
        refine ⟨rfl, by simpa using verified, by simpa [UserGrants.holds] using holds, dependencies, resolved,
          Decision.missing_ofMissing, ?_⟩
        rw [Decision.missing_ofMissing]
        exact Decision.reason_ofMissing_iff.mp lacking
      · cases decided
        cases lacking

end Checker

/-- The writes that make a new role and give it to a user. -/
def Store.confer (user : UserId) (role : RoleId) (granted : List PermissionId) : List Write :=
  [.addRole role granted, .assignRole user role]

theorem Store.confer_of_perform [Store σ] {store made assigned : σ} {user : UserId} {role : RoleId}
    {granted : List PermissionId} (first : (write (.addRole role granted)).perform store = (.ok .done, made))
    (second : (write (.assignRole user role)).perform made = (.ok .done, assigned)) :
    receipts store (confer user role granted) = [some .done, some .done] ∧
      after store (confer user role granted) = assigned := by
  have stepped : step store (.addRole role granted) = made := congrArg Prod.snd first
  constructor
  · simp [confer, receipts, receipt, stepped, first, second, Except.toOption]
  · rw [confer, after, List.foldl_cons, List.foldl_cons, List.foldl_nil, stepped]
    exact congrArg Prod.snd second

namespace Directory

variable {directory : Directory} {user : UserId} {role : RoleId}
  {granted : List PermissionId}

def confer (directory : Directory) (user : UserId) (role : RoleId) (granted : List PermissionId) : Directory :=
  { directory with
    permissions := update directory.permissions role (.ofList granted)
    roles := update directory.roles user ((directory.roles user).insert role) }

/-- Others may have been given the role before it was there; what it gave them was nothing. -/
theorem held_confer (unused : directory.permissions role = ∅) (id : PermissionId) :
    (∃ given, (directory.confer user role granted).Carries user given ∧
        id ∈ (directory.confer user role granted).permissions given) ↔
      (∃ given, directory.Carries user given ∧ id ∈ directory.permissions given) ∨ id ∈ granted := by
  have carries : ∀ given, (directory.confer user role granted).Carries user given ↔
      given = role ∨ directory.Carries user given := by
    intro given
    simp [Carries, confer, or_assoc, @eq_comm _ role given]
  constructor
  · rintro ⟨given, carried, gives⟩
    by_cases same : given = role
    · subst same
      exact .inr (by simpa [confer] using gives)
    · refine .inl ⟨given, ((carries given).mp carried).resolve_left same, ?_⟩
      simpa [confer, same] using gives
  · rintro (⟨given, carried, gives⟩ | new)
    · have other : given ≠ role := by
        rintro rfl
        simp [unused] at gives
      exact ⟨given, (carries given).mpr (.inr carried), by simpa [confer, other] using gives⟩
    · exact ⟨role, (carries role).mpr (.inl rfl), by simpa [confer] using new⟩

end Directory

namespace StoreFacts

variable {facts later : StoreFacts} {directory : Directory} {user : UserId} {role : RoleId}
  {granted : List PermissionId} {principal : Principal} {enforced : Bool}

/-- All that is another for the user is that more is held. -/
theorem Follows.confer (follows : facts.Follows directory)
    (laterFollows : later.Follows (directory.confer user role granted))
    (unused : directory.permissions role = ∅) (present : facts.principal user = some principal) :
    ∃ after, later.principal user = some after ∧ after.isRoot = principal.isRoot ∧
      (later.Pending enforced after ↔ facts.Pending enforced principal) ∧
      after.permissions = principal.permissions ∪ {id | id ∈ granted} := by
  have account := follows.account present
  have still : (directory.confer user role granted).account user = some ⟨principal.isRoot, principal.provider⟩ :=
    account
  obtain ⟨after, stillPresent⟩ := laterFollows.present still
  have same : (⟨after.isRoot, after.provider⟩ : Account) = ⟨principal.isRoot, principal.provider⟩ :=
    Option.some.inj ((laterFollows.account stillPresent).symm.trans account)
  obtain ⟨sameRoot, sameProvider⟩ := Account.mk.inj same
  refine ⟨after, stillPresent, sameRoot, ?_, Set.ext fun id => ?_⟩
  · rw [Pending, Pending, sameProvider, laterFollows.verificationRequired, follows.verificationRequired,
      laterFollows.userId stillPresent, follows.userId present, laterFollows.verification, follows.verification]
    rfl
  · rw [laterFollows.mem_permissions stillPresent, Directory.held_confer unused, Set.mem_union,
      follows.mem_permissions present]
    rfl

end StoreFacts

namespace MemoryStore

variable {store : MemoryStore} {user : UserId} {role : RoleId} {granted : List PermissionId}

theorem permissions_of_unused (unused : role ∉ store.roles) : store.directory.permissions role = ∅ := by
  simp [directory, ExtTreeMap.getElem?_eq_none unused]

theorem confer_taken {stored : StoredUser} (found : store.users[user]? = some stored) :
    Store.receipts store (Store.confer user role granted) = [some .done, some .done] ∧
      (Store.after store (Store.confer user role granted)).directory = store.directory.confer user role granted := by
  let made : MemoryStore := { store with roles := store.roles.insert role ⟨role, .ofList granted⟩ }
  have assigned : (write (.assignRole user role)).perform made = (.ok .done, { made with
      users := made.users.insert user { stored with roles := stored.roles.insert role } }) := by
    rw [perform_assignRole]
    simp [made, found]
  obtain ⟨taken, same⟩ := Store.confer_of_perform (store.perform_addRole granted) assigned
  refine ⟨taken, ?_⟩
  rw [same, directory_putUser, directory_putRole]
  simp [Directory.confer, directory, found, StoredUser.account]

end MemoryStore

namespace Database

variable {tables : Database} {user : UserId} {role : RoleId} {granted : List PermissionId}

theorem Referential.permissions_of_unused (referential : tables.Referential) (unused : role ∉ tables.roles) :
    tables.directory.permissions role = ∅ := by
  refine ExtTreeSet.ext_mem fun id => ?_
  simp only [ExtTreeSet.not_mem_empty, iff_false]
  intro member
  obtain ⟨row, stored, rfl, -⟩ := mem_owned.mp member
  exact unused (referential.rolePermissions row stored)

theorem confer_taken (present : user ∈ tables.users) :
    Store.receipts tables (Store.confer user role granted) = [some .done, some .done] ∧
      (Store.after tables (Store.confer user role granted)).directory = tables.directory.confer user role granted := by
  let made : Database := { tables with
    roles := tables.roles.insertIfNew role role
    rolePermissions := replacePermissions tables.rolePermissions role granted }
  have assigned : (write (.assignRole user role)).perform made =
      (.ok .done, { made with userRoles := made.userRoles.insert ⟨user, role⟩ }) := by
    rw [perform_assignRole]
    exact if_pos ⟨present, ExtTreeMap.mem_insertIfNew_self⟩
  obtain ⟨taken, same⟩ := Store.confer_of_perform (tables.perform_addRole granted) assigned
  refine ⟨taken, ?_⟩
  rw [same]
  unfold directory Directory.confer
  congr 1
  · exact owned_insert (⟨user, role⟩ : UserRole)
  · exact owned_replacePermissions _ _ _

end Database

/-- The user may do something, and holds the permission, but of what it depends on these are missing. -/
structure StoreFacts.Lacks (facts : StoreFacts) (registry : Registry) (enforced : Bool) (principal : Principal)
    (permission : PermissionId) (missing : List PermissionId) : Prop where
  notRoot : principal.isRoot = false
  verified : ¬ facts.Pending enforced principal
  known : ∀ id ∈ registry.impliedBy principal.permissions, id ∈ registry
  resolvable : registry.Resolvable permission
  held : permission ∈ registry.impliedBy principal.permissions
  mem_iff : ∀ id, id ∈ missing ↔ id ∈ registry.requirements permission ∧ id ∉ registry.impliedBy principal.permissions

namespace Checker

variable {checker : Checker} {facts : StoreFacts} {times : ReadTimes} {user : UserId} {permission : PermissionId}
  {decision : Decision}

theorem given_of_explain (answered : checker.explain user permission = .ok decision) :
    Given (globalArguments user permission) := by
  by_contra blank
  obtain ⟨field, refused⟩ := checker.explain_of_blank blank
  cases refused.symm.trans answered

theorem mem_missing {grants : UserGrants} {required : List PermissionId} {id : PermissionId} :
    id ∈ grants.missing required ↔ id ∈ required ∧ id ∉ grants.permissions := by
  simp [UserGrants.missing, UserGrants.holds]

theorem lacks_of_explain (tells : checker.source.Tells facts times) (inTime : checker.InTime times)
    (answered : checker.explain user permission = .ok decision) (lacking : decision.reason = .missingDependencies) :
    decision.missing ≠ [] ∧ checker.registry.Listed decision.missing ∧
      ∃ principal, facts.principal user = some principal ∧
        facts.Lacks checker.registry checker.config.enforceVerification principal permission decision.missing := by
  obtain ⟨outcome, shape, decided⟩ := explain_eq_ok tells inTime answered
  cases shape with
  | missing => cases decided
  | unknown => cases decided
  | root =>
    rw [decideLoaded_ok] at decided
    cases (decide_lacking decided lacking).1
  | pending =>
    rw [decideLoaded_ok] at decided
    cases (decide_lacking decided lacking).2.1
  | @granted principal permissions present notRoot verified closure registered =>
    rw [decideLoaded_ok] at decided
    obtain ⟨-, -, held, dependencies, resolved, missing, nonempty⟩ := decide_lacking decided lacking
    obtain ⟨-, requirements, resolvable⟩ := Registry.resolveDependencies_eq_ok resolved
    have closure : ∀ id, id ∈ permissions ↔ id ∈ checker.registry.impliedBy principal.permissions := by
      simpa using closure
    refine ⟨nonempty, missing ▸ Registry.listed_filter resolved _, principal, present, notRoot, verified,
      fun id implied => registered id ((closure id).mpr implied), resolvable, (closure permission).mp held,
      fun id => ?_⟩
    rw [missing, mem_missing, requirements id]
    exact and_congr_right fun _ => not_congr (closure id)

end Checker

namespace Store

open DirectoryStore

open Checker (Given globalArguments)

variable [Store σ] [DirectoryStore σ] {store later : σ} {registry : Registry} {config : CheckerConfig} {user : UserId}
  {role : RoleId} {permission : PermissionId} {missing granted : List PermissionId} {principal : Principal}

/-- Of what was missing only that is left which the new role does not imply, and that decides. -/
theorem explain_conferred (safe : registry.Safe) (given : Given (globalArguments user permission))
    (present : (facts store).principal user = some principal)
    (lacks : (facts store).Lacks registry config.enforceVerification principal permission missing)
    (sound : Sound store) (laterSound : Sound later) (unused : (directory store).permissions role = ∅)
    (conferred : directory later = (directory store).confer user role granted)
    (registered : ∀ id ∈ granted, id ∈ registry) :
    ∃ left, (∀ id, id ∈ left ↔ id ∈ missing ∧ id ∉ registry.impliedBy {id | id ∈ granted}) ∧
      (Checker.on registry config later).explain user permission = .ok (.ofMissing permission left) := by
  obtain ⟨after, stillPresent, sameRoot, samePending, held⟩ :=
    (follows store sound).confer (conferred ▸ follows later laterSound) unused present
  have notRoot : after.isRoot = false := sameRoot.trans lacks.notRoot
  have verified : ¬ (facts later).Pending config.enforceVerification after :=
    fun pending => lacks.verified (samePending.mp pending)
  obtain ⟨dependencies, resolved⟩ := Registry.resolvable_iff.mp lacks.resolvable
  have requirements := (Registry.resolveDependencies_eq_ok resolved).2.1
  obtain ⟨outcome, shape, result⟩ := Checker.explain_outcome (gives later).tells
    (Checker.inTime_on registry config later) given
  have loaded := shape.eq_granted stillPresent notRoot verified
  simp only [Set.union_empty, held, Registry.impliedBy_union] at loaded
  rcases loaded with ⟨permissions, rfl, closure, -⟩ | ⟨culprit, implied, unknown, -⟩
  · have holds : permission ∈ permissions := (closure permission).mpr (.inl lacks.held)
    have decided : (Checker.on registry config later).decide (.granted user after.teamIds permissions) permission = _ :=
      Checker.decide_held rfl rfl resolved holds
    refine ⟨_, fun id => ?_, result.trans (Checker.decideLoaded_ok.trans decided)⟩
    rw [Checker.mem_missing, lacks.mem_iff, requirements id, and_assoc, ← not_or]
    exact and_congr_right fun _ => not_congr (closure id)
  · rcases implied with before | new
    · exact absurd (lacks.known culprit before) unknown
    · exact absurd (safe.mem_of_implied registered new) unknown

/-- A list of missing permissions says just what to grant; `unused` are the roles that are not in the store yet. -/
structure Remedies (registry : Registry) (config : CheckerConfig) (store : σ) (unused : RoleId → Prop) (user : UserId)
    (permission : PermissionId) (missing : List PermissionId) : Prop where
  nonempty : missing ≠ []
  listed : registry.Listed missing
  registered : ∀ id ∈ missing, id ∈ registry
  taken : ∀ role granted, unused role → receipts store (confer user role granted) = [some .done, some .done]
  allowed_iff : ∀ role granted, unused role → (∀ id ∈ granted, id ∈ registry) → ∃ decision,
    (Checker.on registry config (after store (confer user role granted))).explain user permission = .ok decision ∧
      (decision.allowed = true ↔ ∀ id ∈ missing, id ∈ registry.impliedBy {id | id ∈ granted})
  sufficient : ∀ role, unused role →
    (Checker.on registry config (after store (confer user role missing))).explain user permission =
      .ok (.of permission .granted)
  necessary : ∀ role granted, unused role → (∀ id ∈ granted, id ∈ registry) →
    ∀ id ∈ missing, id ∉ registry.impliedBy {id | id ∈ granted} → ∃ left,
      (Checker.on registry config (after store (confer user role granted))).explain user permission =
        .ok (.missingDependencies permission left) ∧ id ∈ left

theorem remedies_of_explain {decision : Decision} {new : RoleId → Prop} (safe : registry.Safe) (sound : Sound store)
    (answered : (Checker.on registry config store).explain user permission = .ok decision)
    (lacking : decision.reason = .missingDependencies)
    (unused : ∀ role, new role → (directory store).permissions role = ∅)
    (taken : ∀ principal, (facts store).principal user = some principal → ∀ role granted,
      receipts store (confer user role granted) = [some .done, some .done] ∧
        directory (after store (confer user role granted)) = (directory store).confer user role granted) :
    Remedies registry config store new user permission decision.missing := by
  have given := Checker.given_of_explain answered
  obtain ⟨nonempty, listed, principal, present, lacks⟩ :=
    Checker.lacks_of_explain (gives store).tells (Checker.inTime_on registry config store) answered lacking
  have required : ∀ id ∈ decision.missing, id ∈ registry :=
    fun id member => lacks.resolvable.requirements id ((lacks.mem_iff id).mp member).1
  -- What any new role of registered permissions leaves missing, all in one.
  have explained : ∀ role granted, new role → (∀ id ∈ granted, id ∈ registry) → ∃ left,
      (∀ id, id ∈ left ↔ id ∈ decision.missing ∧ id ∉ registry.impliedBy {id | id ∈ granted}) ∧
        (Checker.on registry config (after store (confer user role granted))).explain user permission =
          .ok (.ofMissing permission left) := by
    intro role granted isNew registered
    have laterSound : Sound (after store (confer user role granted)) :=
      after_keeps (fun change _ store => sound_step store change) sound
    exact explain_conferred safe given present lacks sound laterSound (unused role isNew)
      (taken principal present role granted).2 registered
  refine ⟨nonempty, listed, required, fun role granted _ => (taken principal present role granted).1, ?_, ?_, ?_⟩
  · intro role granted isNew registered
    obtain ⟨left, members, result⟩ := explained role granted isNew registered
    refine ⟨_, result, ?_⟩
    rw [Decision.allowed_ofMissing_iff, List.eq_nil_iff_forall_not_mem]
    simp only [members, not_and, not_not]
  · intro role isNew
    obtain ⟨left, members, result⟩ := explained role decision.missing isNew required
    have nothing : left = [] :=
      List.eq_nil_iff_forall_not_mem.mpr fun id member =>
        ((members id).mp member).2 (Registry.subset_impliedBy ((members id).mp member).1)
    rw [result, nothing]
    rfl
  · intro role granted isNew registered id member omitted
    obtain ⟨left, members, result⟩ := explained role granted isNew registered
    have still : id ∈ left := (members id).mpr ⟨member, omitted⟩
    refine ⟨left, result.trans ?_, still⟩
    rw [Decision.ofMissing, if_neg (by simpa using List.ne_nil_of_mem still)]

/-- What an explanation names as missing is enough to grant, none of it can be spared, and each of it is named after
what it depends on itself. -/
theorem missing_remedied (registry : Registry) (valid : registry.validateGraph = .ok ()) (config : CheckerConfig)
    (user : UserId) (permission : PermissionId) (decision : Decision)
    (lacking : decision.reason = .missingDependencies) :
    (∀ store : MemoryStore, (Checker.on registry config store).explain user permission = .ok decision →
      Remedies registry config store (fun role => role ∉ store.roles) user permission decision.missing) ∧
    ∀ tables : Database, tables.Referential →
      (Checker.on registry config tables).explain user permission = .ok decision →
      Remedies registry config tables (fun role => role ∉ tables.roles) user permission decision.missing := by
  have safe := Registry.validateGraph_eq_ok_iff.mp valid
  constructor
  · intro store answered
    refine remedies_of_explain safe trivial answered lacking (fun _ => MemoryStore.permissions_of_unused) ?_
    intro principal present role granted
    cases found : store.users[user]? with
    | none => simp [facts, MemoryStore.facts, MemoryStore.loadPrincipal, found] at present
    | some stored => exact MemoryStore.confer_taken found
  · intro tables referential answered
    refine remedies_of_explain safe referential answered lacking (fun _ => referential.permissions_of_unused) ?_
    intro principal present role granted
    have known : user ∈ tables.users := by
      by_contra absent
      simp [facts, Database.facts, Database.loadPrincipal, ExtTreeMap.getElem?_eq_none absent] at present
    exact Database.confer_taken known

end Store

namespace Registry

variable {id target : PermissionId} {held : Set PermissionId}

def archive : Registry :=
  (empty.insert { id := "read", moduleName := "docs" }).insert
    { id := "edit", moduleName := "docs", dependsOn := ["read"] }

theorem archive_dependsOn_iff : archive.DependsOn id target ↔ id = "edit" ∧ target = "read" := by
  unfold DependsOn dependencies archive
  rw [find?_insert, find?_insert]
  by_cases isEdit : id = "edit"
  · simp [isEdit]
  · by_cases isRead : id = "read"
    · simp [isRead]
    · simp [Ne.symm isEdit, Ne.symm isRead, isEdit, find?, empty]

theorem archive_not_implies : ¬ archive.Implies id target := by
  unfold Implies implied archive
  rw [find?_insert, find?_insert]
  by_cases isEdit : id = "edit"
  · simp [isEdit]
  · by_cases isRead : id = "read"
    · simp [isRead]
    · simp [Ne.symm isEdit, Ne.symm isRead, find?, empty]

theorem mem_archive_requirements_iff : target ∈ archive.requirements id ↔ id = "edit" ∧ target = "read" :=
  mem_requirements_iff_of_single archive_dependsOn_iff (by decide)

theorem archive_impliedBy : archive.impliedBy held = held := by
  refine Set.Subset.antisymm ?_ subset_impliedBy
  rintro id ⟨root, member, path⟩
  rcases path.cases_tail with rfl | ⟨_, _, edge⟩
  · exact member
  · exact absurd edge archive_not_implies

theorem archive_safe : archive.Safe where
  dependencies id target edge := by
    obtain ⟨rfl, rfl⟩ := archive_dependsOn_iff.mp edge
    simp [archive]
  implications id target edge := absurd edge archive_not_implies
  acyclic id cycle := by
    obtain ⟨rfl, same⟩ := mem_archive_requirements_iff.mp cycle
    exact absurd same (by decide)

theorem archive_resolves : archive.resolveDependencies "edit" = .ok ["read"] := by
  have registered : "edit" ∈ archive := by simp [archive]
  obtain ⟨dependencies, resolved⟩ := resolvable_iff.mp (archive_safe.resolvable registered)
  obtain ⟨-, requirements, -⟩ := resolveDependencies_eq_ok resolved
  have perm : dependencies.Perm ["read"] :=
    (List.perm_ext_iff_of_nodup (resolveDependencies_nodup resolved) (List.nodup_singleton _)).mpr fun id => by
      simp [requirements, mem_archive_requirements_iff]
  rw [resolved, List.perm_singleton.mp perm]

end Registry

namespace Store

open Checker (Given globalArguments)

def clerks : MemoryStore :=
  { MemoryStore.empty with
    users := (∅ : ExtTreeMap UserId StoredUser).insert "ann" ⟨false, .oidc, {"clerk"}⟩
    roles := (∅ : ExtTreeMap RoleId StoredRole).insert "clerk" ⟨"clerk", {"edit"}⟩ }

def clerk : Principal := ⟨"ann", false, .oidc, [⟨"clerk", "clerk", ["edit"]⟩], []⟩

theorem clerk_lacks_reading :
    (Checker.on .archive {} clerks).explain "ann" "edit" = .ok (.missingDependencies "edit" ["read"]) := by
  have present : clerks.facts.principal "ann" = some clerk := by decide
  have verified : ¬ clerks.facts.Pending true clerk := fun pending => absurd pending.2.1 (by decide)
  have held : ∀ id, id ∈ Registry.archive.impliedBy (clerk.permissions ∪ ∅) ↔ id = "edit" := by
    simp [Registry.archive_impliedBy, Principal.permissions, clerk]
  obtain ⟨outcome, shape, result⟩ := Checker.explain_outcome clerks.gives.tells (Checker.inTime_on .archive {} clerks)
    (show Given (globalArguments "ann" "edit") by unfold Given; decide)
  rcases shape.eq_granted present rfl verified with ⟨permissions, rfl, closure, -⟩ | ⟨culprit, implied, unknown, -⟩
  · have members : ∀ id, id ∈ permissions ↔ id = "edit" := fun id => (closure id).trans (held id)
    have lacking : (UserGrants.granted "ann" clerk.teamIds permissions).missing ["read"] = ["read"] := by
      simp [UserGrants.missing, UserGrants.holds, UserGrants.granted, members]
    have decided : (Checker.on .archive {} clerks).decide (.granted "ann" clerk.teamIds permissions) "edit" = _ :=
      Checker.decide_held rfl rfl Registry.archive_resolves ((members "edit").mpr rfl)
    rw [lacking] at decided
    exact result.trans decided
  · have registered : "edit" ∈ Registry.archive := by simp [Registry.archive]
    rw [(held culprit).mp implied] at unknown
    exact absurd registered unknown

/-- A new role that grants what was named as missing is enough, and one that grants once more what was held is not. -/
theorem clerk_given_reading :
    Registry.archive.validateGraph = .ok () ∧
      (Checker.on .archive {} clerks).explain "ann" "edit" = .ok (.missingDependencies "edit" ["read"]) ∧
      (Checker.on .archive {} (after clerks (confer "ann" "reader" ["read"]))).explain "ann" "edit" =
        .ok (.of "edit" .granted) ∧
      ∃ left, (Checker.on .archive {} (after clerks (confer "ann" "reader" ["edit"]))).explain "ann" "edit" =
        .ok (.missingDependencies "edit" left) ∧ "read" ∈ left := by
  have valid : Registry.archive.validateGraph = .ok () := Registry.validateGraph_eq_ok_iff.mpr Registry.archive_safe
  have remedies := (missing_remedied .archive valid {} "ann" "edit" (.missingDependencies "edit" ["read"]) rfl).1 clerks
    clerk_lacks_reading
  have new : "reader" ∉ clerks.roles := by decide
  refine ⟨valid, clerk_lacks_reading, remedies.sufficient "reader" new, ?_⟩
  refine remedies.necessary "reader" ["edit"] new (by simp [Registry.archive]) "read" List.mem_cons_self ?_
  simp [Registry.archive_impliedBy]

end Store

end AccessControl
