import AccessControl.Proofs.Access.Interchange
import AccessControl.Proofs.Store.Reads
import AccessControl.Proofs.Store.Runs

namespace AccessControl

theorem Simulates.readsAgree {memory : MemoryStore} {tables : Database} (simulates : Simulates memory tables) :
    Store.ReadsAgree (fun teamIds => Database.refusal teamIds = none) memory tables where
  principal user := congrArg Except.ok (simulates.loadPrincipal user).symm
  verification user := congrArg Except.ok (simulates.verifications user)
  verificationRequired := congrArg Except.ok simulates.verificationRequired
  listPermissions := simulates.listPermissions.symm
  resourceGrants query room := by
    refine ⟨_, _, rfl, ?_, simulates.grantsFor query⟩
    exact Database.resourceGrants_eq_ok room

namespace Store

/-- Checks decide and list alike on both stores, or fail on both, whatever the registry and the configuration. On resources
this is so for users whose grants can be asked for. -/
structure ChecksAgree [Store σ] [Store τ] (asked : UserId → Prop) (left : σ) (right : τ) (registry : Registry)
    (config : CheckerConfig) : Prop where
  explain : ∀ user permission, ((Checker.on registry config left).explain user permission).toOption =
    ((Checker.on registry config right).explain user permission).toOption
  explainResource : ∀ user, asked user → ∀ resourceType resourceId permission now,
    ((Checker.on registry config left).explainResource user resourceType resourceId permission now).toOption =
      ((Checker.on registry config right).explainResource user resourceType resourceId permission now).toOption
  userPermissions : ∀ user, ((Checker.on registry config left).userPermissions user).toOption =
    ((Checker.on registry config right).userPermissions user).toOption
  resourcePermissions : ∀ user, asked user → ∀ resourceType resourceId now,
    ((Checker.on registry config left).resourcePermissions user resourceType resourceId now).toOption =
      ((Checker.on registry config right).resourcePermissions user resourceType resourceId now).toOption

theorem ReadsAgree.checksAgree [Store σ] [Store τ] {left : σ} {right : τ} {facts : StoreFacts}
    (agree : ReadsAgree (fun teamIds => facts.refusal teamIds = none) left right) (gives : Gives right facts)
    (registry : Registry) (config : CheckerConfig) :
    ChecksAgree (facts.Answers config.enforceVerification) left right registry config where
  explain _ _ := agree.explain
  explainResource _ answers _ _ _ _ := agree.explainResource gives answers
  userPermissions _ := agree.userPermissions
  resourcePermissions _ answers _ _ _ := agree.resourcePermissions gives answers

/-- The same writes get the same answers from both stores, and after each of them all reads and checks agree, as far as
the tables can be asked for the grants of so many teams. -/
theorem stores_indistinguishable {changes : List Write} (admits : AdmitsAll (empty : MemoryStore) changes) :
    receipts (empty : MemoryStore) changes = receipts (empty : Database) changes ∧
    ∀ done rest, changes = done ++ rest →
      ReadsAgree (fun teamIds => teamIds.length ≤ 32762) (after (empty : MemoryStore) done)
        (after (empty : Database) done) ∧
      ∀ registry config,
        ChecksAgree ((after (empty : Database) done).facts.Answers config.enforceVerification)
          (after (empty : MemoryStore) done) (after (empty : Database) done) registry config := by
  refine ⟨Simulates.empty.receipts_eq admits, ?_⟩
  intro done rest split
  subst split
  have agree := (Simulates.empty.after admits.of_append).readsAgree
  refine ⟨?_, agree.checksAgree (after (empty : Database) done).gives⟩
  exact
    { agree with
      resourceGrants := fun query few => agree.resourceGrants query (Database.refusal_eq_none_iff.mpr few) }

/-- Writes of every kind, some of which are refused. -/
def mixedWrites : List Write :=
  [.addUser "ann" .oidc, .setRoot "bob" true, .addRole "editor" ["edit", "edit"], .addRolePermission "editor" "read",
    .assignRole "ann" "editor", .assignRole "ann" "viewer", .addTeam "writers" "Writers",
    .addTeamMember "writers" "ann", .assignTeamRole "writers" "editor",
    .grant ⟨⟨"doc", "7", ⟨.user, "ann"⟩, "edit"⟩, some 9⟩, .revoke ⟨"doc", "7", ⟨.user, "ann"⟩, "edit"⟩,
    .setVerification "ann" none, .requireVerification true,
    .upsertPermissions [{ id := "edit", moduleName := "docs", dependsOn := ["read"] }]]

theorem mixedWrites_admitted : AdmitsAll (empty : MemoryStore) mixedWrites := by
  have oidc : AuthProvider.ofName AuthProvider.oidc.name = .oidc := by decide
  have ann : loadPrincipal (after (empty : MemoryStore) (mixedWrites.take 11)) "ann" =
      .ok (some ⟨"ann", false, .oidc, [⟨"editor", "editor", ["edit", "read"]⟩],
        [⟨"writers", "Writers", [⟨"editor", "editor", ["edit", "read"]⟩]⟩]⟩) := by
    decide
  exact ⟨oidc, trivial, trivial, trivial, trivial, trivial, trivial, trivial, trivial, trivial, trivial,
    ⟨_, ann⟩, trivial, trivial, trivial⟩

/-- The user and the role that are missing are refused by both stores, and all else is taken. -/
theorem mixedWrites_indistinguishable :
    AdmitsAll (empty : MemoryStore) mixedWrites ∧
      receipts (empty : Database) mixedWrites =
        [some .done, none, some .done, some .done, some .done, none, some .done, some .done, some .done, some .done,
          some (.count 1), some .done, some .done, some (.count 1)] ∧
      ReadsAgree (fun teamIds => teamIds.length ≤ 32762) (after (empty : MemoryStore) mixedWrites)
        (after (empty : Database) mixedWrites) := by
  obtain ⟨same, agree⟩ := stores_indistinguishable mixedWrites_admitted
  refine ⟨mixedWrites_admitted, same.symm.trans ?_, (agree mixedWrites [] (by simp)).1⟩
  decide

end Store

end AccessControl
