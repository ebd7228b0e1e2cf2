import AccessControl.Proofs.Registry.Registering

namespace AccessControl

/-- White space at the ends of a text that is put together can only come from its outer parts. -/
theorem Text.trimmed_append {start stop : String} (started : start ≠ "") (stopped : stop ≠ "")
    (first : ∀ c ∈ start.toList.head?, isSpace c = false) (last : ∀ c ∈ stop.toList.getLast?, isSpace c = false) :
    Trimmed (start ++ stop) where
  first c front := by
    have begun : start.toList ≠ [] := by simpa using started
    rw [String.toList_append, List.head?_append, List.head?_eq_some_head begun, Option.some_or,
      ← List.head?_eq_some_head begun] at front
    exact first c front
  last c back := by
    have ended : stop.toList ≠ [] := by simpa using stopped
    rw [String.toList_append, List.getLast?_append, List.getLast?_eq_some_getLast ended, Option.some_or,
      ← List.getLast?_eq_some_getLast ended] at back
    exact last c back

namespace Protocol

open Text Registry

variable {registry after : Registry} {driver action : String} {given : Permission} {error : RegistryError}

theorem permissionId_ne_empty (driver action : String) : permissionId driver action ≠ "" := by
  simp [permissionId]

theorem trimmed_permissionId (named : action ≠ "") (trimmed : Trimmed action) : Trimmed (permissionId driver action) := by
  refine trimmed_append (by simp) named (fun c first => ?_) trimmed.last
  have starts : c = 'p' := by
    simpa [String.toList_append, eq_comm] using first
  rw [starts]
  decide

/-- The normal form keeps the id that has been made of the names. -/
theorem normalize_permissionFor (given : Permission) (named : action ≠ "") (trimmed : Trimmed action) :
    (permissionFor driver action given).normalize =
      { permissionFor driver action given with
        dependsOn := normalEdges given.dependsOn
        implies := normalEdges given.implies } := by
  rw [Permission.normalize, permissionFor, (trimmed_permissionId named trimmed).trim_eq]

/-- Among edges in normal form the id is found just where an edge is the id but for white space around it. -/
theorem permissionId_mem_normalEdges {edges : List PermissionId} :
    permissionId driver action ∈ normalEdges edges ↔ permissionId driver action ∈ edges.map trim := by
  rw [mem_normalEdges, List.mem_map]
  exact and_iff_right (permissionId_ne_empty driver action)

/-- What is stored for an action of a driver when a caller registers a permission for it. -/
structure Derives (driver action : String) (given stored : Permission) : Prop where
  id : stored.id = "protocol:" ++ driver ++ "." ++ action
  moduleName : stored.moduleName = "protocols." ++ driver
  category : stored.category = "protocol:" ++ driver
  displayName : stored.displayName = given.displayName
  description : stored.description = given.description
  scope : stored.scope = given.scope
  dependsOn : stored.dependsOn = normalEdges given.dependsOn
  implies : stored.implies = normalEdges given.implies
  metadata : ∀ name : String, stored.metadata[name]? =
    if name = "action" then some action else if name = "driver" then some driver else given.metadata[name]?

theorem derives_normalize (given : Permission) (named : action ≠ "") (trimmed : Trimmed action) :
    Derives driver action given (permissionFor driver action given).normalize := by
  rw [normalize_permissionFor given named trimmed]
  refine ⟨rfl, rfl, rfl, rfl, rfl, rfl, rfl, rfl, fun name => ?_⟩
  simp only [permissionFor, Std.ExtTreeMap.getElem?_insert, Std.compare_eq_iff_eq, @eq_comm _ name]

/-- An action of a driver may be registered. -/
structure Admits (registry : Registry) (driver action : String) (given : Permission) : Prop where
  driverNamed : driver ≠ ""
  actionNamed : action ≠ ""
  independent : permissionId driver action ∉ given.dependsOn.map trim
  unimplied : permissionId driver action ∉ given.implies.map trim
  fresh : permissionId driver action ∉ registry

/-- Why an action of a driver may not be registered. Each reason counts only where those before it do not. -/
inductive Refuses (registry : Registry) (driver action : String) (given : Permission) : RegistryError → Prop where
  | driver (blank : driver = "") :
    Refuses registry driver action given (.invalidProtocolPermission "driver id must not be empty")
  | action (named : driver ≠ "") (blank : action = "") :
    Refuses registry driver action given
      (.invalidProtocolPermission ("action for driver " ++ driver ++ " must not be empty"))
  | dependsOnItself (named : driver ≠ "" ∧ action ≠ "") (itself : permissionId driver action ∈ given.dependsOn.map trim) :
    Refuses registry driver action given (.selfDependency (permissionId driver action))
  | impliesItself (named : driver ≠ "" ∧ action ≠ "")
    (independent : permissionId driver action ∉ given.dependsOn.map trim)
    (itself : permissionId driver action ∈ given.implies.map trim) :
    Refuses registry driver action given (.selfImplication (permissionId driver action))
  | known (named : driver ≠ "" ∧ action ≠ "") (independent : permissionId driver action ∉ given.dependsOn.map trim)
    (unimplied : permissionId driver action ∉ given.implies.map trim) (present : permissionId driver action ∈ registry) :
    Refuses registry driver action given (.duplicateId (permissionId driver action))

theorem admits_or_refuses (registry : Registry) (driver action : String) (given : Permission) :
    Admits registry driver action given ∨ ∃ error, Refuses registry driver action given error := by
  by_cases noDriver : driver = ""
  · exact .inr ⟨_, .driver noDriver⟩
  by_cases noAction : action = ""
  · exact .inr ⟨_, .action noDriver noAction⟩
  by_cases dependent : permissionId driver action ∈ given.dependsOn.map trim
  · exact .inr ⟨_, .dependsOnItself ⟨noDriver, noAction⟩ dependent⟩
  by_cases implied : permissionId driver action ∈ given.implies.map trim
  · exact .inr ⟨_, .impliesItself ⟨noDriver, noAction⟩ dependent implied⟩
  by_cases present : permissionId driver action ∈ registry
  · exact .inr ⟨_, .known ⟨noDriver, noAction⟩ dependent implied present⟩
  exact .inl ⟨noDriver, noAction, dependent, implied, present⟩

/-- What speaks against an action of a driver with both names given speaks against the permission derived for it. -/
theorem Refuses.of_named (refuses : Refuses registry driver action given error) (named : driver ≠ "" ∧ action ≠ "")
    (trimmed : Trimmed action) : registry.Refuses (permissionFor driver action given).normalize error := by
  have present := permissionId_ne_empty driver action
  have listed {edges : List PermissionId} :
      permissionId driver action ∈ normalEdges edges ↔ permissionId driver action ∈ edges.map trim :=
    permissionId_mem_normalEdges
  rw [normalize_permissionFor given named.2 trimmed]
  cases refuses with
  | driver blank => exact absurd blank named.1
  | action _ blank => exact absurd blank named.2
  | dependsOnItself _ itself => exact .dependsOnItself present (listed.mpr itself)
  | impliesItself _ independent itself => exact .impliesItself present (mt listed.mp independent) (listed.mpr itself)
  | known _ independent unimplied known =>
    exact .known present (mt listed.mp independent) (mt listed.mp unimplied) known

theorem perform_register_of_named (named : trim driver ≠ "" ∧ trim action ≠ "") :
    (register driver action given).perform registry =
      (Registration.register (permissionFor (trim driver) (trim action) given)).perform registry := by
  rw [register, if_neg named.1, if_neg named.2]

theorem perform_register_of_admits (admits : Admits registry (trim driver) (trim action) given) :
    (register driver action given).perform registry =
      (.ok (), registry.insert (permissionFor (trim driver) (trim action) given).normalize) := by
  have accepted : registry.accept (permissionFor (trim driver) (trim action) given) =
      .ok (permissionFor (trim driver) (trim action) given).normalize := by
    rw [accept_eq_ok_iff, normalize_permissionFor given admits.actionNamed (trimmed_trim action)]
    exact ⟨rfl, permissionId_ne_empty _ _, mt permissionId_mem_normalEdges.mp admits.independent,
      mt permissionId_mem_normalEdges.mp admits.unimplied, admits.fresh⟩
  rw [perform_register_of_named ⟨admits.driverNamed, admits.actionNamed⟩, Registration.perform_register, accepted]

theorem perform_register_of_refuses (refuses : Refuses registry (trim driver) (trim action) given error) :
    (register driver action given).perform registry = (.error error, registry) := by
  have registered (named : trim driver ≠ "" ∧ trim action ≠ "") :
      (register driver action given).perform registry = (.error error, registry) := by
    rw [perform_register_of_named named, perform_register_eq_error_iff]
    exact ⟨rfl, refuses.of_named named (trimmed_trim action)⟩
  cases refuses with
  | driver blank =>
    rw [register, if_pos blank]
    rfl
  | action named blank =>
    rw [register, if_neg named, if_pos blank]
    rfl
  | dependsOnItself named _ => exact registered named
  | impliesItself named _ _ => exact registered named
  | known named _ _ _ => exact registered named

theorem perform_register_eq_ok_iff :
    (register driver action given).perform registry = (.ok (), after) ↔
      Admits registry (trim driver) (trim action) given ∧
        after = registry.insert (permissionFor (trim driver) (trim action) given).normalize := by
  constructor
  · intro done
    rcases admits_or_refuses registry (trim driver) (trim action) given with admits | ⟨error, refuses⟩
    · rw [perform_register_of_admits admits] at done
      exact ⟨admits, (congrArg Prod.snd done).symm⟩
    · rw [perform_register_of_refuses refuses] at done
      cases done
  · rintro ⟨admits, rfl⟩
    exact perform_register_of_admits admits

theorem perform_register_eq_error_iff :
    (register driver action given).perform registry = (.error error, after) ↔
      after = registry ∧ Refuses registry (trim driver) (trim action) given error := by
  constructor
  · intro failed
    rcases admits_or_refuses registry (trim driver) (trim action) given with admits | ⟨reason, refuses⟩
    · rw [perform_register_of_admits admits] at failed
      cases failed
    · rw [perform_register_of_refuses refuses] at failed
      cases failed
      exact ⟨rfl, refuses⟩
  · rintro ⟨rfl, refuses⟩
    exact perform_register_of_refuses refuses

/-- An action of a driver is registered just where both names are given and the derived id is new and not among the
edges. Then one entry is added under that id, and else nothing changes; the identity that the caller gives counts for
nothing. -/
theorem registration_exact (registry : Registry) (driver action : String) (given : Permission) :
    (((register driver action given).perform registry).1 = .ok () ↔
      Admits registry (trim driver) (trim action) given) ∧
    (∀ after, (register driver action given).perform registry = (.ok (), after) →
      ∃ stored, Derives (trim driver) (trim action) given stored ∧ stored.normalize = stored ∧
        ∀ id, after.find? id = if stored.id = id then some stored else registry.find? id) ∧
    (∀ error after, (register driver action given).perform registry = (.error error, after) ↔
      after = registry ∧ Refuses registry (trim driver) (trim action) given error) ∧
    ∀ id moduleName category,
      (register driver action { given with id, moduleName, category }).perform registry =
        (register driver action given).perform registry := by
  refine ⟨⟨fun taken => ?_, fun admits => ?_⟩, fun after done => ?_, fun error after => ?_, fun _ _ _ => rfl⟩
  · exact (perform_register_eq_ok_iff.mp (Prod.ext taken rfl)).1
  · rw [perform_register_of_admits admits]
  · obtain ⟨admits, rfl⟩ := perform_register_eq_ok_iff.mp done
    exact ⟨_, derives_normalize given admits.actionNamed (trimmed_trim action), Permission.normalize_normalize _,
      fun id => find?_insert⟩
  · exact perform_register_eq_error_iff

/-- It claims to be someone else's, and names its driver itself. -/
def tunnel : Permission :=
  { id := "user.manage", moduleName := "core", displayName := "Open a tunnel", dependsOn := ["user.view ", "\u2003user.view"],
    metadata := .ofList [("driver", "vnc"), ("port", "22")] }

/-- It is registered for the driver, once, and not at all where it is to depend on itself. -/
theorem tunnel_registered :
    Admits .empty (trim " ssh\u00a0") (trim "connect\n") tunnel ∧
      ∃ stored after, (register " ssh\u00a0" "connect\n" tunnel).perform .empty = (.ok (), after) ∧
        Derives "ssh" "connect" tunnel stored ∧ after.find? "protocol:ssh.connect" = some stored ∧
        after.find? "user.manage" = none ∧
        (register "ssh" "connect" tunnel).perform after = (.error (.duplicateId "protocol:ssh.connect"), after) ∧
        (register "ssh" "connect" { tunnel with dependsOn := ["\tprotocol:ssh.connect"] }).perform .empty =
          (.error (.selfDependency "protocol:ssh.connect"), .empty) := by
  have driver : trim " ssh\u00a0" = "ssh" := by decide
  have action : trim "connect\n" = "connect" := by decide
  have admits : Admits .empty (trim " ssh\u00a0") (trim "connect\n") tunnel :=
    ⟨by decide, by decide, by decide, by decide, by decide⟩
  obtain ⟨taken, added, _⟩ := registration_exact .empty " ssh\u00a0" "connect\n" tunnel
  obtain ⟨after, done⟩ : ∃ after, (register " ssh\u00a0" "connect\n" tunnel).perform .empty = (.ok (), after) :=
    ⟨_, Prod.ext (taken.mpr admits) rfl⟩
  obtain ⟨stored, derives, _, found⟩ := added after done
  rw [driver, action] at derives
  have here := (found "protocol:ssh.connect").trans (if_pos derives.id)
  have elsewhere := (found "user.manage").trans (if_neg (by rw [derives.id]; decide))
  have present : permissionId (trim "ssh") (trim "connect") ∈ after :=
    find?_isSome.mp (Option.isSome_iff_exists.mpr ⟨stored, here⟩)
  refine ⟨admits, stored, after, done, derives, here, elsewhere, ?_, ?_⟩
  · exact ((registration_exact after "ssh" "connect" tunnel).2.2.1 _ _).mpr
      ⟨rfl, .known (by decide) (by decide) (by decide) present⟩
  · exact ((registration_exact .empty "ssh" "connect" _).2.2.1 _ _).mpr
      ⟨rfl, .dependsOnItself (by decide) (by decide)⟩

end Protocol

end AccessControl
