import AccessControl.Proofs.Registry.Drivers

/-!
When two actions of protocol drivers get one id. The id joins the names with a dot, and a name may have dots of its own,
so names are lost in it: what follows a dot in the name of a driver may as well begin the name of an action. Other than
in this way two ids never meet, and drivers without a dot in their names never get in each other's way.
-/

namespace AccessControl

/-- A joined text can be split in two ways only if one of the separators stands within a part. -/
theorem append_cons_eq_append_cons_iff {separator : α} {left right other otherRight : List α} :
    left ++ separator :: right = other ++ separator :: otherRight ↔
      left = other ∧ right = otherRight ∨
      (∃ middle, other = left ++ separator :: middle ∧ right = middle ++ separator :: otherRight) ∨
      ∃ middle, left = other ++ separator :: middle ∧ otherRight = middle ++ separator :: right := by
  constructor
  · intro joined
    rcases List.append_eq_append_iff.mp joined with ⟨rest, longer, split⟩ | ⟨rest, longer, split⟩
    · cases rest with
      | nil => simp_all
      | cons first middle =>
        obtain ⟨rfl, rest⟩ := List.cons.inj split
        exact .inr (.inl ⟨middle, longer, rest⟩)
    · cases rest with
      | nil => simp_all
      | cons first middle =>
        obtain ⟨rfl, rest⟩ := List.cons.inj split
        exact .inr (.inr ⟨middle, longer, rest⟩)
  · rintro (⟨rfl, rfl⟩ | ⟨middle, rfl, rfl⟩ | ⟨middle, rfl, rfl⟩) <;> simp

namespace Protocol

open Text Registry

variable {registry after : Registry} {driver action other otherAction : String}

/-- The name of the second driver goes on, after a dot, with the beginning of the first driver's action. -/
def RunsInto (driver action other otherAction : String) : Prop :=
  ∃ middle, other = driver ++ "." ++ middle ∧ action = middle ++ "." ++ otherAction

/-- Which of the two is meant cannot be told from the names once they are joined. -/
def Ambiguous (driver action other otherAction : String) : Prop :=
  RunsInto driver action other otherAction ∨ RunsInto other otherAction driver action

theorem runsInto_iff_toList :
    RunsInto driver action other otherAction ↔ ∃ middle,
      other.toList = driver.toList ++ '.' :: middle ∧ action.toList = middle ++ '.' :: otherAction.toList := by
  constructor
  · rintro ⟨middle, rfl, rfl⟩
    exact ⟨middle.toList, by simp, by simp⟩
  · rintro ⟨middle, longer, begins⟩
    exact ⟨.ofList middle, String.toList_inj.mp (by simp [longer]), String.toList_inj.mp (by simp [begins])⟩

theorem permissionId_eq_iff :
    permissionId driver action = permissionId other otherAction ↔
      driver = other ∧ action = otherAction ∨ Ambiguous driver action other otherAction := by
  have joined : permissionId driver action = permissionId other otherAction ↔
      driver.toList ++ '.' :: action.toList = other.toList ++ '.' :: otherAction.toList := by
    rw [← String.toList_inj]
    simp [permissionId]
  rw [joined, append_cons_eq_append_cons_iff, String.toList_inj, String.toList_inj, Ambiguous, runsInto_iff_toList,
    runsInto_iff_toList]

/-- Drivers without a dot in their names have ids of their own. -/
theorem not_ambiguous_of_undotted (undotted : '.' ∉ driver.toList) (otherUndotted : '.' ∉ other.toList) :
    ¬ Ambiguous driver action other otherAction := by
  rintro (⟨middle, rfl, _⟩ | ⟨middle, rfl, _⟩)
  · simp at otherUndotted
  · simp at undotted

/-- What a driver hands in for one of its actions. -/
structure Request where
  driver : String
  action : String
  given : Permission

namespace Request

variable {first second : Request}

def id (request : Request) : PermissionId :=
  permissionId (trim request.driver) (trim request.action)

def names (request : Request) : String × String :=
  (trim request.driver, trim request.action)

def registration (request : Request) : Registration Unit :=
  register request.driver request.action request.given

/-- The request is in order, and would be taken if it were the only one. -/
def Admitted (registry : Registry) (request : Request) : Prop :=
  Admits registry (trim request.driver) (trim request.action) request.given

def Derives (request : Request) (stored : Permission) : Prop :=
  Protocol.Derives (trim request.driver) (trim request.action) request.given stored

def Ambiguous (first second : Request) : Prop :=
  Protocol.Ambiguous (trim first.driver) (trim first.action) (trim second.driver) (trim second.action)

def stored (request : Request) : Permission :=
  (permissionFor (trim request.driver) (trim request.action) request.given).normalize

theorem id_eq_iff : first.id = second.id ↔ first.names = second.names ∨ first.Ambiguous second := by
  rw [id, id, permissionId_eq_iff, names, names, Prod.mk.injEq]
  rfl

/-- Without edges it is only for the names and the id that a request can be refused. -/
theorem admitted_of_edgeless (named : trim first.driver ≠ "" ∧ trim first.action ≠ "")
    (edgeless : first.given.dependsOn = [] ∧ first.given.implies = []) (fresh : first.id ∉ registry) :
    first.Admitted registry where
  driverNamed := named.1
  actionNamed := named.2
  independent := by simp [edgeless.1]
  unimplied := by simp [edgeless.2]
  fresh := fresh

theorem perform_registration (admitted : first.Admitted registry) :
    first.registration.perform registry = (.ok (), registry.insert first.stored) :=
  perform_register_of_admits admitted

theorem Admitted.derives (admitted : first.Admitted registry) : first.Derives first.stored :=
  derives_normalize first.given admitted.actionNamed (trimmed_trim first.action)

theorem Admitted.stored_id (admitted : first.Admitted registry) : first.stored.id = first.id :=
  admitted.derives.id

/-- One more entry matters to a request only if it has the id of the request. -/
theorem Admitted.insert (admitted : second.Admitted registry) (firstAdmitted : first.Admitted registry)
    (apart : first.id ≠ second.id) : second.Admitted (registry.insert first.stored) where
  driverNamed := admitted.driverNamed
  actionNamed := admitted.actionNamed
  independent := admitted.independent
  unimplied := admitted.unimplied
  fresh present := by
    rcases mem_insert.mp present with same | present
    · exact apart (firstAdmitted.stored_id.symm.trans same)
    · exact admitted.fresh present

theorem perform_both (admitted : first.Admitted registry) (secondAdmitted : second.Admitted registry)
    (apart : first.id ≠ second.id) :
    (do first.registration; second.registration).perform registry =
      (.ok (), (registry.insert first.stored).insert second.stored) := by
  rw [Transition.perform_bind, perform_registration admitted]
  exact perform_registration (secondAdmitted.insert admitted apart)

theorem perform_both_of_same_id (admitted : first.Admitted registry) (secondAdmitted : second.Admitted registry)
    (same : first.id = second.id) :
    (do first.registration; second.registration).perform registry =
      (.error (.duplicateId second.id), registry.insert first.stored) := by
  rw [Transition.perform_bind, perform_registration admitted]
  refine perform_register_of_refuses (.known ⟨secondAdmitted.driverNamed, secondAdmitted.actionNamed⟩
    secondAdmitted.independent secondAdmitted.unimplied ?_)
  exact mem_insert.mpr (.inl (admitted.stored_id.trans same))

/-- Both are taken, whichever comes first. Each has an entry of its own, made of its own names, and nothing else has
changed. -/
def Coexist (registry : Registry) (first second : Request) : Prop :=
  first.id ≠ second.id ∧
  ∃ after firstStored secondStored,
    (do first.registration; second.registration).perform registry = (.ok (), after) ∧
    (do second.registration; first.registration).perform registry = (.ok (), after) ∧
    first.Derives firstStored ∧ second.Derives secondStored ∧
    ∀ id, after.find? id =
      if id = first.id then some firstStored else if id = second.id then some secondStored else registry.find? id

/-- The second to come is refused, whichever it is, for an id that is taken, and the first keeps the entry. -/
def Collide (registry : Registry) (first second : Request) : Prop :=
  (∃ stored, first.Derives stored ∧
    (do first.registration; second.registration).perform registry =
      (.error (.duplicateId second.id), registry.insert stored)) ∧
  ∃ stored, second.Derives stored ∧
    (do second.registration; first.registration).perform registry =
      (.error (.duplicateId first.id), registry.insert stored)

theorem coexist (admitted : first.Admitted registry) (secondAdmitted : second.Admitted registry)
    (apart : first.id ≠ second.id) : Coexist registry first second := by
  -- Under two ids the entries may be added in either order.
  have swapped : (registry.insert second.stored).insert first.stored =
      (registry.insert first.stored).insert second.stored := by
    refine ext_find? fun id => ?_
    simp only [find?_insert, admitted.stored_id, secondAdmitted.stored_id]
    grind
  refine ⟨apart, _, first.stored, second.stored, perform_both admitted secondAdmitted apart, ?_, admitted.derives,
    secondAdmitted.derives, fun id => ?_⟩
  · rw [perform_both secondAdmitted admitted apart.symm, swapped]
  · simp only [find?_insert, admitted.stored_id, secondAdmitted.stored_id]
    grind

theorem collide (admitted : first.Admitted registry) (secondAdmitted : second.Admitted registry)
    (same : first.id = second.id) : Collide registry first second :=
  ⟨⟨_, admitted.derives, perform_both_of_same_id admitted secondAdmitted same⟩,
    ⟨_, secondAdmitted.derives, perform_both_of_same_id secondAdmitted admitted same.symm⟩⟩

/-- Two requests for actions that differ, either of which would be taken, do not get in each other's way unless their
names run into each other; and then whichever comes second is refused. -/
theorem coexist_unless_ambiguous (admitted : first.Admitted registry) (secondAdmitted : second.Admitted registry)
    (differ : first.names ≠ second.names) :
    (Coexist registry first second ↔ ¬ first.Ambiguous second) ∧
      (Collide registry first second ↔ first.Ambiguous second) := by
  have meet : first.id = second.id ↔ first.Ambiguous second := id_eq_iff.trans (or_iff_right differ)
  rw [← meet]
  refine ⟨⟨And.left, coexist admitted secondAdmitted⟩, fun collision => ?_, collide admitted secondAdmitted⟩
  by_cases same : first.id = second.id
  · exact same
  · obtain ⟨⟨_, _, refused⟩, _⟩ := collision
    rw [perform_both admitted secondAdmitted same] at refused
    cases refused

/-- Two drivers that know nothing of each other, each with an action of that name. -/
theorem ssh_and_vnc_coexist :
    let ssh : Request := ⟨"ssh", "open", { id := "", moduleName := "" }⟩
    let vnc : Request := ⟨" vnc", "open", { id := "", moduleName := "" }⟩
    ssh.Admitted .empty ∧ vnc.Admitted .empty ∧ ssh.names ≠ vnc.names ∧ Coexist .empty ssh vnc := by
  intro ssh vnc
  have sshAdmitted : ssh.Admitted .empty := admitted_of_edgeless (by decide) ⟨rfl, rfl⟩ not_mem_empty
  have vncAdmitted : vnc.Admitted .empty := admitted_of_edgeless (by decide) ⟨rfl, rfl⟩ not_mem_empty
  have differ : ssh.names ≠ vnc.names := by decide
  have told : ¬ ssh.Ambiguous vnc := not_ambiguous_of_undotted (by decide) (by decide)
  exact ⟨sshAdmitted, vncAdmitted, differ, (coexist_unless_ambiguous sshAdmitted vncAdmitted differ).1.mpr told⟩

/-- The driver of a proxied protocol and the plain one's action on the proxy get one id, and the second is refused. -/
theorem proxy_open_collides :
    let nested : Request := ⟨"ssh.proxy", "open", { id := "", moduleName := "" }⟩
    let plain : Request := ⟨"ssh", "proxy.open", { id := "", moduleName := "" }⟩
    nested.Admitted .empty ∧ plain.Admitted .empty ∧ nested.names ≠ plain.names ∧
      ∃ after, after.ids = ["protocol:ssh.proxy.open"] ∧
        (do nested.registration; plain.registration).perform .empty =
          (.error (.duplicateId "protocol:ssh.proxy.open"), after) := by
  intro nested plain
  have nestedAdmitted : nested.Admitted .empty := admitted_of_edgeless (by decide) ⟨rfl, rfl⟩ not_mem_empty
  have plainAdmitted : plain.Admitted .empty := admitted_of_edgeless (by decide) ⟨rfl, rfl⟩ not_mem_empty
  have nestedId : nested.id = "protocol:ssh.proxy.open" := by decide
  have plainId : plain.id = "protocol:ssh.proxy.open" := by decide
  refine ⟨nestedAdmitted, plainAdmitted, by decide, Registry.empty.insert nested.stored, by decide, ?_⟩
  rw [← plainId]
  exact perform_both_of_same_id nestedAdmitted plainAdmitted (nestedId.trans plainId.symm)

end Request

end Protocol

end AccessControl
