import AccessControl.Permission.Basic
import AccessControl.Text.Blank

/-!
The normal form of a permission: its id is trimmed, and its edge lists hold trimmed ids, none of them empty and
none twice, in the order of first occurrence. Everything else stays as it is.
-/

namespace AccessControl

open Text

/-- Trimmed edges without empty and repeated ones; the first occurrence of an edge gives its place. -/
def normalEdges (edges : List PermissionId) : List PermissionId :=
  ((edges.map trim).filter fun edge => !edge.isEmpty).eraseDups

def Permission.normalize (permission : Permission) : Permission :=
  { permission with
    id := trim permission.id
    dependsOn := normalEdges permission.dependsOn
    implies := normalEdges permission.implies }

theorem mem_normalEdges {edges : List PermissionId} {id : PermissionId} :
    id ∈ normalEdges edges ↔ id ≠ "" ∧ ∃ edge ∈ edges, trim edge = id := by
  simp only [normalEdges, List.mem_eraseDups, List.mem_filter, List.mem_map, Bool.not_eq_true',
    String.isEmpty_eq_false_iff]
  exact and_comm

theorem trim_of_mem_normalEdges {edges : List PermissionId} {id : PermissionId} (member : id ∈ normalEdges edges) :
    trim id = id := by
  obtain ⟨_, edge, _, rfl⟩ := mem_normalEdges.mp member
  exact trim_trim edge

theorem nodup_eraseDups (ids : List PermissionId) : ids.eraseDups.Nodup := by
  match ids with
  | [] => simp
  | id :: rest =>
    rw [List.eraseDups_cons, List.nodup_cons]
    refine ⟨fun again => ?_, nodup_eraseDups (rest.filter fun other => !other == id)⟩
    have kept := List.mem_filter.mp (List.mem_eraseDups.mp again)
    simp at kept
termination_by ids.length
decreasing_by exact Nat.lt_succ_of_le (List.length_filter_le _ _)

theorem eraseDups_of_nodup {ids : List PermissionId} (distinct : ids.Nodup) : ids.eraseDups = ids := by
  induction ids with
  | nil => rfl
  | cons id rest ih =>
    obtain ⟨fresh, distinct⟩ := List.nodup_cons.mp distinct
    have others : rest.filter (fun other => !other == id) = rest := by
      rw [List.filter_eq_self]
      intro other member
      simp only [Bool.not_eq_true', beq_eq_false_iff_ne]
      exact fun same => fresh (same ▸ member)
    rw [List.eraseDups_cons, others, ih distinct]

/-- One id more is listed at the end, or makes no difference. -/
theorem eraseDups_concat (ids : List PermissionId) (id : PermissionId) :
    (ids ++ [id]).eraseDups = if id ∈ ids then ids.eraseDups else ids.eraseDups ++ [id] := by
  rw [List.eraseDups_append]
  by_cases known : id ∈ ids
  · simp [known, List.removeAll]
  · simp [known, List.removeAll, List.eraseDups_cons]

theorem nodup_normalEdges (edges : List PermissionId) : (normalEdges edges).Nodup :=
  nodup_eraseDups _

@[simp] theorem normalEdges_normalEdges (edges : List PermissionId) :
    normalEdges (normalEdges edges) = normalEdges edges := by
  have trimmed : (normalEdges edges).map trim = normalEdges edges :=
    (List.map_congr_left fun _ member => trim_of_mem_normalEdges member).trans (List.map_id _)
  have present : (normalEdges edges).filter (fun edge => !edge.isEmpty) = normalEdges edges := by
    rw [List.filter_eq_self]
    intro edge member
    simpa using (mem_normalEdges.mp member).1
  conv => lhs; rw [normalEdges, trimmed, present]
  exact eraseDups_of_nodup (nodup_normalEdges edges)

@[simp] theorem Permission.normalize_normalize (permission : Permission) :
    permission.normalize.normalize = permission.normalize := by
  simp [normalize]

end AccessControl
