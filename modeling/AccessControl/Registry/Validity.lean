import AccessControl.Registry.Dependencies

namespace AccessControl.Registry

/-- Every edge of every permission leads to a registered permission; the first that does not is reported, by
permission in ascending order of id and then by edge. -/
def checkEdges (registry : Registry) (edges : PermissionId → List PermissionId)
    (missing : PermissionId → PermissionId → RegistryError) : Except RegistryError Unit :=
  registry.ids.forM fun id =>
    (edges id).forM fun target =>
      if target ∈ registry then .ok () else .error (missing id target)

def validateDependencies (registry : Registry) : Except RegistryError Unit :=
  registry.checkEdges registry.dependencies .missingDependency

def validateImplications (registry : Registry) : Except RegistryError Unit :=
  registry.checkEdges registry.implied .missingImplication

def validateResolution (registry : Registry) : Except RegistryError Unit :=
  registry.ids.forM fun id => discard (registry.resolveDependencies id)

def validateGraph (registry : Registry) : Except RegistryError Unit := do
  registry.validateDependencies
  registry.validateImplications
  registry.validateResolution

end AccessControl.Registry
