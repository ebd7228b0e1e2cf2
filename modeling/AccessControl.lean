import AccessControl.Text.Blank
import AccessControl.Duration
import AccessControl.Json.Parser
import AccessControl.Json.Record
import AccessControl.Permission.JsonForm
import AccessControl.Registry.Basic
import AccessControl.Registry.Dependencies
import AccessControl.Registry.Implications
import AccessControl.Registry.Validity
import AccessControl.Registry.Protocol
import AccessControl.Registry.CoreCatalog
import AccessControl.PermissionGraph
import AccessControl.Principal.JsonForm
import AccessControl.ResourceGrant.JsonForm
import AccessControl.Store.Basic
import AccessControl.Store.Memory
import AccessControl.Store.Database.Basic
import AccessControl.Store.Database.Maintenance
import AccessControl.Access.JsonForm
import AccessControl.Access.Checker
import AccessControl.Fixture
import AccessControl.Proofs.Registry.Concurrency
import AccessControl.Proofs.Access.Authorization
import AccessControl.Proofs.Access.Failures
import AccessControl.Proofs.Access.Startup
import AccessControl.Proofs.Access.Noninterference
import AccessControl.Proofs.Access.Monotonicity
import AccessControl.Proofs.Access.CatalogSync
import AccessControl.Proofs.Store.Equivalence
import AccessControl.Proofs.Access.Provenance
import AccessControl.Proofs.Store.Integrity
import AccessControl.Proofs.Store.Atomicity
import AccessControl.Proofs.Json.Formats
import AccessControl.Proofs.Access.Discovery
import AccessControl.Proofs.Access.Expiry
import AccessControl.Proofs.Access.Remedies
import AccessControl.Proofs.Registry.Recursion
import AccessControl.Proofs.Access.Satisfaction
import AccessControl.Proofs.Registry.Drivers
import AccessControl.Proofs.Store.GrantHistory
import AccessControl.Proofs.Store.Readding
import AccessControl.Proofs.Store.Enrollment
import AccessControl.Proofs.Registry.Reachability
import AccessControl.Proofs.Registry.DriverNames
import AccessControl.Proofs.Access.Gate
import AccessControl.Proofs.Access.Fixture
import AccessControl.Proofs.Access.Leftovers
import AccessControl.Proofs.Registry.ExpansionLoop
import AccessControl.Proofs.Permission.Normalization
import AccessControl.Proofs.Store.Regrouping
