/-
A model that holds the stages of a snapshot. Which users and indexes
there are is settled when the snapshot is taken in; stages may be removed
afterwards, and whoever still has a handle on one that is gone is told
so.
-/
import Depot.Indexing.Snapshot
import Depot.Project.Name

namespace Depot.Indexing

/-- A project as it is listed, and what is known of it. -/
structure RegisteredProject where
  listedName : String
  snapshot : ProjectSnapshot

/-- A stage of a registry. -/
structure RegisteredStage where
  kind : StageKind
  metadataKeys : List String
  /-- The projects under their normalized names. -/
  projects : Std.ExtTreeMap String RegisteredProject
  offline : Bool := false
  gone : Bool := false

/-- The stages of a snapshot. -/
structure Registry where
  /-- The indexes of each user, as they were when the snapshot was taken
  in. -/
  users : Std.ExtTreeMap String (List String)
  /-- The stages of each user under the names of their indexes. -/
  stages : Std.ExtTreeMap String (Std.ExtTreeMap String RegisteredStage)

/-- The fields that a stage leaves out of documents where they say
nothing, unless the snapshot lists others. -/
def defaultMetadataKeys : List String :=
  ["metadata_version", "name", "version", "platform", "supported_platform", "summary",
   "description", "description_content_type", "keywords", "home_page", "download_url", "author",
   "author_email", "maintainer", "maintainer_email", "license", "classifiers", "requires_dist",
   "provides_dist", "obsoletes_dist", "requires_python", "requires_external", "project_urls",
   "provides_extras"]

namespace Registry

-- ===================================================== from a snapshot

/-- The projects of an index under their normalized names; of listed
names that are the same project, the last one in order counts. -/
def registerProjects (listed : Std.ExtTreeMap String ProjectSnapshot) :
    Std.ExtTreeMap String RegisteredProject :=
  listed.foldl (fun projects name snapshot =>
    projects.insert (Project.normalize name) ⟨name, snapshot⟩) ∅

/-- The stage of an index. -/
def registerStage (index : IndexSnapshot) : RegisteredStage where
  kind := index.kind
  metadataKeys := index.metadataKeys.getD defaultMetadataKeys
  projects := registerProjects index.projects

/-- The registry of a snapshot. -/
def ofSnapshot (snapshot : Snapshot) : Registry where
  users := snapshot.users.map fun _ user => user.indexes.keys
  stages := snapshot.users.map fun _ user => user.indexes.map fun _ index => registerStage index

/-- Reads a snapshot and takes it in. -/
def read (text : String) : Except Json.Fault Registry :=
  (Snapshot.read text).map ofSnapshot

-- ===================================================== stages

/-- The stage of a user and an index, also if it is gone. -/
def lookup (registry : Registry) (user index : String) : Option RegisteredStage :=
  registry.stages[user]?.bind (·[index]?)

/-- The stage of a user and an index, unless it is gone. -/
def live? (registry : Registry) (user index : String) : Option RegisteredStage :=
  (registry.lookup user index).filter fun stage => !stage.gone

/-- Changes a stage, if there is one. -/
def update (registry : Registry) (user index : String)
    (change : RegisteredStage → RegisteredStage) : Registry :=
  match registry.stages[user]?, registry.lookup user index with
  | some indexes, some stage =>
      { registry with stages := registry.stages.insert user (indexes.insert index (change stage)) }
  | _, _ => registry

/-- Removes a stage, and tells whether there was one. -/
def remove (user index : String) : StateM Registry Bool := fun registry =>
  match registry.live? user index with
  | some _ => (true, registry.update user index ({ · with gone := true }))
  | none => (false, registry)

/-- Whether a stage is offline, unless it is gone. -/
def isOffline? (registry : Registry) (user index : String) : Option Bool :=
  (registry.live? user index).map (·.offline)

-- ===================================================== answers

/-- What a stage says, unless it is gone. -/
def alive (registry : Registry) (user index : String) : Except StageError RegisteredStage :=
  match registry.live? user index with
  | some stage => .ok stage
  | none => .error (.gone (stageName user index))

/-- What a stage says of a project. -/
def project (registry : Registry) (user index name : String) : Except StageError ProjectSnapshot :=
  match registry.alive user index with
  | .error e => .error e
  | .ok stage =>
      match stage.projects[name]? with
      | some p => .ok p.snapshot
      | none => .error (.unknownProject (stageName user index) name)

/-- What a stage says of a version. -/
def version (registry : Registry) (user index name version : String) :
    Except StageError VersionSnapshot :=
  match registry.project user index name with
  | .error e => .error e
  | .ok p =>
      match p.versions[version]? with
      | some v => .ok v
      | none => .error (.unknownVersion (stageName user index) name version)

/-- Whether the documentation of a version is there: if nothing is said
of it, it is where there are links to it. -/
def docExists (v : VersionSnapshot) : Bool := v.docExists.getD !v.docLinks.isEmpty

/-- An answer that changes nothing. -/
def answer {α : Type} (f : Registry → α) : StateM Registry α := return f (← get)

/-- Switches a stage offline or online. -/
def setOffline (user index : String) (offline : Bool) : StateM Registry Bool := fun registry =>
  ((registry.lookup user index).any (·.offline),
    registry.update user index ({ · with offline }))

/-- A stage of the registry. -/
def stage (user index : String) (registered : RegisteredStage) : Stage Registry where
  user := user
  index := index
  kind := registered.kind
  listProjects := answer fun r =>
    (r.alive user index).map fun stage => stage.projects.values.map (·.listedName)
  isCached name := answer fun r =>
    (r.alive user index).map fun stage => stage.projects[name]?.any (·.snapshot.cached)
  setOffline := setOffline user index
  listVersions name := answer fun r => (r.project user index name).map (·.versions.keys)
  versionData name version := answer fun r => (r.version user index name version).map (·.metadata)
  docLinks name version := answer fun r => (r.version user index name version).map (·.docLinks)
  docExists name version := answer fun r => (r.version user index name version).map docExists
  metadataKeys := return registered.metadataKeys

/-- The stage of a user and an index, unless it is gone. -/
def stage? (user index : String) : StateM Registry (Option (Stage Registry)) :=
  answer fun r => (r.live? user index).map (stage user index)

/-- The registry as a model. -/
def model : Model Registry where
  usernames := answer (·.users.keys)
  userIndexes user := answer fun r => r.users[user]?.getD []
  stage? := stage?

end Registry

end Depot.Indexing
