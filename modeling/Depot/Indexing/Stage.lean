/-
Stages and models, as the indexer sees them. A stage is one index of one
user and lists projects and their versions; a model is where stages are
found. Both are given by what they answer, and answering may change a
state `σ`: a stage that is asked while it is offline, say, may be one
that keeps a switch in that state.
-/
import Depot.Json.Basic
import Std.Data.ExtTreeMap

namespace Depot.Indexing

/-- Whether a stage holds its own projects or those of another server. -/
inductive StageKind where
  | own
  | mirror
deriving DecidableEq, Repr

/-- The word for a kind. -/
def StageKind.name : StageKind → String
  | own => "local"
  | mirror => "mirror"

/-- The kind that a word stands for. -/
def StageKind.ofName? (s : String) : Option StageKind :=
  [own, mirror].find? fun kind => kind.name = s

/-- Why a stage does not answer. -/
inductive StageError where
  | gone (stage : String)
  | unknownProject (stage project : String)
  | unknownVersion (stage project version : String)
deriving DecidableEq, Repr

/-- The wording of a refusal. -/
def StageError.message : StageError → String
  | gone stage => "[PXM400] stage " ++ stage ++ " no longer exists"
  | unknownProject stage project => "[PXM401] " ++ stage ++ ": unknown project " ++ project
  | unknownVersion stage project version =>
      "[PXM402] " ++ stage ++ ": " ++ project ++ " has no version " ++ version

/-- What is said of a version, or of a document: values under names. -/
abbrev Fields := Std.ExtTreeMap String Json

/-- The name of a stage. -/
def stageName (user index : String) : String := user ++ "/" ++ index

/-- One index of one user. Projects are asked for by their normalized
names. -/
structure Stage (σ : Type) where
  user : String
  index : String
  kind : StageKind
  listProjects : StateM σ (Except StageError (List String))
  /-- Whether a mirror has fetched what it says of a project. -/
  isCached : String → StateM σ (Except StageError Bool)
  /-- Switches the access to the other server off or on, and tells how it
  was before. -/
  setOffline : Bool → StateM σ Bool
  listVersions : String → StateM σ (Except StageError (List String))
  versionData : String → String → StateM σ (Except StageError Fields)
  /-- The archives of the documentation of a version. -/
  docLinks : String → String → StateM σ (Except StageError (List String))
  docExists : String → String → StateM σ (Except StageError Bool)
  /-- The fields that are left out of a document where they say nothing. -/
  metadataKeys : StateM σ (List String)

/-- The name of a stage. -/
def Stage.name {σ : Type} (stage : Stage σ) : String := stageName stage.user stage.index

/-- Where stages are found. -/
structure Model (σ : Type) where
  usernames : StateM σ (List String)
  userIndexes : String → StateM σ (List String)
  /-- The stage of a user and an index; none if it is gone. -/
  stage? : String → String → StateM σ (Option (Stage σ))

end Depot.Indexing
