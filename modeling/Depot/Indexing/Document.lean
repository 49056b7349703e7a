/-
The document that the search index is fed for a project. A mirror that
has not fetched a project yet says only its name and where it is. All
other projects are described by the newest version; the documentation is
that of the newest version that links to any. While a stage is asked for
this it is offline, and afterwards it is as it was before.
-/
import Depot.Indexing.Scan
import Depot.Project.Name
import Depot.Project.Version

namespace Depot.Indexing

/-- Where the documentation of a project is. -/
structure Docs where
  stage : String
  project : String
  version : String
deriving DecidableEq, Repr

/-- A document. -/
structure Document where
  fields : Fields
  docs : Option Docs := none

/-- Why there is no document. -/
inductive IndexError where
  | stage (cause : StageError)
  /-- A version without documentation came behind the one whose
  documentation was taken. -/
  | docOrder (project version docVersion : String)
deriving DecidableEq, Repr

/-- The wording of a failure. -/
def IndexError.message : IndexError → String
  | stage cause => cause.message
  | docOrder project version docVersion =>
      "[PXM410] " ++ project ++ ": version " ++ version
        ++ " has no doc link after doc_version " ++ docVersion ++ " was recorded"

namespace Document

variable {σ : Type}

/-- The name that a document gives. -/
def name? (doc : Document) : Option String := doc.fields["name"]?.bind Json.string?

/-- The place of the documentation as JSON. -/
def docsJson (docs : Docs) : Json :=
  Json.ofMembers
    [("stage", .str docs.stage), ("project", .str docs.project), ("version", .str docs.version)]

/-- The field that the documentation is put under. -/
def docsKey : String := "+doczip"

/-- The document as one JSON object. -/
def toJson (doc : Document) : Json :=
  let fields := match doc.docs with
    | some docs => doc.fields.insert docsKey (docsJson docs)
    | none => doc.fields
  .obj fields.toList

/-- Whether a value says nothing. -/
def isBlank : Json → Bool
  | .null => true
  | .bool b => !b
  | .num n => n.isZero
  | .str s => s = "" || s = "UNKNOWN"
  | .arr items => items.isEmpty
  | .obj members => members.isEmpty

/-- The fields with those of `more` set, too. -/
def extend (fields more : Fields) : Fields :=
  more.foldl (fun fields key value => fields.insert key value) fields

/-- The fields without those of the keys that say nothing. -/
def strip (fields : Fields) (keys : List String) : Fields :=
  keys.foldl
    (fun fields key => if fields[key]?.any isBlank then fields.erase key else fields) fields

/-- The fields that say where a project is. -/
def locate (fields : Fields) (stage : Stage σ) : Fields :=
  (fields.insert "user" (.str stage.user)).insert "index" (.str stage.index)

/-- A question to a stage as a step that may fail. -/
def ask {α : Type} (question : StateM σ (Except StageError α)) : ExceptT IndexError (StateM σ) α :=
  ExceptT.mk (return (← question).mapError .stage)

/-- Goes through the versions, newest first, up to the first one that
links to documentation. The newest one says the fields. -/
def visit (stage : Stage σ) (project : String) :
    Bool → Document → List String → ExceptT IndexError (StateM σ) Document
  | _, doc, [] => return doc
  | newest, doc, version :: older => do
      let doc ← (do
        if newest then
          return { doc with
            fields := extend doc.fields (← ask (stage.versionData project version)) }
        else return doc)
      let links ← ask (stage.docLinks project version)
      if !links.isEmpty then
        if ← ask (stage.docExists project version) then
          return {
            fields := doc.fields.insert "doc_version" (.str version)
            docs := some ⟨stage.name, project, version⟩ }
        else return doc
      else
        match doc.docs with
        | some docs => throw (.docOrder project version docs.version)
        | none => visit stage project false doc older

/-- The document of a project that the stage answers for. -/
def describe (stage : Stage σ) (project : String) : ExceptT IndexError (StateM σ) Document := do
  let versions ← ask (stage.listVersions project)
  let start : Document := { fields := (∅ : Fields).insert "name" (.str project) }
  let doc ← visit stage project true start (Project.newestFirst versions)
  let keys ← ExceptT.lift stage.metadataKeys
  return { doc with fields := strip (locate doc.fields stage) keys }

/-- The document of a project of which nothing is known but its name. -/
def stub (stage : Stage σ) (project : String) : Document where
  fields := locate ((∅ : Fields).insert "name" (.str project)) stage

/-- Does something while a stage is offline. -/
def whileOffline {α : Type} (stage : Stage σ) (action : StateM σ α) : StateM σ α := do
  let before ← stage.setOffline true
  let a ← action
  let _ ← stage.setOffline before
  return a

/-- The document of a project. -/
def ofListing (listing : Listing σ) : StateM σ (Except IndexError Document) := do
  let stage := listing.stage
  let project := Project.normalize listing.name
  let described := whileOffline stage (describe stage project).run
  if stage.kind = .mirror then
    match ← stage.isCached project with
    | .error e => return .error (.stage e)
    | .ok true => described
    | .ok false => return .ok (stub stage project)
  else described

end Document

end Depot.Indexing
