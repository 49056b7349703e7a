/-
Snapshots: users, their indexes, and the projects and versions of these,
written as JSON. What a snapshot does not say has a default.
-/
import Depot.Indexing.Stage
import Depot.Json.Record

namespace Depot.Indexing

/-- What a snapshot says of a version. -/
structure VersionSnapshot where
  metadata : Fields := ∅
  /-- The archives of its documentation. -/
  docLinks : List String := []
  /-- Whether the documentation is there. -/
  docExists : Option Bool := none

/-- What a snapshot says of a project. -/
structure ProjectSnapshot where
  cached : Bool := true
  versions : Std.ExtTreeMap String VersionSnapshot := ∅

/-- What a snapshot says of an index. -/
structure IndexSnapshot where
  kind : StageKind := .own
  metadataKeys : Option (List String) := none
  projects : Std.ExtTreeMap String ProjectSnapshot := ∅

/-- The indexes of a user. -/
structure UserSnapshot where
  indexes : Std.ExtTreeMap String IndexSnapshot := ∅

/-- The indexes of all users. -/
structure Snapshot where
  users : Std.ExtTreeMap String UserSnapshot := ∅

namespace Snapshot

open Json.Reader

/-- How many arrays and objects a value of the metadata of a version is
inside of. -/
def metadataDepth : Nat := 10

/-- The fields of a version. -/
def versionFields (fuel : Nat) : List (RecordField VersionSnapshot) :=
  [⟨"metadata", fun v => return { v with
      metadata := ← mapOf fuel (value fuel (Json.maxDepth - metadataDepth)) }⟩,
   ⟨"doczip", fun v => return { v with docLinks := ← listOf fuel (text fuel) }⟩,
   ⟨"doczip_exists", fun v => return { v with docExists := ← optional (flag fuel) }⟩]

/-- The fields of a project. -/
def projectFields (fuel : Nat) : List (RecordField ProjectSnapshot) :=
  [⟨"cached", fun p => return { p with cached := ← flag fuel }⟩,
   ⟨"versions", fun p => return { p with
      versions := ← mapOf fuel (record fuel (versionFields fuel) {}) }⟩]

/-- The fields of an index. -/
def indexFields (fuel : Nat) : List (RecordField IndexSnapshot) :=
  [⟨"type", fun i => return { i with kind := ← choice fuel StageKind.ofName? }⟩,
   ⟨"metadata_keys", fun i => return { i with
      metadataKeys := ← optional (listOf fuel (text fuel)) }⟩,
   ⟨"projects", fun i => return { i with
      projects := ← mapOf fuel (record fuel (projectFields fuel) {}) }⟩]

/-- The fields of a user. -/
def userFields (fuel : Nat) : List (RecordField UserSnapshot) :=
  [⟨"indexes", fun u => return { u with
      indexes := ← mapOf fuel (record fuel (indexFields fuel) {}) }⟩]

/-- The fields of a snapshot. -/
def fields (fuel : Nat) : List (RecordField Snapshot) :=
  [⟨"users", fun s => return { s with
      users := ← mapOf fuel (record fuel (userFields fuel) {}) }⟩]

/-- Reads a snapshot. -/
def read (text : String) : Except Json.Fault Snapshot :=
  run (fun fuel => record fuel (fields fuel) {}) text

end Snapshot

end Depot.Indexing
