/-
The scan over all projects of a model: its users in order, the stages of
each, and the projects of each stage. A scan goes on one project at a
time, and the model may change in between; a stage that is gone by the
time the scan reaches it is passed over.
-/
import Depot.Indexing.Stage
import Depot.Text.Quoted

namespace Depot.Indexing

/-- A project to index, and the stage that lists it. -/
structure Listing (σ : Type) where
  stage : Stage σ
  name : String

namespace Listing

variable {σ : Type}

/-- Whether the project is another server's. -/
def isFromMirror (listing : Listing σ) : Bool := listing.stage.kind = .mirror

/-- The listing in words. -/
def describe (listing : Listing σ) : String :=
  "ProjectIndexingInfo \x7b stage: " ++ Text.quoted listing.stage.name
    ++ ", name: " ++ Text.quoted listing.name ++ " \x7d"

end Listing

/-- How far a scan has come. -/
structure Scan (σ : Type) where
  /-- The users not yet reached. -/
  users : List String
  /-- The user that was reached, and the indexes not yet reached. -/
  user : String := ""
  indexes : List String := []
  /-- The stage that was reached, and its projects not yet listed. -/
  current : Option (Stage σ × List String) := none

namespace Scan

variable {σ : Type}

/-- What a scan comes to next: a project, or a stage that refuses. -/
abbrev Found (σ : Type) := Except StageError (Listing σ)

/-- A scan from the start. -/
def start (model : Model σ) : StateM σ (Scan σ) := return { users := ← model.usernames }

/-- Goes on with the indexes of a user. The scan that is returned stands
behind what was found. -/
def inUser (model : Model σ) (users : List String) (user : String) :
    List String → StateM σ (Option (Found σ × Scan σ))
  | [] => return none
  | index :: indexes => do
      match ← model.stage? user index with
      | none => inUser model users user indexes
      | some stage =>
          match ← stage.listProjects with
          | .ok (name :: names) =>
              return some (.ok ⟨stage, name⟩, ⟨users, user, indexes, some (stage, names)⟩)
          | .ok [] => inUser model users user indexes
          | .error (.gone _) => inUser model users user indexes
          | .error e => return some (.error e, ⟨users, user, indexes, none⟩)

/-- Goes on with the users. -/
def inUsers (model : Model σ) : List String → StateM σ (Option (Found σ × Scan σ))
  | [] => return none
  | user :: users => do
      match ← inUser model users user (← model.userIndexes user) with
      | some found => return some found
      | none => inUsers model users

/-- The next project, and the scan behind it; none at the end, where the
scan stays. -/
def next (model : Model σ) (scan : Scan σ) : StateM σ (Option (Found σ) × Scan σ) := do
  match scan.current with
  | some (stage, name :: names) =>
      return (some (.ok ⟨stage, name⟩), { scan with current := some (stage, names) })
  | _ =>
      match ← inUser model scan.users scan.user scan.indexes with
      | some (found, scan) => return (some found, scan)
      | none =>
          match ← inUsers model scan.users with
          | some (found, scan) => return (some found, scan)
          | none => return (none, ⟨[], scan.user, [], none⟩)

/-- Visits the projects of a stage. -/
def eachProject {α : Type} (visit : Found σ → StateM σ α) (stage : Stage σ) :
    List String → StateM σ (List α)
  | [] => return []
  | name :: names => do
      let a ← visit (.ok ⟨stage, name⟩)
      return a :: (← eachProject visit stage names)

/-- Visits the projects of the indexes of a user. -/
def eachIndex {α : Type} (model : Model σ) (visit : Found σ → StateM σ α) (user : String) :
    List String → StateM σ (List α)
  | [] => return []
  | index :: indexes => do
      let here ← (do
        match ← model.stage? user index with
        | none => return []
        | some stage =>
            match ← stage.listProjects with
            | .ok names => eachProject visit stage names
            | .error (.gone _) => return []
            | .error e => return [← visit (.error e)])
      return here ++ (← eachIndex model visit user indexes)

/-- Visits the projects of users. -/
def eachUser {α : Type} (model : Model σ) (visit : Found σ → StateM σ α) :
    List String → StateM σ (List α)
  | [] => return []
  | user :: users => do
      let here ← eachIndex model visit user (← model.userIndexes user)
      return here ++ (← eachUser model visit users)

/-- Visits everything that a scan comes to, each before the scan goes
on. -/
def forEach {α : Type} (model : Model σ) (visit : Found σ → StateM σ α) : StateM σ (List α) := do
  eachUser model visit (← model.usernames)

end Scan

end Depot.Indexing
