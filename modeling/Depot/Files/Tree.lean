/-
Directories and files on a disk, as far as a depot can tell them apart: a
`Tree` says what each path of names leads to, and its operations refuse
what an operating system refuses, for the same reasons and in the same
order. A refused operation leaves the tree as it was, except that
`makeDirs` keeps the directories it has made.

A part of a tree is a tree of its own (`below`) and can be put back
(`graft`): `getElem?_below`, `getElem?_graft_below` and
`getElem?_graft_outside` say what is where.
-/
import Std.Data.ExtTreeMap
import Depot.Bytes
import Depot.Files.Path
import Depot.Text.Quoted

namespace Depot.Files

/-- Why the operating system refuses. -/
inductive OsError where
  | notFound
  | busy
  | exists
  | notDirectory
  | isDirectory
  | nameTooLong
  /-- A path has a NUL, with which names end. -/
  | nulInName
  /-- A refusal that tells its path. -/
  | onPath (path : String) (cause : OsError)
deriving DecidableEq, Repr

/-- The refusal in words. -/
def OsError.message : OsError → String
  | notFound => "No such file or directory (os error 2)"
  | busy => "Device or resource busy (os error 16)"
  | «exists» => "File exists (os error 17)"
  | notDirectory => "Not a directory (os error 20)"
  | isDirectory => "Is a directory (os error 21)"
  | nameTooLong => "File name too long (os error 36)"
  | nulInName => "file name contained an unexpected NUL byte"
  | onPath path cause => cause.message ++ " at path " ++ Text.quoted path

/-- Why no operation takes a path, wherever it would lead. -/
def refusal? (path : String) : Option OsError :=
  if path.toList.contains '\x00' then some .nulInName
  else if Path.maxText < path.utf8ByteSize then some .nameTooLong
  else none

/-- What an operation on a path comes to, if the path is taken at all. -/
def reach {α : Type} (path : String) (result : Except OsError α) : Except OsError α :=
  match refusal? path with
  | some e => .error e
  | none => result

/-- What a path leads to. -/
inductive Node where
  | dir
  | file (content : Bytes)
deriving DecidableEq, Repr

/-- The names that lead to a place, from the top of the tree. -/
abbrev Place := List String

/-- Everything below a directory, which itself is the place `[]`. -/
structure Tree where
  nodes : Std.ExtTreeMap Place Node := ∅

namespace Tree

/-- No file and no directory. -/
def empty : Tree := {}

/-- What is at a place. -/
def node? (t : Tree) (place : Place) : Option Node :=
  if place = [] then some .dir else t.nodes[place]?

/-- The content of the file at a place. -/
def file? (t : Tree) (place : Place) : Option Bytes :=
  match t.node? place with
  | some (.file content) => some content
  | _ => none

/-- The tree with a file at a place. -/
def put (t : Tree) (place : Place) (content : Bytes) : Tree :=
  ⟨t.nodes.insert place (.file content)⟩

/-- How many octets a name may have. -/
def maxName : Nat := 255

/-- One step along a path, from the place that was reached. -/
def step (t : Tree) (place : Place) (piece : String) : Except OsError Place :=
  if t.node? place ≠ some .dir then .error .notDirectory
  else if Path.isIdle piece then .ok place
  else if piece = ".." then .ok place.dropLast
  else if maxName < piece.utf8ByteSize then .error .nameTooLong
  else if (t.node? (place ++ [piece])).isSome then .ok (place ++ [piece])
  else .error .notFound

/-- The place that the pieces of a path lead to. -/
def walk (t : Tree) (pieces : List String) : Except OsError Place :=
  pieces.foldlM t.step []

/-- Whether a path leads to a file. -/
def isFile (t : Tree) (pieces : List String) : Bool :=
  match t.walk pieces with
  | .ok place => (t.file? place).isSome
  | .error _ => false

/-- The content of the file that a path leads to. -/
def read (t : Tree) (pieces : List String) : Except OsError Bytes :=
  match t.walk pieces with
  | .error e => .error e
  | .ok place =>
      match t.file? place with
      | some content => .ok content
      | none => .error .isDirectory

/-- The size of the file that a path leads to; a directory has none. -/
def size (t : Tree) (pieces : List String) : Except OsError (Option Nat) :=
  match t.walk pieces with
  | .error e => .error e
  | .ok place => .ok ((t.file? place).map List.length)

/-- One step of `makeDirs`: a directory that is missing is made. A file
in its place is no directory to go on from, and no directory. -/
def makeStep (last : Bool) (state : Tree × Place) (piece : String) :
    Tree × Except OsError Place :=
  let (t, place) := state
  match t.step place piece with
  | .ok next =>
      if last ∧ t.node? next ≠ some .dir then (t, .error .exists) else (t, .ok next)
  | .error .notFound => (⟨t.nodes.insert (place ++ [piece]) .dir⟩, .ok (place ++ [piece]))
  | .error e => (t, .error e)

/-- Makes the directories along a path, starting from a place. -/
def makeDirsFrom (t : Tree) (place : Place) : List String → Tree × Except OsError Place
  | [] => (t, .ok place)
  | piece :: rest =>
      match makeStep rest.isEmpty (t, place) piece with
      | (t, .error e) => (t, .error e)
      | (t, .ok next) => makeDirsFrom t next rest

/-- Makes the directories along a path; those made stay, also if a later
one cannot be made. -/
def makeDirs (t : Tree) (pieces : List String) : Tree × Except OsError Place :=
  makeDirsFrom t [] pieces

/-- The pieces of a path without slashes at its end, last one first, and
whether there were any. -/
def dropSlashes (pieces : List String) : List String × Bool :=
  match pieces.reverse with
  | "" :: above => (above.dropWhile (· = ""), true)
  | names => (names, false)

/-- Moves a finished file to where a path leads, in place of the file that
is there. -/
def moveInto (t : Tree) (pieces : List String) (content : Bytes) : Except OsError Tree :=
  match dropSlashes pieces with
  | ([], _) => .error .busy
  | (name :: above, slash) =>
      match t.walk above.reverse with
      | .error e => .error e
      | .ok dir =>
          if t.node? dir ≠ some .dir then .error .notDirectory
          else if name = "." ∨ name = ".." then .error .busy
          else if maxName < name.utf8ByteSize then .error .nameTooLong
          else if slash then .error .notDirectory
          else if t.node? (dir ++ [name]) = some .dir then .error .isDirectory
          else .ok (t.put (dir ++ [name]) content)

/-- Removes the file that a path leads to. What is no file stays. -/
def removeFile (t : Tree) (pieces : List String) : Tree :=
  match t.walk pieces with
  | .ok place => if (t.file? place).isSome then ⟨t.nodes.erase place⟩ else t
  | .error _ => t

/-- All files, each with the names that lead to it, in the order of these. -/
def files (t : Tree) : List (Place × Bytes) :=
  t.nodes.toList.filterMap fun (place, node) =>
    match node with
    | .file content => some (place, content)
    | .dir => none

-- ===================================================== parts of a tree

/-- How a place is reached from the directory `top`, if it is below it. -/
def relative? : Place → Place → Option Place
  | [], [] => none
  | [], name :: rest => some (name :: rest)
  | _ :: _, [] => none
  | x :: top, y :: place => if x = y then relative? top place else none

theorem relative?_eq_some {top place rest : Place} :
    relative? top place = some rest ↔ place = top ++ rest ∧ rest ≠ [] := by
  induction top generalizing place with
  | nil => cases place with
    | nil => simp [relative?]
    | cons y place => simp only [relative?, Option.some.injEq, List.nil_append]; grind
  | cons x top ih => cases place with
    | nil => simp [relative?]
    | cons y place => simp only [relative?]; grind

/-- What is below a place, as a tree of its own. -/
def below (t : Tree) (top : Place) : Tree :=
  ⟨Std.ExtTreeMap.ofList (t.nodes.toList.filterMap fun (place, node) =>
    (relative? top place).map (·, node))⟩

/-- The tree with everything below a place replaced by another tree. -/
def graft (t : Tree) (top : Place) (sub : Tree) : Tree :=
  ⟨(t.nodes.filter fun place _ => (relative? top place).isNone).insertMany
    (sub.nodes.toList.map fun (place, node) => (top ++ place, node))⟩

/-- What is below a place is what lies behind it. -/
theorem getElem?_below (t : Tree) (top : Place) {rest : Place} (h : rest ≠ []) :
    (t.below top).nodes[rest]? = t.nodes[top ++ rest]? := by
  have distinct : List.Pairwise (fun a b : Place × Node => ¬compare a.1 b.1 = .eq)
      (t.nodes.toList.filterMap fun (place, node) => (relative? top place).map (·, node)) := by
    refine List.Pairwise.filterMap _ ?_ t.nodes.distinct_keys_toList
    intro a b hab a' ha b' hb
    simp only [Option.map_eq_some_iff, relative?_eq_some] at ha hb
    obtain ⟨p, ⟨hp, -⟩, rfl⟩ := ha
    obtain ⟨q, ⟨hq, -⟩, rfl⟩ := hb
    simp only [Std.LawfulEqCmp.compare_eq_iff_eq] at hab ⊢
    rintro rfl
    exact hab (hp.trans hq.symm)
  cases found : t.nodes[top ++ rest]? with
  | some node =>
      refine Std.ExtTreeMap.getElem?_ofList_of_mem Std.ReflCmp.compare_self distinct ?_
      refine List.mem_filterMap.2 ⟨(top ++ rest, node), ?_, ?_⟩
      · exact Std.ExtTreeMap.mem_toList_iff_getElem?_eq_some.2 found
      · simp [relative?_eq_some.2 ⟨rfl, h⟩]
  | none =>
      refine Std.ExtTreeMap.getElem?_ofList_of_contains_eq_false ?_
      simp only [List.contains_eq_mem, List.mem_map, List.mem_filterMap, Option.map_eq_some_iff,
        decide_eq_false_iff_not]
      rintro ⟨_, ⟨⟨place, node⟩, mem, rest', hr, rfl⟩, rfl⟩
      obtain ⟨rfl, -⟩ := relative?_eq_some.1 hr
      rw [Std.ExtTreeMap.mem_toList_iff_getElem?_eq_some.1 mem] at found
      cases found

/-- Below the place there is the other tree. -/
theorem getElem?_graft_below (t : Tree) (top : Place) (sub : Tree) {rest : Place} (h : rest ≠ []) :
    (t.graft top sub).nodes[top ++ rest]? = sub.nodes[rest]? := by
  have distinct : List.Pairwise (fun a b : Place × Node => ¬compare a.1 b.1 = .eq)
      (sub.nodes.toList.map fun (place, node) => (top ++ place, node)) := by
    refine List.pairwise_map.2 (sub.nodes.distinct_keys_toList.imp ?_)
    intro a b hab
    simpa using hab
  cases found : sub.nodes[rest]? with
  | some node =>
      refine Std.ExtTreeMap.getElem?_insertMany_list_of_mem Std.ReflCmp.compare_self distinct ?_
      exact List.mem_map.2 ⟨(rest, node),
        Std.ExtTreeMap.mem_toList_iff_getElem?_eq_some.2 found, rfl⟩
  | none =>
      rw [graft, Std.ExtTreeMap.getElem?_insertMany_list_of_contains_eq_false]
      · simp [Std.ExtTreeMap.getElem?_filter, relative?_eq_some.2 ⟨rfl, h⟩]
      · simp only [List.contains_eq_mem, List.mem_map, decide_eq_false_iff_not]
        rintro ⟨_, ⟨⟨place, node⟩, mem, rfl⟩, eq⟩
        obtain rfl := List.append_cancel_left eq
        rw [Std.ExtTreeMap.mem_toList_iff_getElem?_eq_some.1 mem] at found
        cases found

/-- Elsewhere there is what was there. -/
theorem getElem?_graft_outside (t : Tree) (top : Place) (sub : Tree) {place : Place}
    (h : ¬top <+: place) : (t.graft top sub).nodes[place]? = t.nodes[place]? := by
  have outside : relative? top place = none := by
    cases hr : relative? top place with
    | none => rfl
    | some rest => exact absurd ⟨rest, (relative?_eq_some.1 hr).1.symm⟩ h
  rw [graft, Std.ExtTreeMap.getElem?_insertMany_list_of_contains_eq_false]
  · rw [Std.ExtTreeMap.getElem?_filter]
    simp only [Std.ExtTreeMap.getKey_eq, outside, Option.isNone_none, Option.pfilter_eq_filter]
    cases t.nodes[place]? <;> rfl
  · simp only [List.contains_eq_mem, List.mem_map, decide_eq_false_iff_not]
    rintro ⟨_, ⟨⟨inner, node⟩, -, rfl⟩, rfl⟩
    exact h ⟨inner, rfl⟩

end Tree

end Depot.Files
