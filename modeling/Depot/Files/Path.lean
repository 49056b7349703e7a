/-
The text of paths. A path is names with slashes between; empty pieces and
single points say nothing except at its front.
-/
import Depot.Text.Split

namespace Depot.Path

/-- Whether a path starts at the root of all files. -/
def isAbsolute (path : String) : Bool := path.toList.head? = some '/'

/-- The path that leads to `path` from the directory `base`. -/
def join (base path : String) : String :=
  if isAbsolute path ∨ base = "" then path
  else if base.toList.getLast? = some '/' then base ++ path
  else base ++ "/" ++ path

/-- Whether a piece of a path says nothing. -/
def isIdle (piece : String) : Bool := piece = "" || piece = "."

/-- The pieces of a path up to its last name, last one first. -/
def namesBackwards (path : String) : List String :=
  (Text.split '/' path).reverse.dropWhile isIdle

/-- The directory of a path that has two names or more. -/
def parent (path : String) : String :=
  Text.joinWith '/' ((namesBackwards path).tail.dropWhile isIdle).reverse

/-- The last name of a path, if it is one. -/
def fileName? (path : String) : Option String :=
  match namesBackwards path with
  | name :: _ => if name = ".." then none else some name
  | [] => none

/-- How many octets a path may have, slashes and all. -/
def maxText : Nat := 4095

-- ===================================================== components

/-- A step that a path says to take. -/
inductive Component where
  /-- Start at the root of all files. -/
  | root
  /-- Start here. -/
  | here
  | up
  | name (name : String)
deriving DecidableEq, Repr

/-- The step that a piece says to take, if it says one. -/
def Component.ofPiece (piece : String) : Component := if piece = ".." then .up else .name piece

/-- Whether a component is a plain name. -/
def Component.isName : Component → Bool
  | .name _ => true
  | _ => false

/-- The components of a path. Empty pieces say nothing, and neither do
points, except the one at the front of a path that does not start at the
root. -/
def components (path : String) : List Component :=
  let pieces := Text.split '/' path
  let steps := (pieces.filter fun piece => !isIdle piece).map Component.ofPiece
  if isAbsolute path then .root :: steps
  else if pieces.head? = some "." then .here :: steps
  else steps

end Depot.Path
