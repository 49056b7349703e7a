/-
Content types, guessed from the end of a file's name. What is not known
is a stream of octets.
-/
import Depot.Mime.Types
import Depot.Text.Ascii
import Depot.Text.Split

namespace Depot.Mime

/-- The type of what is not known. -/
def octetStream : String := "application/octet-stream"

/-- What follows the last point of a name, if there is a point after its
first character. -/
def suffix? (name : String) : Option String :=
  match (Text.split '.' name).reverse with
  | suffix :: stem :: more => if more.isEmpty ∧ stem = "" then none else some suffix
  | _ => none

/-- The content type that an ending of names stands for, in whatever
letters it is written. -/
def ofSuffix? (suffix : String) : Option String :=
  (knownTypes.find? fun (_, suffixes) => suffixes.contains (Text.folded suffix)).map (·.1)

/-- The content type of a file of this name. -/
def ofName (name : String) : String := ((suffix? name).bind ofSuffix?).getD octetStream

end Depot.Mime
