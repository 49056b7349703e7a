/-
What the index keeps of an artifact beside its content. As JSON it is an
object of the fields that have a value; an array of the fields in order,
from which the last ones may be missing, is read, too.
-/
import Depot.Json.Basic

namespace Depot

/-- The record of an artifact. -/
structure FileRecord where
  /-- The digest that the content is expected to have. -/
  hash : Option String := none
  /-- Where the content comes from. -/
  url : Option String := none
  /-- The egg name of the link. -/
  egg : Option String := none
  lastModified : Option String := none
  size : Option Nat := none
  contentType : Option String := none
  contentLength : Option String := none
deriving DecidableEq, Repr

namespace FileRecord

/-- The record as a JSON object. -/
def toJson (r : FileRecord) : Json :=
  Json.ofMembers <|
    [("hash_spec", r.hash.map Json.str), ("url", r.url.map Json.str),
     ("eggfragment", r.egg.map Json.str), ("last_modified", r.lastModified.map Json.str),
     ("size", r.size.map Json.ofNat), ("content_type", r.contentType.map Json.str),
     ("content_length", r.contentLength.map Json.str)].filterMap
      fun (name, value) => value.map (name, ·)

/-- A field that holds text, if it has a value. -/
def text? : Json → Option (Option String)
  | .null => some none
  | .str s => some (some s)
  | _ => none

/-- A field that holds a size, if it has a value. -/
def size? : Json → Option (Option Nat)
  | .null => some none
  | v => v.nat?.map some

/-- The record with these fields, in order. -/
def ofFields? : List Json → Option FileRecord
  | [hash, url, egg, lastModified, size, contentType, contentLength] => do
      some
        { hash := ← text? hash
          url := ← text? url
          egg := ← text? egg
          lastModified := ← text? lastModified
          size := ← size? size
          contentType := ← text? contentType
          contentLength := ← text? contentLength }
  | _ => none

/-- The names of the fields, in order. -/
def fieldNames : List String :=
  ["hash_spec", "url", "eggfragment", "last_modified", "size", "content_type", "content_length"]

/-- Reads a record. -/
def ofJson? : Json → Option FileRecord
  | .obj members => ofFields? (fieldNames.map fun name => (members.lookup name).getD .null)
  | .arr items => ofFields? (items ++ List.replicate (fieldNames.length - items.length) .null)
  | _ => none

end FileRecord

end Depot
