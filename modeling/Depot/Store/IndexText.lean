/-
The text that an index is kept as between two runs of a program: a JSON
object of the records, the relpaths that are committed, and the serial.
-/
import Depot.Store.Basic
import Depot.Json.Printer

namespace Depot.Index

/-- The index as JSON. -/
def toJson (index : Index) : Json :=
  Json.ofMembers
    [("records", .obj (index.records.toList.map fun (key, text) => (key, .str text))),
     ("blobs", Json.ofStrings index.blobs.toList),
     ("serial", Json.ofString? index.serial)]

/-- The records of an index. -/
def records? : Json → Option (Std.ExtTreeMap String String)
  | .obj members => do
      let texts ← members.mapM fun (key, value) => value.string?.map (key, ·)
      return .ofList texts
  | _ => none

/-- The serial of an index. -/
def serial? : Json → Option (Option String)
  | .null => some none
  | .str text => some (some text)
  | _ => none

/-- The index that a JSON value says. -/
def ofJson? (value : Json) : Option Index := do
  let records ← records? (← value.member? "records")
  let blobs ← (← (← value.member? "blobs").items?).mapM Json.string?
  let serial ← serial? (← value.member? "serial")
  return { records, blobs := .ofList blobs, serial }

/-- The text of an index. -/
def toText (index : Index) : String := index.toJson.compact ++ "\n"

/-- The index of a text. -/
def ofText? (text : String) : Option Index := (Json.read text).toOption.bind ofJson?

end Depot.Index
