/-
Why the store refuses. Each refusal keeps what it is about, so that its
wording is a function of the value.
-/
import Depot.Files.Tree
import Depot.Json.Reader

namespace Depot

/-- Why the index is of no use. -/
inductive IndexFault where
  /-- What should be the index file cannot be opened. -/
  | unopenable (path : String)
  /-- The index file holds something else. -/
  | notIndex
  /-- A transaction that has ended was to commit. -/
  | ended
  /-- Another held the index all the time that was waited for it. -/
  | busy
deriving DecidableEq, Repr

/-- The fault in words. -/
def IndexFault.message : IndexFault → String
  | unopenable path => "unable to open database file: " ++ path
  | notIndex => "file is not a database"
  | ended => "cannot commit - no transaction is active"
  | busy => "database is locked"

/-- The kind of fault, in words. -/
def IndexFault.kind : IndexFault → String
  | unopenable _ => "Error code 14: Unable to open the database file"
  | notIndex => "Error code 26: File opened that is not a database file"
  | ended => "Error code 1: SQL logic error"
  | busy => "Error code 5: The database file is locked"

/-- A refusal of the store. -/
inductive StoreError where
  /-- A write in a transaction that may only read. -/
  | readOnly
  /-- The index cannot be opened, or is asked for what it cannot do. -/
  | index (cause : IndexFault)
  /-- The operating system refuses an operation on a path. -/
  | io (path : String) (cause : Files.OsError)
  /-- The record of a key is not what it should be. -/
  | record (key : String) (fault : Json.Fault)
  /-- The stored serial is no number. -/
  | corruptSerial (text : String)
  /-- The relpath could lead out of the files directory. -/
  | invalidRelpath (relpath : String)
deriving DecidableEq, Repr

/-- The wording of a refusal. -/
def StoreError.message : StoreError → String
  | readOnly => "[PXM100] write attempted in a read-only transaction"
  | index cause => "[PXM101] keyfs index error: " ++ cause.message
  | io path cause => "[PXM102] keyfs i/o failed at " ++ path ++ ": " ++ cause.message
  | record key _ => "[PXM103] keyfs record " ++ key ++ " is not valid json"
  | corruptSerial text => "[PXM104] keyfs serial is corrupt: '" ++ text ++ "'"
  | invalidRelpath relpath =>
      "[PXM105] relpath '" ++ relpath ++ "' does not name a file under +files"

end Depot
