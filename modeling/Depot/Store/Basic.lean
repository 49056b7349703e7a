/-
A store: an index of records and the files directory beside it. Records
are JSON texts under keys. The contents of files, called blobs, lie on
disk below the files directory, each under its relpath; the index knows
which of them are committed, and a file that it does not know of is no
blob. Each commit that changes something counts one up on the serial.

This module holds what can be done without a transaction: opening a
store and reading its serial.
-/
import Depot.Store.Error
import Depot.Relpath
import Depot.Text.Natural
import Std.Data.ExtTreeMap
import Std.Data.ExtTreeSet

namespace Depot

/-- What has been committed, apart from the contents of files. -/
structure Index where
  /-- The text of each record. -/
  records : Std.ExtTreeMap String String := ∅
  /-- The relpaths that are committed. -/
  blobs : Std.ExtTreeSet String := ∅
  /-- The text of the serial. Where it is missing it counts as zero. -/
  serial : Option String := some "0"

/-- The number of the last commit. -/
def Index.currentSerial (index : Index) : Except StoreError UInt64 :=
  match index.serial with
  | none => .ok 0
  | some text =>
      match Text.natural? text.toList with
      | some n => .ok (UInt64.ofNat n)
      | none => .error (.corruptSerial text)

/-- An index and the files directory beside it. -/
structure Store where
  /-- The path of the directory that holds both. -/
  root : String
  index : Index := {}
  /-- Everything below the files directory. -/
  files : Files.Tree := {}
  /-- The directory that a relative path of the store starts from. -/
  cwd : String := "/"

namespace Store

/-- The name of the files directory. -/
def filesDir : String := "+files"

/-- The path of the files directory. -/
def filesRoot (store : Store) : String := Path.join store.root filesDir

/-- The path of the file that a relpath names. -/
def blobPath (store : Store) (relpath : String) : Except StoreError String :=
  if Relpath.isValid relpath then .ok (Path.join store.filesRoot relpath)
  else .error (.invalidRelpath relpath)

/-- The path of a file beside that of a relpath, in the same directory. -/
def besidePath (store : Store) (relpath name : String) : String :=
  Path.parent (Path.join store.filesRoot relpath) ++ "/" ++ name

/-- The name of a temporary file. Its last six letters are picked at
random, and left open here. -/
def scratchName : String := ".tmp??????"

/-- The path, from the root of all files, of the temporary file that the
content of a blob is written to before it is moved to its place. -/
def scratchPath (store : Store) (relpath : String) : String :=
  Path.join store.cwd (store.besidePath relpath scratchName)

/-- The pieces of a relpath, by which the file is found below the files
directory. -/
def pieces (relpath : String) : List String := Text.split '/' relpath

/-- The number of the last commit. -/
def currentSerial (store : Store) : Except StoreError UInt64 := store.index.currentSerial

/-- Opening a store again gives it a serial if it has none. -/
def reopen (store : Store) : Store :=
  { store with index := { store.index with serial := some (store.index.serial.getD "0") } }

end Store

end Depot
