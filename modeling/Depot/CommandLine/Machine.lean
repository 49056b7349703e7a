/-
The machine that commands run on: its environment, its disk, and the
indexes of the stores on the disk. A store is where its server directory
is. Its files directory is part of the disk; its index is kept in a file
beside it. Of that file the disk only tells that it is there: it is an
empty file on the disk, whatever is committed, and what is read from it is
the index that `Machine.indexes` has for its place. A file with anything in
it counts as no index.
-/
import Depot.Config
import Depot.Store.Transaction

namespace Depot

/-- A machine. -/
structure Machine where
  env : Environment
  disk : Files.Tree := .empty
  /-- The indexes by the places of their server directories. -/
  indexes : Std.ExtTreeMap Files.Place Index := ∅

/-- A store, and the place of its server directory. -/
structure Machine.Mounted where
  place : Files.Place
  store : Store

namespace Machine

/-- The pieces of a path, from the top of the disk. -/
def pieces (m : Machine) (path : String) : List String :=
  Text.split '/' (Path.join m.env.cwd path)

/-- The content of the file that a path leads to. -/
def readFile (m : Machine) (path : String) : Except Files.OsError Bytes :=
  Files.reach path (m.disk.read (m.pieces path))

/-- The path of a place. -/
def pathOf (place : Files.Place) : String := "/" ++ Text.joinWith '/' place

/-- The name of the file that an index is kept in. -/
def indexFile : String := "keyfs.sqlite"

/-- The place of the index file of a server directory. -/
def indexPlace (place : Files.Place) : Files.Place := place ++ [indexFile]

/-- How many octets the path of an index file may have: with what is put
behind it to name its journal it has 512 at most. -/
def maxIndexPath : Nat := 504

/-- Whether an index file cannot be opened because its path is too long. -/
def isTooDeep (place : Files.Place) : Bool :=
  maxIndexPath < (pathOf (indexPlace place)).utf8ByteSize

/-- The place of the files directory of a server directory. -/
def filesPlace (place : Files.Place) : Files.Place := place ++ [Store.filesDir]

/-- The machine with a file at a path, and the directories that lead to
it. -/
def addFile (m : Machine) (path : String) (content : Bytes) : Machine :=
  let pieces := m.pieces path
  match m.disk.makeDirs pieces.dropLast with
  | (disk, .ok place) => { m with disk := disk.put (place ++ pieces.getLast?.toList) content }
  | (disk, .error _) => { m with disk }

/-- The machine with an index in a server directory. -/
def addIndex (m : Machine) (dir : String) (index : Index) : Machine :=
  match m.disk.makeDirs (m.pieces dir) with
  | (disk, .ok place) =>
      { m with
        disk := disk.put (indexPlace place) []
        indexes := m.indexes.insert place index }
  | (disk, .error _) => { m with disk }

/-- Puts a store on the disk. -/
def keep (m : Machine) (mounted : Mounted) : Machine :=
  { m with
    disk := m.disk.graft (filesPlace mounted.place) mounted.store.files
    indexes := m.indexes.insert mounted.place mounted.store.index }

/-- The store in a server directory, as the disk has it. The path `dir`
is kept with the store. -/
def mount (m : Machine) (dir : String) (place : Files.Place) : Mounted where
  place := place
  store :=
    Store.reopen
      { root := dir
        index := m.indexes[place]?.getD {}
        files := m.disk.below (filesPlace place)
        cwd := m.env.cwd }

/-- The store in a server directory that is there, with its files
directory. An index file that was not there is a new index, and one that
holds something else is refused. -/
def attach (m : Machine) (dir : String) (place : Files.Place) :
    Machine × Except StoreError Mounted :=
  let unopenable := StoreError.index (.unopenable (Path.join dir indexFile))
  if isTooDeep place then (m, .error unopenable)
  else
    match m.disk.node? (indexPlace place) with
    | none =>
        let m := { m with
          disk := m.disk.put (indexPlace place) []
          indexes := m.indexes.erase place }
        (m, .ok (m.mount dir place))
    | some (.file []) => (m, .ok (m.mount dir place))
    | some (.file _) => (m, .error (.index .notIndex))
    | some .dir => (m, .error unopenable)

/-- Opens the store in a server directory. What is missing of it is
made. -/
def openStore (m : Machine) (dir : String) : Machine × Except StoreError Mounted :=
  let filesPath := Path.join dir Store.filesDir
  match Files.refusal? filesPath with
  | some cause => (m, .error (.io filesPath cause))
  | none =>
      match m.disk.makeDirs (m.pieces filesPath) with
      | (disk, .error cause) => ({ m with disk }, .error (.io filesPath cause))
      | (disk, .ok files) => attach { m with disk } dir files.dropLast

end Machine

end Depot
