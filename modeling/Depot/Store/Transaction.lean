/-
Transactions. A transaction reads the index as it was when it began,
overlaid with its own changes, which are kept aside until it commits.
Committing has two steps that others can come between: `publish` puts the
new files in place and then makes the new index the current one, and
`sweep` removes the files of blobs that were deleted.

The contents of files are not kept with the index. Publishing first
stages every file, which makes its directories and there a temporary file,
and then moves the files to their places one after the other in the order
of their relpaths; if one cannot be moved, those before it stay moved while
the index stays as it was. No temporary file is left in any case, so a
store has none; staging only asks that there could be one.

Beginning can fail for more than what is committed: the index may be held
by another for too long, or not be opened. Such a failure is an input, as
`fault`.
-/
import Depot.Store.Basic
import Depot.Json.Printer
import Depot.Text.Quoted

namespace Depot

/-- A unit of work on a store. -/
structure Transaction where
  writable : Bool
  /-- The serial that the transaction began at, or ended with. -/
  serial : UInt64
  /-- The index as it was when the transaction began. A transaction that
  has ended sees the current one. -/
  view : Option Index
  /-- The records that are set, and those that are deleted. -/
  records : Std.ExtTreeMap String (Option Json) := ∅
  /-- The blobs that are set, and those that are deleted. -/
  blobs : Std.ExtTreeMap String (Option Bytes) := ∅

namespace Transaction

/-- Starts a transaction on what is committed now, unless the index is of
no use. -/
def start (store : Store) (writable : Bool) (fault : Option IndexFault := none) :
    Except StoreError Transaction :=
  match fault with
  | some cause => .error (.index cause)
  | none =>
      match store.currentSerial with
      | .ok serial => .ok { writable, serial, view := some store.index }
      | .error e => .error e

/-- The index that the transaction reads. -/
def observed (tx : Transaction) (store : Store) : Index := tx.view.getD store.index

/-- Whether there are changes to commit. -/
def hasChanges (tx : Transaction) : Bool := !(tx.records.isEmpty && tx.blobs.isEmpty)

-- ===================================================== records

/-- Reads the text of a record. -/
def readRecord (key text : String) : Except StoreError Json :=
  match Json.read text with
  | .ok value => .ok value
  | .error fault => .error (.record key fault)

/-- The record of a key, if there is one. -/
def get (tx : Transaction) (store : Store) (key : String) : Except StoreError (Option Json) :=
  match tx.records[key]? with
  | some pending => .ok pending
  | none =>
      match (tx.observed store).records[key]? with
      | none => .ok none
      | some text => (readRecord key text).map some

/-- Whether a key has a record. -/
def hasRecord (tx : Transaction) (store : Store) (key : String) : Except StoreError Bool :=
  (tx.get store key).map Option.isSome

/-- Changes the record of a key, or deletes it. -/
def change (tx : Transaction) (key : String) (value : Option Json) :
    Except StoreError Transaction :=
  if tx.writable then .ok { tx with records := tx.records.insert key value }
  else .error .readOnly

/-- Sets the record of a key. -/
def set (tx : Transaction) (key : String) (value : Json) : Except StoreError Transaction :=
  tx.change key (some value)

/-- Deletes the record of a key. -/
def delete (tx : Transaction) (key : String) : Except StoreError Transaction :=
  tx.change key none

/-- Whether committed keys can be found by what they start with: a text
with a NUL finds none. -/
def findsCommitted (lead : String) : Bool := !lead.toList.contains '\x00'

/-- The changed records from the key `lead` on, as long as their keys start
with it. -/
def changedFrom (tx : Transaction) (lead : String) : List (String × Option Json) :=
  (tx.records.toList.dropWhile fun (k, _) => k < lead).takeWhile fun (k, _) =>
    Text.startsWith lead k

/-- The keys that start with `lead`, in order. -/
def keys (tx : Transaction) (store : Store) (lead : String) : List String :=
  let committed := (tx.observed store).records.keys.filter fun k =>
    findsCommitted lead && Text.startsWith lead k
  ((tx.changedFrom lead).foldl
    (fun found (k, v) => if v.isSome then found.insert k else found.erase k)
    (Std.ExtTreeSet.ofList committed)).toList

-- ===================================================== blobs

/-- Whether a relpath was committed. A relpath that names no file is
refused. -/
def isCommitted (tx : Transaction) (store : Store) (relpath : String) : Except StoreError Bool :=
  match store.blobPath relpath with
  | .ok _ => .ok ((tx.observed store).blobs.contains relpath)
  | .error e => .error e

/-- Whether there is a blob at a relpath. -/
def hasBlob (tx : Transaction) (store : Store) (relpath : String) : Bool :=
  match tx.blobs[relpath]? with
  | some pending => pending.isSome
  | none =>
      match tx.isCommitted store relpath with
      | .ok true =>
          (Files.refusal? (Path.join store.filesRoot relpath)).isNone
            && store.files.isFile (Store.pieces relpath)
      | _ => false

/-- What is found at the path of a committed relpath; a file that is
missing is no failure. -/
def onDisk {α : Type} (tx : Transaction) (store : Store) (relpath : String)
    (look : List String → Except Files.OsError (Option α)) : Except StoreError (Option α) :=
  match tx.isCommitted store relpath with
  | .error e => .error e
  | .ok false => .ok none
  | .ok true =>
      let path := Path.join store.filesRoot relpath
      match Files.reach path (look (Store.pieces relpath)) with
      | .ok found => .ok found
      | .error .notFound => .ok none
      | .error cause => .error (.io path cause)

/-- The content of the blob at a relpath, if there is one. -/
def getBlob (tx : Transaction) (store : Store) (relpath : String) :
    Except StoreError (Option Bytes) :=
  match tx.blobs[relpath]? with
  | some pending => .ok pending
  | none => tx.onDisk store relpath fun path => (store.files.read path).map some

/-- The size of the blob at a relpath, if there is one. -/
def blobSize (tx : Transaction) (store : Store) (relpath : String) :
    Except StoreError (Option Nat) :=
  match tx.blobs[relpath]? with
  | some pending => .ok (pending.map List.length)
  | none => tx.onDisk store relpath store.files.size

/-- Changes the blob at a relpath, or deletes it. -/
def changeBlob (tx : Transaction) (relpath : String) (content : Option Bytes) :
    Except StoreError Transaction :=
  if !tx.writable then .error .readOnly
  else if Relpath.isValid relpath then
    .ok { tx with blobs := tx.blobs.insert relpath content }
  else .error (.invalidRelpath relpath)

/-- Sets the content of the blob at a relpath. -/
def setBlob (tx : Transaction) (relpath : String) (content : Bytes) :
    Except StoreError Transaction :=
  tx.changeBlob relpath (some content)

/-- Deletes the blob at a relpath. -/
def deleteBlob (tx : Transaction) (relpath : String) : Except StoreError Transaction :=
  tx.changeBlob relpath none

-- ===================================================== commit

/-- The blobs that are set, in the order of their relpaths. -/
def staged (tx : Transaction) : List (String × Bytes) :=
  tx.blobs.toList.filterMap fun (relpath, content) => content.map (relpath, ·)

/-- The relpaths of the blobs that are deleted. -/
def removals (tx : Transaction) : List String :=
  tx.blobs.toList.filterMap fun (relpath, content) =>
    if content.isNone then some relpath else none

/-- The index with the changes of the transaction in it. -/
def overlay (tx : Transaction) (index : Index) : Index where
  records := tx.records.foldl (fun records key value =>
    match value with
    | some v => records.insert key v.compact
    | none => records.erase key) index.records
  blobs := tx.blobs.foldl (fun blobs relpath content =>
    if content.isSome then blobs.insert relpath else blobs.erase relpath) index.blobs
  serial := index.serial.map fun _ => toString (tx.serial + 1)

/-- The pieces of the directory of a relpath. -/
def parentPieces (relpath : String) : List String :=
  ((Path.namesBackwards relpath).tail.dropWhile Path.isIdle).reverse

/-- Does something to a store for each of a list, one after the other, up to
the first for which it fails. -/
def inTurn {α : Type} (act : Store → α → Store × Except StoreError Unit) (store : Store) :
    List α → Store × Except StoreError Unit
  | [] => (store, .ok ())
  | x :: rest =>
      match act store x with
      | (store, .ok ()) => inTurn act store rest
      | (store, .error e) => (store, .error e)

/-- Makes the directory of a blob, in which the path of its temporary file
has to be taken. -/
def stage (store : Store) (blob : String × Bytes) : Store × Except StoreError Unit :=
  let dir := Path.parent (Path.join store.filesRoot blob.1)
  match Files.refusal? dir with
  | some cause => (store, .error (.io dir cause))
  | none =>
      match store.files.makeDirs (parentPieces blob.1) with
      | (files, .error cause) => ({ store with files }, .error (.io dir cause))
      | (files, .ok _) =>
          let path := store.scratchPath blob.1
          match Files.refusal? path with
          | some cause => ({ store with files }, .error (.io dir (.onPath path cause)))
          | none => ({ store with files }, .ok ())

/-- Stages the blobs. -/
def stageAll (store : Store) (blobs : List (String × Bytes)) : Store × Except StoreError Unit :=
  inTurn stage store blobs

/-- Moves a blob to its place. -/
def move (store : Store) (blob : String × Bytes) : Store × Except StoreError Unit :=
  let path := Path.join store.filesRoot blob.1
  match Files.reach path (store.files.moveInto (Store.pieces blob.1) blob.2) with
  | .ok files => ({ store with files }, .ok ())
  | .error cause => (store, .error (.io path cause))

/-- Moves the blobs to their places. -/
def moveAll (store : Store) (blobs : List (String × Bytes)) : Store × Except StoreError Unit :=
  inTurn move store blobs

/-- Makes the changes of the transaction what is committed. A transaction
that has ended before writes its changes to the index at once, and is
then refused. -/
def publish (tx : Transaction) (store : Store) : Store × Except StoreError UInt64 :=
  if !tx.hasChanges then
    (store, if tx.view.isSome then .ok tx.serial else .error (.index .ended))
  else
    match stageAll store tx.staged with
    | (store, .error e) => (store, .error e)
    | (store, .ok ()) =>
        let index := tx.overlay (tx.observed store)
        let store := if tx.view.isSome then store else { store with index }
        match moveAll store tx.staged with
        | (store, .error e) => (store, .error e)
        | (store, .ok ()) =>
            if tx.view.isSome then ({ store with index }, .ok (tx.serial + 1))
            else (store, .error (.index .ended))

/-- Removes the files of relpaths, where there are any. -/
def sweep (store : Store) (relpaths : List String) : Store :=
  let reached := relpaths.filter fun relpath =>
    (Files.refusal? (Path.join store.filesRoot relpath)).isNone
  { store with
    files := reached.foldl (fun files relpath => files.removeFile (Store.pieces relpath))
      store.files }

/-- The transaction without its changes, after it has ended. -/
def ended (tx : Transaction) (serial : UInt64) : Transaction :=
  { writable := tx.writable, serial, view := none }

/-- Commits: publishes the changes and sweeps up. A refused commit leaves
the transaction as it was. -/
def commit (tx : Transaction) (store : Store) :
    Store × Transaction × Except StoreError UInt64 :=
  match tx.publish store with
  | (store, .error e) => (store, tx, .error e)
  | (store, .ok serial) => (sweep store tx.removals, tx.ended serial, .ok serial)

/-- Gives the changes up. -/
def rollback (tx : Transaction) : Transaction := tx.ended tx.serial

/-- Goes on as a new transaction on what is committed now, in place of
`tx`, which has ended. -/
def startOver (tx : Transaction) (store : Store) (writable : Bool)
    (fault : Option IndexFault := none) : Transaction × Except StoreError UInt64 :=
  match start store writable fault with
  | .ok fresh => (fresh, .ok fresh.serial)
  | .error e => (tx, .error e)

/-- Goes on as a transaction that writes. One that wrote commits first;
one that read gives up nothing but its view. -/
def restartAsWrite (tx : Transaction) (store : Store) (fault : Option IndexFault := none) :
    Store × Transaction × Except StoreError UInt64 :=
  if tx.writable then
    match tx.commit store with
    | (store, tx, .error e) => (store, tx, .error e)
    | (store, tx, .ok _) => (store, tx.startOver store true fault)
  else (store, tx.rollback.startOver store true fault)

/-- Goes on as a transaction that reads, without the changes. -/
def restartAsRead (tx : Transaction) (store : Store) (fault : Option IndexFault := none) :
    Transaction × Except StoreError UInt64 :=
  tx.rollback.startOver store false fault

/-- The transaction in words. -/
def describe (tx : Transaction) (store : Store) : String :=
  "Transaction \x7b root: " ++ Text.quoted store.root
    ++ ", write: " ++ toString tx.writable
    ++ ", serial: " ++ toString tx.serial
    ++ ", pending_records: " ++ toString tx.records.size
    ++ ", pending_files: " ++ toString tx.blobs.size ++ " \x7d"

end Transaction

end Depot
