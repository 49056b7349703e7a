/-
Entries: handles on one artifact each, with a copy of its record. What is
done through a handle changes the copy and the transaction, and is seen
by others once the transaction commits. The key of the record is the
relpath under which the content is kept, with `+files/` in front.
-/
import Depot.Link
import Depot.Mime
import Depot.Store.FileRecord
import Depot.Store.Transaction

namespace Depot

/-- A handle on an artifact. -/
structure Entry where
  relpath : String
  record : FileRecord := {}
  /-- The digest family for content without a declared digest. -/
  defaultAlgo : Digest.Algo
deriving DecidableEq, Repr

/-- What an operation through a handle leaves behind: the handle, the
transaction, and whether it was refused. -/
structure Entry.Step (ε : Type) where
  entry : Entry
  tx : Transaction
  result : Except ε Unit

namespace Entry

/-- What all keys of records start with. -/
def keyLead : String := "+files/"

/-- The key of the record of a relpath. -/
def keyOf (relpath : String) : String := keyLead ++ relpath

/-- The key of the record. -/
def key (e : Entry) : String := keyOf e.relpath

/-- The name of the file. -/
def basename (e : Entry) : String := Relpath.basename e.relpath

/-- The declared digest, if it is one. -/
def hash? (e : Entry) : Option HashSpec :=
  e.record.hash.bind fun raw => (HashSpec.parse raw).toOption

/-- The digest family of the content. -/
def algo (e : Entry) : Digest.Algo := (e.hash?.map (·.algo)).getD e.defaultAlgo

/-- Handles on the same relpath are the same, whatever their records. -/
def isSame (a b : Entry) : Bool := a.relpath == b.relpath

/-- What to serve the content with: type, length and date. -/
def headers (e : Entry) : List (String × String) :=
  [("content-length", e.record.contentLength <|> e.record.size.map toString),
   ("content-type", some (e.record.contentType.getD (Mime.ofName e.basename))),
   ("last-modified", e.record.lastModified)].filterMap
    fun (name, value) => value.map (name, ·)

-- ===================================================== handles

/-- Reads the record of a key. -/
def readRecord (key : String) (value : Json) : Except StoreError FileRecord :=
  match FileRecord.ofJson? value with
  | some record => .ok record
  | none => .error (.record key .mismatched)

/-- The handle on a relpath that has a record. -/
def load (tx : Transaction) (store : Store) (algo : Digest.Algo) (relpath : String) :
    Except StoreError (Option Entry) :=
  match tx.get store (keyOf relpath) with
  | .error e => .error e
  | .ok none => .ok none
  | .ok (some value) =>
      (readRecord (keyOf relpath) value).map fun record => some ⟨relpath, record, algo⟩

/-- The handle on a relpath, which is new if there is no record. -/
def loadOrNew (tx : Transaction) (store : Store) (algo : Digest.Algo) (relpath : String) :
    Except StoreError Entry :=
  (load tx store algo relpath).map (·.getD ⟨relpath, {}, algo⟩)

/-- The record with what a link declares, and the link's URL if there was
none. -/
def describedBy (link : Link) (r : FileRecord) : FileRecord :=
  { r with
    hash := (link.hash.map HashSpec.toText) <|> r.hash
    egg := link.egg <|> r.egg
    url := r.url <|> some link.withoutFragment }

/-- The transaction with the record of the handle in it. -/
def persist (e : Entry) (tx : Transaction) : Except StoreError Transaction :=
  tx.set e.key e.record.toJson

/-- The handle on what a link leads to; nothing is fetched. The record is
written only if it says something new and the transaction may write. -/
def ofLink (tx : Transaction) (store : Store) (algo : Digest.Algo) (link : Link) :
    Except StoreError (Entry × Transaction) :=
  match load tx store algo link.relpath with
  | .error e => .error e
  | .ok found =>
      let old := (found.map (·.record)).getD {}
      let entry : Entry := ⟨link.relpath, describedBy link old, algo⟩
      if tx.writable ∧ (found.isNone ∨ entry.record ≠ old) then
        (entry.persist tx).map (entry, ·)
      else .ok (entry, tx)

/-- The relpaths that have a record, in order. -/
def relpaths (tx : Transaction) (store : Store) : List String :=
  (tx.keys store keyLead).filterMap fun key =>
    (Text.dropLead? keyLead.toList key.toList).map String.ofList

-- ===================================================== operations

/-- Writes the record of the handle. -/
def save (e : Entry) (tx : Transaction) : Step StoreError :=
  match e.persist tx with
  | .ok tx => ⟨e, tx, .ok ()⟩
  | .error err => ⟨e, tx, .error err⟩

/-- Declares the digest, or none. -/
def setHash (e : Entry) (tx : Transaction) (spec : Option HashSpec) : Step StoreError :=
  save { e with record := { e.record with hash := spec.map HashSpec.toText } } tx

/-- Sets where the content comes from. -/
def setUrl (e : Entry) (tx : Transaction) (url : String) : Step StoreError :=
  save { e with record := { e.record with url := some url } } tx

/-- Sets the date of the content. -/
def setLastModified (e : Entry) (tx : Transaction) (date : String) : Step StoreError :=
  save { e with record := { e.record with lastModified := some date } } tx

/-- Sets the content, and its size and date in the record. -/
def setContent (e : Entry) (tx : Transaction) (content : Bytes) (date : String) :
    Step StoreError :=
  let e := { e with
    record := { e.record with size := some content.length, lastModified := some date } }
  match tx.setBlob e.relpath content with
  | .ok tx => save e tx
  | .error err => ⟨e, tx, .error err⟩

/-- Deletes the content. The record stays, without the sizes. -/
def deleteContent (e : Entry) (tx : Transaction) : Step StoreError :=
  match tx.deleteBlob e.relpath with
  | .ok tx => save { e with record := { e.record with size := none, contentLength := none } } tx
  | .error err => ⟨e, tx, .error err⟩

/-- Deletes the record and then the content. -/
def delete (e : Entry) (tx : Transaction) : Step StoreError :=
  match tx.delete e.key with
  | .error err => ⟨e, tx, .error err⟩
  | .ok tx =>
      match tx.deleteBlob e.relpath with
      | .ok tx => ⟨e, tx, .ok ()⟩
      | .error err => ⟨e, tx, .error err⟩

/-- Whether an upload may go under these names. -/
def isUpload (user index basename : String) : Bool :=
  [user, index, basename].all Relpath.isPlainName

/-- Takes in an upload to an index, under the digest of its content. -/
def upload (tx : Transaction) (store : Store) (algo : Digest.Algo) (now : String)
    (user index basename : String) (content : Bytes) : Except StoreError (Entry × Transaction) :=
  if !isUpload user index basename then
    .error (.invalidRelpath (user ++ "/" ++ index ++ "/" ++ basename))
  else
    let spec := HashSpec.ofContent algo content
    match loadOrNew tx store algo (Relpath.ofUpload user index spec basename) with
    | .error e => .error e
    | .ok e =>
        let e := { e with record := { e.record with hash := some spec.toText } }
        let step := e.setContent tx content now
        step.result.map fun _ => (step.entry, step.tx)

end Entry

end Depot
