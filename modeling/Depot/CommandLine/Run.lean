/-
Running commands on a machine, and what they write.
-/
import Depot.CommandLine.Arguments
import Depot.CommandLine.Failure
import Depot.CommandLine.Machine
import Depot.Indexing.Registry

namespace Depot.CommandLine

-- ===================================================== output

/-- What a command leaves to be written. -/
inductive Outcome where
  /-- A message for people, and the same in detail. -/
  | message (text : String) (details : Json)
  | content (bytes : Bytes)
  | documents (items : List Json)

/-- A message as JSON. -/
def envelope (verb : Verb) (text : String) (details : Json) : Json :=
  Json.ofMembers
    [("status", .str "ok"), ("command", .str verb.name), ("message", .str text),
     ("details", details)]

/-- What is written. Only messages can be written as JSON. -/
def Outcome.output (verb : Verb) (json : Bool) : Outcome → Bytes
  | message text details =>
      Bytes.ofText ((if json then (envelope verb text details).pretty else text) ++ "\n")
  | content bytes => bytes
  | documents items => Bytes.ofText (String.join (items.map fun item => item.compact ++ "\n"))

-- ===================================================== steps

/-- A step of a command. What a step did to the machine stays done if a
later one fails. -/
abbrev Work := ExceptT Failure (StateM Machine)

namespace Work

/-- A step that may fail. -/
def lift {ε α : Type} (failure : ε → Failure) (result : Except ε α) : Work α :=
  ExceptT.mk (return result.mapError failure)

/-- A step of the store that may fail. -/
def ofStore {α : Type} : Except StoreError α → Work α := lift (.fetch ∘ .store)

/-- Opens the store. -/
def openStore (config : Config) : Work Machine.Mounted := do
  let (m, opened) := (← get).openStore config.serverDir
  set m
  ofStore opened

/-- Commits a transaction. -/
def commit (mounted : Machine.Mounted) (tx : Transaction) : Work UInt64 := do
  let (store, _, result) := tx.commit mounted.store
  modify (·.keep { mounted with store })
  ofStore result

/-- The content of a file. -/
def readFile (path : String) : Work (Except Files.OsError Bytes) :=
  return (← get).readFile path

end Work

open Work

/-- The declared digest of an entry as JSON. -/
def hashJson (entry : Entry) : Json := Json.ofString? entry.record.hash

/-- A serial as JSON. -/
def serialJson (serial : UInt64) : Json := Json.ofNat serial.toNat

/-- The entry of a relpath, which must be there. -/
def entryAt (tx : Transaction) (store : Store) (config : Config) (relpath : String) :
    Work Entry := do
  match ← ofStore (Entry.load tx store config.algo relpath) with
  | some entry => return entry
  | none => throw (.noEntry relpath)

-- ===================================================== commands

/-- Downloads what a link leads to. -/
def fetch (config : Config) (web : Web) (now url : String) : Work Outcome := do
  let link ← lift .link (Link.parse url)
  let mounted ← openStore config
  let store := mounted.store
  let tx ← ofStore (Transaction.start store true)
  let (entry, tx) ← ofStore (Entry.ofLink tx store config.algo link)
  let step := entry.fetch tx web now none
  let _ ← lift .fetch step.result
  let size ← ofStore (step.tx.blobSize store entry.relpath)
  let serial ← commit mounted step.tx
  return .message
    ("cached " ++ entry.relpath ++ " (" ++ toString (size.getD 0) ++ " bytes)")
    (Json.ofMembers
      [("relpath", .str entry.relpath), ("size", Json.ofNat (size.getD 0)),
       ("hash_spec", hashJson step.entry), ("serial", serialJson serial)])

/-- The user and the index that an upload goes to. -/
def uploadTarget? (text : String) : Option (String × String) :=
  (Text.cutString? '/' text).filter fun (user, index) =>
    user ≠ "" && index ≠ "" && !index.toList.contains '/'

/-- Takes in a file as an upload to an index. -/
def upload (config : Config) (now target file : String) : Work Outcome := do
  let some (user, index) := uploadTarget? target | throw (.target target)
  let some basename := Path.fileName? file | throw (.fileName file)
  let content ← lift (.unreadable file) (← readFile file)
  let mounted ← openStore config
  let store := mounted.store
  let tx ← ofStore (Transaction.start store true)
  let (entry, tx) ← ofStore (Entry.upload tx store config.algo now user index basename content)
  let serial ← commit mounted tx
  return .message ("stored " ++ entry.relpath)
    (Json.ofMembers
      [("relpath", .str entry.relpath), ("hash_spec", hashJson entry),
       ("serial", serialJson serial)])

/-- Writes out the content of an artifact. -/
def cat (config : Config) (relpath : String) : Work Outcome := do
  let store := (← openStore config).store
  let tx ← ofStore (Transaction.start store false)
  let entry ← entryAt tx store config relpath
  match ← ofStore (tx.getBlob store entry.relpath) with
  | some content => return .content content
  | none => throw (.noContent relpath)

/-- Removes an artifact. -/
def remove (config : Config) (relpath : String) : Work Outcome := do
  let mounted ← openStore config
  let tx ← ofStore (Transaction.start mounted.store true)
  let entry ← entryAt tx mounted.store config relpath
  let step := entry.delete tx
  let _ ← ofStore step.result
  let serial ← commit mounted step.tx
  return .message ("removed " ++ relpath)
    (Json.ofMembers [("relpath", .str relpath), ("serial", serialJson serial)])

/-- An artifact as a line and in detail. -/
def describeEntry (entry : Entry) (size : Option Nat) : String × Json :=
  (entry.relpath ++ "  " ++ (size.map toString).getD "-",
    Json.ofMembers
      [("relpath", .str entry.relpath), ("size", (size.map Json.ofNat).getD .null),
       ("hash_spec", hashJson entry), ("url", Json.ofString? entry.record.url)])

/-- Lists the artifacts. -/
def list (config : Config) : Work Outcome := do
  let store := (← openStore config).store
  let tx ← ofStore (Transaction.start store false)
  let rows ← (Entry.relpaths tx store).mapM fun relpath => do
    match ← ofStore (Entry.load tx store config.algo relpath) with
    | none => return none
    | some entry =>
        return some (describeEntry entry (← ofStore (tx.blobSize store entry.relpath)))
  let rows := rows.filterMap id
  return .message
    (if rows.isEmpty then "no entries" else Text.joinWith '\n' (rows.map (·.1)))
    (Json.ofMembers [("entries", .arr (rows.map (·.2)))])

/-- The document of what a scan came to; a stage that refuses is passed
over. -/
def documentOf {σ : Type} (found : Indexing.Scan.Found σ) :
    StateM σ (Except Failure (Option Json)) := do
  match found with
  | .error _ => return .ok none
  | .ok listing =>
      match ← Indexing.Document.ofListing listing with
      | .ok doc => return .ok (some doc.toJson)
      | .error cause => return .error (.project listing.name listing.stage.name cause)

/-- The text of the snapshot that a path leads to. -/
def readSnapshot (path : String) : Work String := do
  match ← readFile path with
  | .error cause => throw (.snapshotUnreadable path (.os cause))
  | .ok content =>
      match Bytes.decode? content with
      | some text => return text
      | none => throw (.snapshotUnreadable path .notText)

/-- Writes out the documents of a snapshot. -/
def index (path : String) : Work Outcome := do
  let registry ← lift (.snapshotInvalid path) (Indexing.Registry.read (← readSnapshot path))
  let (documents, _) := (Indexing.Scan.forEach Indexing.Registry.model documentOf).run registry
  let documents ← lift id (documents.mapM id)
  return .documents (documents.filterMap id)

/-- Runs a command. -/
def Command.run (config : Config) (web : Web) (now : String) : Command → Work Outcome
  | .fetch url => CommandLine.fetch config web now url
  | .upload target file => CommandLine.upload config now target file
  | .cat relpath => CommandLine.cat config relpath
  | .remove relpath => CommandLine.remove config relpath
  | .list => CommandLine.list config
  | .index snapshot => CommandLine.index snapshot

/-- The configuration of an invocation. -/
def Invocation.config (invocation : Invocation) (env : Environment) :
    Except ConfigError Config :=
  (Config.ofEnvironment env).map fun config =>
    match invocation.serverDir with
    | some dir => config.withServerDir dir
    | none => config

/-- Runs an invocation on a machine at the time `now`. `network` gives the
web, offline or not. -/
def Invocation.run (invocation : Invocation) (network : Bool → Web) (now : String)
    (m : Machine) : Except Failure Bytes × Machine :=
  match invocation.config m.env with
  | .error cause => (.error (.config cause), m)
  | .ok config =>
      let (result, m) := (invocation.command.run config (network config.offline) now).run.run m
      (result.map (·.output invocation.command.verb invocation.json), m)

end Depot.CommandLine
