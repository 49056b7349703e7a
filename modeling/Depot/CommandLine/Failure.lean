/-
Why a command fails. A failure has a chain of causes, outermost first;
what a cause says in words may be left to whoever shows it, where it is a
fault of JSON or of a request.
-/
import Depot.Config
import Depot.Indexing.Document
import Depot.Store.Fetch

namespace Depot.CommandLine

/-- A part of the chain of a failure. -/
inductive Cause where
  | text (s : String)
  | json (fault : Json.Fault)
  /-- The record of a key is not what it should be. -/
  | record (key : String) (fault : Json.Fault)
  /-- A request could not be made. -/
  | request (url : String)
deriving DecidableEq, Repr

/-- What is wrong with a JSON text, in words. -/
def faultText : Json.Fault → String
  | .malformed => "not JSON"
  | .truncated => "JSON that ends too early"
  | .mismatched => "JSON of another shape"

/-- A cause in words. -/
def Cause.message : Cause → String
  | text s => s
  | json fault => faultText fault
  | record key fault => (StoreError.record key fault).message ++ ": " ++ faultText fault
  | request url => (FetchError.request url).message

/-- Why a file of text is not read. -/
inductive ReadFault where
  | os (cause : Files.OsError)
  | notText
deriving DecidableEq, Repr

/-- The fault in words. -/
def ReadFault.message : ReadFault → String
  | os cause => cause.message
  | notText => "stream did not contain valid UTF-8"

/-- A failure of a command. -/
inductive Failure where
  | config (cause : ConfigError)
  | link (cause : LinkError)
  | fetch (cause : FetchError)
  /-- The target of an upload is no index of a user. -/
  | target (text : String)
  /-- A path that ends in no name of a file. -/
  | fileName (path : String)
  | unreadable (path : String) (cause : Files.OsError)
  | noEntry (relpath : String)
  | noContent (relpath : String)
  | snapshotUnreadable (path : String) (cause : ReadFault)
  | snapshotInvalid (path : String) (fault : Json.Fault)
  | project (name stage : String) (cause : Indexing.IndexError)
deriving DecidableEq, Repr

/-- The chain of a refusal of the store. -/
def storeChain : StoreError → List Cause
  | .record key fault => [.record key fault]
  | .io path cause => [.text (StoreError.io path cause).message, .text cause.message]
  | .index cause =>
      [.text (StoreError.index cause).message, .text cause.message, .text cause.kind]
  | cause => [.text cause.message]

/-- The chain of a failed fetch. -/
def fetchChain : FetchError → List Cause
  | .store cause => storeChain cause
  | .request url => [.request url]
  | .stream url cause => [.text (FetchError.stream url cause).message, .text cause]
  | cause => [.text cause.message]

/-- The chain of a failure. -/
def Failure.chain : Failure → List Cause
  | config cause => cause.chain.map .text
  | link cause => [.text cause.message]
  | fetch cause => fetchChain cause
  | target text => [.text ("expected USER/INDEX, got " ++ Text.quoted text)]
  | fileName path => [.text (path ++ " has no usable file name")]
  | unreadable path cause => [.text ("failed to read " ++ path), .text cause.message]
  | noEntry relpath => [.text ("no entry recorded at " ++ relpath)]
  | noContent relpath => [.text (relpath ++ " is recorded but not cached")]
  | snapshotUnreadable path cause =>
      [.text ("failed to read model snapshot " ++ path), .text cause.message]
  | snapshotInvalid path fault => [.text ("invalid model snapshot " ++ path), .json fault]
  | project name stage cause =>
      [.text ("failed to index " ++ name ++ " in " ++ stage), .text cause.message]

end Depot.CommandLine
