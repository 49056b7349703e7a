/-
Fetching: the content of an entry is downloaded, compared with what the
response and the entry declare of it, and only then taken in. Content of
the wrong size or digest is taken for damage at the source, so what the
entry had before is deleted as well; any other failure leaves the entry
as it was.
-/
import Depot.Store.Entry
import Depot.Text.Blank

namespace Depot

/-- What a response says of its body, as far as it is kept. -/
structure ResponseHeaders where
  contentLength : Option String := none
  lastModified : Option String := none
  contentType : Option String := none
deriving DecidableEq, Repr

/-- What reading on in a body may yield. -/
inductive BodyEvent where
  /-- Some octets; none of them means that the body has ended. -/
  | data (bytes : Bytes)
  /-- Nothing, but reading may go on. -/
  | interrupted
  /-- The connection failed. -/
  | failed (cause : String)
deriving DecidableEq, Repr

/-- A response. A body ends after its last event, if not before. -/
structure Response where
  status : Nat
  headers : ResponseHeaders := {}
  body : List BodyEvent := []
deriving DecidableEq, Repr

/-- Why content is not taken in. -/
inductive FetchError where
  | status (url : String) (code : Nat)
  /-- The request could not be made. -/
  | request (url : String)
  /-- The body broke off. -/
  | stream (url cause : String)
  | sizeMismatch (url : String) (expected received : Nat)
  | digestMismatch (relpath algo expected actual : String)
  | offline (url : String)
  /-- The entry does not say where its content comes from. -/
  | missingUrl (relpath : String)
  | store (cause : StoreError)
deriving DecidableEq, Repr

/-- The wording of a failure. -/
def FetchError.message : FetchError → String
  | status url code =>
      "[PXM200] fetching " ++ url ++ " failed with HTTP status " ++ toString code
  | request url => "[PXM201] request to " ++ url ++ " failed"
  | stream url cause => "[PXM201] reading response from " ++ url ++ " failed: " ++ cause
  | sizeMismatch url expected received =>
      "[PXM202] " ++ url ++ ": content-length " ++ toString expected ++ " does not match "
        ++ toString received ++ " bytes received"
  | digestMismatch relpath algo expected actual =>
      "[PXM203] " ++ relpath ++ ": " ++ algo ++ " digest mismatch (expected " ++ expected
        ++ ", got " ++ actual ++ ")"
  | offline url => "[PXM204] refusing to fetch " ++ url ++ " while offline"
  | missingUrl relpath => "[PXM205] " ++ relpath ++ " has no upstream url"
  | store cause => cause.message

/-- The web: what each URL is answered with. -/
abbrev Web := String → Except FetchError Response

/-- The web as a machine without a network finds it. Offline, it is not
even asked. -/
def Web.unreachable (offline : Bool) : Web := fun url =>
  .error (if offline then .offline url else .request url)

namespace Download

/-- How many octets one read yields at most. -/
def bufferSize : Nat := 64 * 1024

/-- The portions that a piece of a body is read in. -/
def portions : Nat → Bytes → List Bytes
  | 0, _ => []
  | fuel + 1, bytes =>
      if bytes.length ≤ bufferSize then [bytes]
      else bytes.take bufferSize :: portions fuel (bytes.drop bufferSize)

/-- What has been read of a body: the digest in progress, the portions,
last one first, and how many octets there are. -/
structure Progress where
  hasher : Digest.Hasher
  portions : List Bytes := []
  received : Nat := 0

/-- Takes in one portion. -/
def Progress.add (p : Progress) (portion : Bytes) : Progress :=
  ⟨p.hasher.update portion, portion :: p.portions, p.received + portion.length⟩

/-- Everything read. -/
def Progress.content (p : Progress) : Bytes := p.portions.reverse.flatten

/-- Reads a body to its end, or to a failure. -/
def readBody : Progress → List BodyEvent → Progress × Option String
  | p, [] => (p, none)
  | p, .data [] :: _ => (p, none)
  | p, .data (b :: bs) :: rest =>
      readBody ((portions (bs.length + 1) (b :: bs)).foldl Progress.add p) rest
  | p, .interrupted :: rest => readBody p rest
  | p, .failed cause :: _ => (p, some cause)

end Download

/-- Content that is as it should be, its digest, and what the response
said of it. -/
structure Download where
  content : Bytes
  digest : String
  headers : ResponseHeaders
deriving DecidableEq, Repr

namespace Entry

/-- The size that a response declares, if it is a number. -/
def declaredSize (headers : ResponseHeaders) : Option Nat :=
  headers.contentLength.bind fun text => Text.natural? (Text.trim text.toList)

/-- Whether a response has a body to take in. -/
def isSuccess (status : Nat) : Bool := 200 ≤ status && status < 300

/-- Reads a response and compares it with what was declared. -/
def check (e : Entry) (url : String) (response : Response) : Except FetchError Download :=
  if !isSuccess response.status then .error (.status url response.status)
  else
    let expected := declaredSize response.headers
    let (progress, failure) :=
      Download.readBody { hasher := e.algo.hasher } response.body
    let received := progress.received
    match failure, expected with
    | some cause, some n =>
        if received < n then .error (.sizeMismatch url n received) else .error (.stream url cause)
    | some cause, none => .error (.stream url cause)
    | none, expected =>
        if expected.any (· ≠ received) then
          .error (.sizeMismatch url (expected.getD 0) received)
        else
          let digest := progress.hasher.finishHex
          match e.hash? with
          | some spec =>
              if digest = spec.value then .ok ⟨progress.content, digest, response.headers⟩
              else .error (.digestMismatch e.relpath spec.algo.name spec.value digest)
          | none => .ok ⟨progress.content, digest, response.headers⟩

/-- Asks for a URL and checks what comes. -/
def download (e : Entry) (web : Web) (url : String) : Except FetchError Download :=
  match web url with
  | .error err => .error err
  | .ok response => e.check url response

/-- The part of a URL that is sent. -/
def withoutFragment (url : String) : String :=
  match Text.cutString? '#' url with
  | some (before, _) => before
  | none => url

/-- Whether a failure says that the content at the source is damaged. -/
def isDamage : FetchError → Bool
  | .sizeMismatch .. => true
  | .digestMismatch .. => true
  | _ => false

/-- The URL that a fetch asks for: the one given, else the recorded one. -/
def target (e : Entry) (tx : Transaction) (url : Option String) : Except FetchError String :=
  match url <|> e.record.url with
  | none => .error (.missingUrl e.relpath)
  | some url => if tx.writable then .ok (withoutFragment url) else .error (.store .readOnly)

/-- The record with what a download says of its content. -/
def withDownload (e : Entry) (url : String) (d : Download) : Entry :=
  { e with
    record := { e.record with
      contentType := d.headers.contentType <|> e.record.contentType
      contentLength := d.headers.contentLength <|> e.record.contentLength
      hash :=
        if e.record.hash.isNone ∧ e.record.egg.isNone then some (e.algo.name ++ "=" ++ d.digest)
        else e.record.hash
      url := some url } }

/-- What an operation leaves behind when it is part of a fetch. -/
def Step.inFetch (step : Step StoreError) : Step FetchError :=
  ⟨step.entry, step.tx, step.result.mapError .store⟩

/-- Downloads the content from the URL given, else from the recorded one,
and takes it in. A date that the response does not give stays, and is
`now` if there was none. -/
def fetch (e : Entry) (tx : Transaction) (web : Web) (now : String)
    (url : Option String) : Step FetchError :=
  match e.target tx url with
  | .error err => ⟨e, tx, .error err⟩
  | .ok url =>
      match e.download web url with
      | .error err =>
          if isDamage err then
            let step := (e.deleteContent tx).inFetch
            { step with result := step.result.bind fun _ => .error err }
          else ⟨e, tx, .error err⟩
      | .ok d =>
          let date := (d.headers.lastModified <|> e.record.lastModified).getD now
          ((e.withDownload url d).setContent tx d.content date).inFetch

end Entry

end Depot
