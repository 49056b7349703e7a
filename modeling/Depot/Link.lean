/-
Download links as an index page publishes them: a URL whose last path
segment is the file's name. The fragment may declare the digest of the
content (`#sha256=…`) or mark the link with an egg name (`#egg=…`), in
parts with `&` between; of parts that declare the same thing the last
counts, and parts that declare nothing known are passed over.
-/
import Depot.Relpath
import Depot.Url.Parse

namespace Depot

/-- A download link. -/
structure Link where
  url : Url
  hash : Option HashSpec
  egg : Option String
deriving DecidableEq, Repr

namespace Link

/-- What a fragment declares. -/
structure Marks where
  hash : Option HashSpec := none
  egg : Option String := none
deriving DecidableEq, Repr

/-- Takes in one part of the fragment of the link `raw`. -/
def Marks.read (raw : String) (marks : Marks) (part : String) : Except LinkError Marks :=
  match Text.cutString? '=' part with
  | none => .ok marks
  | some (key, value) =>
      if key = "egg" then
        if value = "" then .error (.emptyEgg raw) else .ok { marks with egg := some value }
      else if Digest.isName key then
        match HashSpec.parse part with
        | .ok spec => .ok { marks with hash := some spec }
        | .error e => .error e
      else .ok marks

/-- What the fragment of the link `raw` declares, if it has one. -/
def Marks.ofFragment (raw : String) (fragment : Option String) : Except LinkError Marks :=
  match fragment with
  | none => .ok {}
  | some text => (Text.split '&' text).foldlM (Marks.read raw) {}

/-- The name of the file that a URL leads to; it may be empty. -/
def basenameOf (url : Url) : String :=
  Url.decodeText ((url.path.segments?.bind List.getLast?).getD "")

/-- Reads a link. -/
def parse (raw : String) : Except LinkError Link :=
  match Url.parse raw with
  | .error fault => .error (.invalidUrl raw fault.reason)
  | .ok url =>
      match Marks.ofFragment raw url.fragment with
      | .error e => .error e
      | .ok marks =>
          let name := basenameOf url
          if name = "" then .error (.missingBasename raw)
          else if Relpath.isPlainName name then .ok ⟨url, marks.hash, marks.egg⟩
          else .error (.unsafeBasename name)

/-- The text of the link. -/
def toText (link : Link) : String := link.url.toText

/-- The link without its fragment. -/
def withoutFragment (link : Link) : String := link.url.withoutFragment

/-- The name of the file. -/
def basename (link : Link) : String := basenameOf link.url

/-- Host and directories that lead to the file. -/
def dirs (link : Link) : List String :=
  let place := match link.url.authority with
    | some a => if a.host.isSome then [a.place] else []
    | none => []
  let above := (link.url.path.segments?.getD []).dropLast
  place ++ (above.filter (· ≠ "")).map Url.decodeText

/-- The link that declares this digest and nothing else. -/
def withHash (link : Link) (spec : HashSpec) : Link :=
  ⟨link.url.withFragment spec.toText, some spec, none⟩

/-- Where the content of the link is kept. -/
def relpath (link : Link) : String :=
  match link.hash with
  | some spec => Relpath.ofHash spec link.basename
  | none => Relpath.ofDirs link.dirs link.basename

end Link

end Depot
