/-
URLs, as the parts that their text is made of. Each part is kept in its
escaped form, so writing a URL is joining its parts (`toText`).
-/
import Depot.Url.Host

namespace Depot

namespace Url

/-- Who is asked, and where: the part after `//`. -/
structure Authority where
  username : String := ""
  password : String := ""
  /-- There is none between `//` and the path of `file:///x`. -/
  host : Option String := none
  port : Option Nat := none
deriving DecidableEq, Repr

/-- The path: segments, each with a slash in front, or a text that does
not start with a slash and has no segments. -/
inductive Path where
  | segments (list : List String)
  | rootless (text : String)
deriving DecidableEq, Repr

end Url

/-- An absolute URL. -/
structure Url where
  scheme : String
  authority : Option Url.Authority
  path : Url.Path
  query : Option String
  fragment : Option String
deriving DecidableEq, Repr

namespace Url

/-- The text of a path. -/
def Path.toText : Path → String
  | segments list => String.join (list.map ("/" ++ ·))
  | rootless text => text

/-- The segments of a path that has any. -/
def Path.segments? : Path → Option (List String)
  | segments [] => none
  | segments list => some list
  | rootless _ => none

/-- The text of the user name and password, with the sign that ends it. -/
def Authority.userinfo (a : Authority) : String :=
  if a.username = "" ∧ a.password = "" then ""
  else if a.password = "" then a.username ++ "@"
  else a.username ++ ":" ++ a.password ++ "@"

/-- The text of host and port. -/
def Authority.place (a : Authority) : String :=
  match a.port with
  | some port => a.host.getD "" ++ ":" ++ toString port
  | none => a.host.getD ""

/-- What stands between scheme and path. Without an authority, a path
that starts with two slashes would be read as one; `/.` is put in front
of it. -/
def front (url : Url) : String :=
  match url.authority with
  | some a => "//" ++ a.userinfo ++ a.place
  | none => if Text.startsWith "//" url.path.toText then "/." else ""

/-- The URL without its fragment. -/
def withoutFragment (url : Url) : String :=
  url.scheme ++ ":" ++ url.front ++ url.path.toText
    ++ (match url.query with | some q => "?" ++ q | none => "")

/-- The text of a URL. -/
def toText (url : Url) : String :=
  url.withoutFragment ++ (match url.fragment with | some f => "#" ++ f | none => "")

/-- The URL with another fragment. -/
def withFragment (url : Url) (fragment : String) : Url :=
  { url with fragment := some (String.ofList (encode inFragmentSet fragment.toList)) }

end Url

end Depot
