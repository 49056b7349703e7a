/-
Reading an absolute URL. Blanks at both ends are dropped first, and tabs and
line breaks count for nothing, with one exception in the path of a file; what
is left is read from front to back, part by part.

A few schemes are special: their host is a domain that must be there, a
backslash is a slash to them, and they have a default port, which is not
kept. The scheme `file` is special too and needs no host.
-/
import Depot.Url.Basic

namespace Depot.Url

/-- What the scheme says of the rest of a URL. -/
inductive Kind where
  | special
  | file
  | plain
deriving DecidableEq, Repr

/-- Whether a backslash is a slash. -/
def Kind.isSpecial (k : Kind) : Bool := k != .plain

/-- The port that a scheme stands for. -/
def defaultPort? : String → Option Nat
  | "http" => some 80
  | "ws" => some 80
  | "https" => some 443
  | "wss" => some 443
  | "ftp" => some 21
  | _ => none

/-- The kind of a scheme. -/
def Kind.ofScheme (scheme : String) : Kind :=
  if scheme = "file" then .file
  else if (defaultPort? scheme).isSome then .special
  else .plain

/-- Whether `c` separates segments. -/
def isSlash (k : Kind) (c : Char) : Bool := c = '/' || (k.isSpecial && c = '\\')

/-- Whether `c` ends the path. -/
def endsPath (c : Char) : Bool := c = '?' || c = '#'

/-- The text without blanks and controls at its ends. -/
def trimmed (s : List Char) : List Char :=
  let isBlank := fun (c : Char) => c.toNat ≤ 0x20
  ((s.dropWhile isBlank).reverse.dropWhile isBlank).reverse

/-- Tabs and line breaks, which a URL has none of. -/
def isBreak (c : Char) : Bool := c = '\t' || c = '\n' || c = '\r'

/-- The text without tabs and line breaks. -/
def unbroken (s : List Char) : List Char := s.filter (!isBreak ·)

-- ===================================================== scheme

/-- Whether `c` may stand in a scheme after its first letter. -/
def inScheme (c : Char) : Bool := c.isAlphanum || ['+', '-', '.'].contains c

/-- The scheme in lower case, and what follows the colon. -/
def scheme? (s : List Char) : Option (String × List Char) :=
  let (name, rest) := s.span inScheme
  match name, rest with
  | c :: _, ':' :: rest =>
      if c.isAlpha then some (String.ofList (name.map Char.toLower), rest) else none
  | _, _ => none

-- ===================================================== authority

/-- Whether `c` ends the authority. -/
def endsAuthority (k : Kind) (c : Char) : Bool := isSlash k c || endsPath c

/-- What stands before and after the last at sign, if there is one. -/
def lastAt? (s : List Char) : Option (List Char × List Char) :=
  (Text.cut? '@' s.reverse).map fun (after, before) => (before.reverse, after.reverse)

/-- The user name and the password, escaped. -/
def userinfo (s : List Char) : String × String :=
  let encoded := fun part => String.ofList (encode inUserinfoSet part)
  match Text.cut? ':' s with
  | some (name, password) => (encoded name, encoded password)
  | none => (encoded s, "")

/-- Cuts the host off: it ends at the first colon that is not inside
brackets. -/
def spanHost : Bool → List Char → List Char × List Char
  | _, [] => ([], [])
  | inside, c :: rest =>
      if c = ':' ∧ !inside then ([], c :: rest)
      else
        let inside := if c = '[' then true else if c = ']' then false else inside
        let (host, rest) := spanHost inside rest
        (c :: host, rest)

/-- A port number; none for no digits. -/
def portNumber (digits : List Char) : Except UrlFault (Option Nat) :=
  if digits.isEmpty then .ok none
  else
    match digits.foldlM (fun n c => do
        let n := n * 10 + (← Text.digitValue? c)
        if n ≤ 65535 then some n else none) 0 with
    | some n => .ok (some n)
    | none => .error .invalidPort

/-- The port after a host, unless it is the one that the scheme stands
for, and what is left. A backslash ends a port, too. -/
def readPort (scheme : String) (s : List Char) : Except UrlFault (Option Nat × List Char) :=
  match s with
  | ':' :: s =>
      let (digits, rest) := s.span (· ≠ '\\')
      match portNumber digits with
      | .error e => .error e
      | .ok n => .ok (if n = defaultPort? scheme then none else n, rest)
  | s => .ok (none, s)

/-- The host, if it is not empty, in the spelling of its kind. -/
def host? (k : Kind) (s : List Char) : Except UrlFault (Option String) :=
  if s.isEmpty then (if k = .plain then .ok none else .error .emptyHost)
  else
    match (if k = .plain then plainHost s else domain s) with
    | .error e => .error e
    | .ok host => .ok (some host)

/-- The authority, from the text after `//`, and what is left of that
text. `last` says that the URL ends here. -/
def readAuthority (k : Kind) (scheme : String) (last : Bool) (s : List Char) :
    Except UrlFault (Authority × List Char) := do
  let (credentials, place) := match lastAt? s with
    | some (before, after) => (some before, after)
    | none => (none, s)
  if credentials = some [] ∧ place.isEmpty ∧ !last then throw .emptyHost
  let (username, password) := userinfo (credentials.getD [])
  let (name, rest) := spanHost false place
  let host ← host? k name
  if host = none ∧ !rest.isEmpty then throw .emptyHost
  let (port, rest) ← readPort scheme rest
  if host = none ∧ (username ≠ "" ∨ password ≠ "") then throw .emptyHost
  return ({ username, password, host, port }, rest)

-- ===================================================== path

/-- The pieces between slashes. -/
def slashPieces (k : Kind) : List Char → List (List Char)
  | [] => [[]]
  | c :: rest =>
      if isSlash k c then [] :: slashPieces k rest
      else match slashPieces k rest with
        | [] => [[c]]
        | p :: ps => (c :: p) :: ps

/-- A segment that stands for its directory. -/
def isDot (segment : String) : Bool :=
  ["." , "%2e", "%2E"].contains segment

/-- A segment that stands for the directory above. -/
def isDotDot (segment : String) : Bool :=
  ["..", ".%2e", ".%2E", "%2e.", "%2E.", "%2e%2e", "%2e%2E", "%2E%2e", "%2E%2E"].contains segment

/-- A letter and a colon or a bar. -/
def isDrive (s : List Char) : Bool :=
  match s with
  | [letter, mark] => letter.isAlpha && (mark = ':' || mark = '|')
  | _ => false

/-- Whether the directory above a segment is the segment itself: a drive
has none. -/
def staysAbove (segment : String) : Bool :=
  match segment.toList with
  | letter :: mark :: rest => isDrive [letter, mark] && (rest.isEmpty || rest.head? = some '\\')
  | _ => false

/-- The segments without the last one, unless that is a drive; the last
one comes first. -/
def shorten : List String → List String
  | [] => []
  | segment :: above => if staysAbove segment then segment :: above else above

/-- A path under way: its segments so far, the last one first, and whether
a drive has opened it. -/
structure Trail where
  above : List String := []
  drive : Bool := false
deriving DecidableEq, Repr

/-- The path with one more segment. -/
def Trail.push (t : Trail) (segment : String) : Trail := { t with above := segment :: t.above }

/-- The path of the directory above. -/
def Trail.shorten (t : Trail) : Trail := { t with above := Url.shorten t.above }

/-- A piece as it is written in a path. -/
def segmentOf (piece : List Char) : String := String.ofList (encode inPathSet (unbroken piece))

/-- A drive and what is written after it in the same piece, if a tab or a
line break parts the two. -/
def drivePiece? (piece : List Char) : Option (String × String) :=
  match piece.dropWhile isBreak with
  | letter :: rest =>
      match rest.dropWhile isBreak with
      | ':' :: rest =>
          if letter.isAlpha && rest.head?.any isBreak && !(unbroken rest).isEmpty then
            some (String.ofList [letter, ':'], segmentOf rest)
          else none
      | _ => none
  | [] => none

/-- Puts a piece that stands for no directory. In front of a file's path a
drive is written with a colon, and what a break parts from a drive is a
segment of its own, whatever it stands for elsewhere. -/
def Trail.enter (k : Kind) (t : Trail) (piece : List Char) : Trail :=
  if k = .file ∧ t.above = [] then
    match unbroken piece with
    | [letter, mark] =>
        if isDrive [letter, mark] then ⟨[String.ofList [letter, ':']], true⟩
        else t.push (segmentOf piece)
    | _ =>
        match drivePiece? piece with
        | some (drive, name) => ⟨[name, drive], t.drive⟩
        | none => t.push (segmentOf piece)
  else t.push (segmentOf piece)

/-- Puts the pieces one after the other and resolves those that stand for
directories. A directory at the end leaves an empty segment. -/
def Trail.through (k : Kind) (t : Trail) : List (List Char) → Trail
  | [] => t
  | piece :: rest =>
      let segment := segmentOf piece
      let directory? :=
        if isDotDot segment then some t.shorten
        else if isDot segment then some t
        else none
      match directory? with
      | some t => if rest.isEmpty then t.push "" else Trail.through k t rest
      | none => Trail.through k (t.enter k piece) rest

/-- The segments that the pieces make. -/
def resolve (k : Kind) (pieces : List (List Char)) : List String :=
  (Trail.through k {} pieces).above.reverse

/-- The path of a special URL, which has at least one segment. -/
def specialPath (s : List Char) : List String :=
  resolve .special (slashPieces .special (if s.head?.any (isSlash .special) then s.tail else s))

/-- The path of another URL with an authority. -/
def plainPath (s : List Char) : List String :=
  match s with
  | [] => []
  | '/' :: rest => resolve .plain (slashPieces .plain rest)
  | s => resolve .plain (slashPieces .plain s)

/-- The path of a file, which has no empty segments at its front, and
whether a drive opens it. -/
def filePath (s : List Char) : List String × Bool :=
  let trail := Trail.through .file {} (slashPieces .file s)
  match trail.above.reverse.dropWhile (· = "") with
  | [] => ([""], trail.drive)
  | segments => (segments, trail.drive)

-- ===================================================== query and fragment

/-- Query and fragment, from the text that follows the path. -/
def tailParts (k : Kind) (s : List Char) : Option String × Option String :=
  let queryText := fun (q : List Char) =>
    String.ofList (encode (if k.isSpecial then inSpecialQuerySet else inQuerySet) q)
  let fragmentText := fun (f : List Char) => String.ofList (encode inFragmentSet f)
  match s with
  | '?' :: rest =>
      match Text.cut? '#' rest with
      | some (query, fragment) => (some (queryText query), some (fragmentText fragment))
      | none => (some (queryText rest), none)
  | '#' :: fragment => (none, some (fragmentText fragment))
  | _ => (none, none)

-- ===================================================== whole URLs

/-- A URL of a scheme that has an authority, from what follows `//`. -/
def withAuthority (k : Kind) (scheme : String) (s : List Char) : Except UrlFault Url := do
  let (text, rest) := s.span (!endsAuthority k ·)
  let (authority, left) ← readAuthority k scheme rest.isEmpty text
  let (path, rest) := (left ++ rest).span (!endsPath ·)
  let segments := if k = .plain then plainPath path else specialPath path
  let (query, fragment) := tailParts k rest
  return ⟨scheme, some authority, .segments segments, query, fragment⟩

/-- A URL of a scheme that is not special, without an authority. -/
def withoutAuthority (scheme : String) (s : List Char) : Url :=
  let (path, rest) := s.span (!endsPath ·)
  let (query, fragment) := tailParts .plain rest
  let path := match path with
    | '/' :: rest => Path.segments (resolve .plain (slashPieces .plain rest))
    | path => .rootless (String.ofList (encode inControlSet path))
  ⟨scheme, none, path, query, fragment⟩

/-- A URL of the scheme `file`, from its path and what follows it. A drive
takes the place of the host. -/
def fileUrl (host : Option String) (path rest : List Char) : Url :=
  let (segments, drive) := filePath path
  let (query, fragment) := tailParts .file (unbroken rest)
  ⟨"file", some { host := if drive then none else host }, .segments segments, query, fragment⟩

/-- A URL of the scheme `file`, from what follows two slashes. A drive is
no host, and `localhost` is as good as none. The slash after a host only ends
the host, while without one it opens the path. -/
def fileWithHost (s : List Char) : Except UrlFault Url :=
  let (text, after) := s.span (!endsAuthority .file ·)
  let (path, rest) := after.span (!endsPath ·)
  let name := unbroken text
  if isDrive name then .ok (fileUrl none (text ++ path) rest)
  else if name.isEmpty then .ok (fileUrl none path rest)
  else
    match domain name with
    | .error e => .error e
    | .ok "localhost" => .ok (fileUrl none path rest)
    | .ok host => .ok (fileUrl (some host) path.tail rest)

/-- A URL of the scheme `file`. A host may follow two slashes; one slash
opens the path. -/
def file (s : List Char) : Except UrlFault Url :=
  let (start, slash) := match s.dropWhile isBreak with
    | c :: after => if isSlash .file c then (after.dropWhile isBreak, true) else (c :: after, false)
    | [] => ([], false)
  if slash && start.head?.any (isSlash .file) then fileWithHost start.tail
  else
    let (path, rest) := start.span (!endsPath ·)
    .ok (fileUrl none path rest)

/-- Reads an absolute URL. -/
def parse (text : String) : Except UrlFault Url :=
  let text := trimmed text.toList
  match scheme? (unbroken text) with
  | none => .error .relative
  | some (scheme, rest) =>
      match Kind.ofScheme scheme with
      | .special => withAuthority .special scheme (rest.dropWhile (isSlash .special))
      | .file => file ((text.dropWhile (· ≠ ':')).tail)
      | .plain =>
          match rest with
          | '/' :: '/' :: rest => withAuthority .plain scheme rest
          | rest => .ok (withoutAuthority scheme rest)

end Depot.Url
