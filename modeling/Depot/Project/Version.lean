/-
Versions of the form `1!2.3.4rc5.post6.dev7+local.8` and their order. A
version has an epoch and release numbers; it may be a pre-release, a
post-release or a development release, and may carry a local label.
Spellings vary: letters of any case, `.`, `-` or `_` between the parts or
nothing, and several words for most parts.

Two orders are in use. The plain order puts development releases before
the pre-releases of the same numbers. When both versions are compact,
that is, when they have small numbers and at most one part after the
release, a development release comes after the pre-releases instead.
-/
import Depot.Text.Natural

namespace Depot.Project

/-- What a pre-release is. -/
inductive PreKind where
  | alpha
  | beta
  | candidate
deriving DecidableEq, Repr

/-- The place of a pre-release of a kind. -/
def PreKind.rank : PreKind → Nat
  | alpha => 1
  | beta => 2
  | candidate => 3

/-- A segment of a local label. -/
inductive LocalSegment where
  | number (n : Nat)
  | word (s : String)
deriving DecidableEq, Repr

/-- Compares segments of local labels: words come before numbers. -/
def LocalSegment.compare : LocalSegment → LocalSegment → Ordering
  | number a, number b => Ord.compare a b
  | word a, word b => Ord.compare a b
  | number _, word _ => .gt
  | word _, number _ => .lt

/-- A version. -/
structure Version where
  epoch : Nat := 0
  release : List Nat
  pre : Option (PreKind × Nat) := none
  post : Option Nat := none
  dev : Option Nat := none
  label : List LocalSegment := []
deriving DecidableEq, Repr

namespace Version

-- ===================================================== reading

/-- Blanks that may stand around a version. -/
def isBlank (c : Char) : Bool := [' ', '\t', '\n', '\x0c', '\r'].contains c

/-- What may stand between the parts of a version. -/
def isSeparator (c : Char) : Bool := c = '.' || c = '-' || c = '_'

/-- A number and what follows it: `none` for no digits. The whole answer
is missing if the number has more than 64 bits. -/
def number? (s : List Char) : Option (Option Nat × List Char) :=
  let (digits, rest) := s.span Char.isDigit
  if digits.isEmpty then some (none, s)
  else (Text.natural? digits).map fun n => (some n, rest)

/-- What follows `word`, if the text starts with it in any case. -/
def afterWord? : List Char → List Char → Option (List Char)
  | [], s => some s
  | _ :: _, [] => none
  | w :: word, c :: s => if c.toLower = w then afterWord? word s else none

/-- The text without a separator at its front. -/
def dropSeparator : List Char → List Char
  | [] => []
  | c :: rest => if isSeparator c then rest else c :: rest

/-- The first of the words that the text starts with, and what follows. -/
def firstWord? {α : Type} (words : List (String × α)) (s : List Char) : Option (α × List Char) :=
  words.findSome? fun (word, a) => (afterWord? word.toList s).map fun rest => (a, rest)

/-- A part that is named by one of the words: the number that follows, or
zero. A part that is not there takes nothing. -/
def part? {α : Type} (words : List (String × α)) (s : List Char) :
    Option (Option (α × Nat) × List Char) :=
  match firstWord? words (dropSeparator s) with
  | none => some (none, s)
  | some (a, rest) => do
      let (n, rest) ← number? (dropSeparator rest)
      some (some (a, n.getD 0), rest)

/-- The words for pre-releases. -/
def preWords : List (String × PreKind) :=
  [("alpha", .alpha), ("beta", .beta), ("preview", .candidate), ("pre", .candidate),
   ("rc", .candidate), ("a", .alpha), ("b", .beta), ("c", .candidate)]

/-- The words for post-releases. -/
def postWords : List (String × Unit) := [("post", ()), ("rev", ()), ("r", ())]

/-- The word for development releases. -/
def devWords : List (String × Unit) := [("dev", ())]

/-- A post-release, which may also be written as a dash and a number. -/
def post? (s : List Char) : Option (Option Nat × List Char) :=
  let named := (part? postWords s).map fun (found, rest) => (found.map (·.2), rest)
  match s with
  | '-' :: rest =>
      match number? rest with
      | none => none
      | some (some n, rest) => some (some n, rest)
      | some (none, _) => named
  | _ => named

/-- Release numbers after the first, each with a point in front. -/
def release? : Nat → List Char → Option (List Nat × List Char)
  | 0, s => some ([], s)
  | fuel + 1, s =>
      match s with
      | '.' :: rest =>
          match number? rest with
          | none => none
          | some (none, _) => some ([], s)
          | some (some n, rest) => do
              let (more, rest) ← release? fuel rest
              some (n :: more, rest)
      | s => some ([], s)

/-- A segment of a local label: a number if it is one of 64 bits, else a
word in lower case. -/
def localSegment (s : List Char) : LocalSegment :=
  if s.all Char.isDigit then
    match Text.natural? s with
    | some n => .number n
    | none => .word (String.ofList s)
  else .word (String.ofList (s.map Char.toLower))

/-- The segments of a local label. -/
def label? : Nat → List Char → Option (List LocalSegment × List Char)
  | 0, _ => none
  | fuel + 1, s =>
      let (segment, rest) := s.span Char.isAlphanum
      if segment.isEmpty then none
      else
        match rest with
        | c :: after =>
            if isSeparator c then do
              let (more, rest) ← label? fuel after
              some (localSegment segment :: more, rest)
            else some ([localSegment segment], rest)
        | [] => some ([localSegment segment], [])

/-- The epoch, if there is one, and the first release number. -/
def start? (s : List Char) : Option (Nat × Nat × List Char) := do
  let (n, rest) ← number? s
  let n ← n
  match rest with
  | '!' :: rest => do
      let (m, rest) ← number? rest
      some (n, ← m, rest)
  | rest => some (0, n, rest)

/-- Reads a version. -/
def parse? (text : String) : Option Version := do
  let s := text.toList.dropWhile isBlank
  let s := (afterWord? ['v'] s).getD s
  let (epoch, first, s) ← start? s
  let (more, s) ← release? s.length s
  let (pre, s) ← part? preWords s
  let (post, s) ← post? s
  let (dev, s) ← part? devWords s
  let (label, s) ← match s with
    | '+' :: rest => label? (rest.length + 1) rest
    | s => some ([], s)
  if (s.dropWhile isBlank).isEmpty then
    some { epoch, release := first :: more, pre, post, dev := dev.map (·.2), label }
  else none

-- ===================================================== order

/-- Whether all numbers of a version are small and at most one part
follows the release. -/
def isCompact (v : Version) : Bool :=
  v.epoch == 0 && v.label.isEmpty && v.release.length ≤ 4
    && v.release.head?.all (· ≤ 65535) && v.release.tail.all (· ≤ 255)
    && (match v.pre, v.post, v.dev with
        | none, none, none => true
        | some (_, n), none, none => n ≤ 63
        | none, some n, none => n ≤ 254
        | none, none, some n => n ≤ 254
        | _, _, _ => false)

/-- Release numbers with zeros behind them, `n` in all. -/
def padded (n : Nat) (release : List Nat) : List Nat :=
  release ++ List.replicate (n - release.length) 0

/-- Compares release numbers, of which missing ones are zero. -/
def compareRelease (a b : List Nat) : Ordering :=
  let n := max a.length b.length
  Ord.compare (padded n a) (padded n b)

/-- Compares local labels; a shorter one comes first. -/
def compareLabel : List LocalSegment → List LocalSegment → Ordering
  | [], [] => .eq
  | [], _ :: _ => .lt
  | _ :: _, [] => .gt
  | a :: as, b :: bs => (LocalSegment.compare a b).then (compareLabel as bs)

/-- A development release that is not one counts as the last. -/
def lastDev : Nat := Text.maxNatural

/-- What orders versions of the same numbers, front to back: kind, number
of the pre-release, post-release (none comes first, so each is one
larger), development release. -/
def rank (v : Version) : List Nat :=
  match v.pre, v.post, v.dev with
  | none, none, some n => [0, 0, 0, n]
  | some (kind, n), post, dev => [kind.rank, n, (post.map (· + 1)).getD 0, dev.getD lastDev]
  | none, none, none => [4, 0, 0, 0]
  | none, some n, dev => [5, 0, n + 1, dev.getD lastDev]

/-- The same for compact versions, where a development release comes
after the pre-releases. -/
def compactRank (v : Version) : List Nat :=
  match v.pre, v.post, v.dev with
  | some (kind, n), _, _ => [kind.rank, n]
  | none, none, some n => [4, n]
  | none, none, none => [5, 0]
  | none, some n, _ => [6, n]

/-- The order of versions. -/
def compare (a b : Version) : Ordering :=
  if a.isCompact && b.isCompact then
    (compareRelease a.release b.release).then (Ord.compare a.compactRank b.compactRank)
  else
    (Ord.compare a.epoch b.epoch).then <|
      (compareRelease a.release b.release).then <|
        (Ord.compare a.rank b.rank).then (compareLabel a.label b.label)

end Version

-- ===================================================== sorting

/-- Puts `x` behind the last of `ys` that is not older; the last of `ys`
comes first. -/
def insertVersion (x : Version × String) : List (Version × String) → List (Version × String)
  | [] => [x]
  | y :: ys => if y.1.compare x.1 = .lt then y :: insertVersion x ys else x :: y :: ys

/-- Puts a text into a list in descending order. -/
def insertText (x : String) : List String → List String
  | [] => [x]
  | y :: ys => if x ≤ y then y :: insertText x ys else x :: y :: ys

/-- The texts with the version each spells. -/
def versions (texts : List String) : List (Version × String) :=
  texts.filterMap fun t => (Version.parse? t).map fun v => (v, t)

/-- The texts that spell no version. -/
def unversioned (texts : List String) : List String :=
  texts.filter fun t => (Version.parse? t).isNone

/-- Newest first. Equal versions keep their order, and texts that spell no
version come last, in descending order. -/
def newestFirst (texts : List String) : List String :=
  ((versions texts).foldl (fun sorted x => insertVersion x sorted) []).reverse.map (·.2)
    ++ (unversioned texts).foldl (fun sorted t => insertText t sorted) []

end Depot.Project
