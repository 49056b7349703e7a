/-
Relpaths: where below the files directory an artifact is kept. A relpath
is text of names with slashes between; it may name a file only if no
component of it can lead out of the directory (`isValid`).

Content with a known digest is kept under two shard directories made of
the digest's first sixteen digits. Content of a link without one is kept
under `+e`, in a directory named after where the link points to.
-/
import Depot.Files.Path
import Depot.HashSpec

namespace Depot.Relpath

/-- The directory of links without a digest. -/
def eggDir : String := "+e"

/-- The directory of uploads below their index. -/
def uploadDir : String := "+f"

/-- Whether a relpath stays below the files directory: all its components
are plain names. -/
def isValid (relpath : String) : Bool :=
  relpath ≠ "" && relpath.toList.all (fun c => c ≠ '\\' && c ≠ '\x00')
    && (Path.components relpath).all Path.Component.isName

/-- Whether `name` can be one piece of a path, and is. -/
def isPlainName (name : String) : Bool :=
  name ≠ "" && name ≠ "." && name ≠ ".."
    && name.toList.all fun c => c ≠ '/' && c ≠ '\\' && c ≠ '\x00'

/-- What follows the last slash. -/
def basename (relpath : String) : String := Text.afterLast '/' relpath

/-- Where content with this digest is kept. -/
def ofHash (spec : HashSpec) (basename : String) : String :=
  let (a, b) := spec.shards
  a ++ "/" ++ b ++ "/" ++ basename

/-- Where an upload to an index is kept. -/
def ofUpload (user index : String) (spec : HashSpec) (basename : String) : String :=
  user ++ "/" ++ index ++ "/" ++ uploadDir ++ "/" ++ ofHash spec basename

/-- Text as a directory name: anything but ASCII letters, digits, `_`, `.`
and `-` is written as `_`. -/
def sanitize (s : String) : String :=
  String.ofList (s.toList.map fun c =>
    if c.isAlphanum || c = '_' || c = '.' || c = '-' then c else '_')

/-- Where content without a digest is kept, from the names that lead to
it. -/
def ofDirs (dirs : List String) (basename : String) : String :=
  eggDir ++ "/" ++ sanitize (Text.joinWith '_' dirs) ++ "/" ++ basename

end Depot.Relpath
