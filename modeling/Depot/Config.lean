/-
The configuration of a depot, taken from environment variables: where the
server directory is, with which digest uploads are hashed, how long a
fetch may take, and whether to stay offline. The server directory may be
given again on the command line.
-/
import Depot.HashSpec
import Depot.Files.Path
import Depot.Text.Natural

namespace Depot

/-- What a process finds around it. -/
structure Environment where
  /-- The variables with their values; of values of one variable the last
  counts. -/
  vars : List (String × String)
  /-- The home directory, and the directory for data of the user, if they
  are set for the process. -/
  home : Option String
  dataHome : Option String
  /-- The directory that relative paths start from. -/
  cwd : String

namespace Environment

/-- The value of a variable. -/
def var? (env : Environment) (key : String) : Option String := env.vars.reverse.lookup key

/-- Whether a variable switches something on. -/
def isSet (env : Environment) (key : String) : Bool := env.var? key = some "1"

/-- The directory for data of the user. -/
def dataDir? (env : Environment) : Option String :=
  match env.dataHome.filter (Path.isAbsolute ·) with
  | some dir => some dir
  | none => env.home.map fun home => Path.join home ".local/share"

end Environment

/-- Why there is no configuration. -/
inductive ConfigError where
  | unsupportedDigest (value : String) (cause : LinkError)
  | timeoutNotNumber (value : String) (cause : Text.NaturalFault)
  | timeoutNotPositive
  | noHome
deriving DecidableEq, Repr

/-- The failure in words, and what caused it. -/
def ConfigError.chain : ConfigError → List String
  | unsupportedDigest value cause =>
      ["PXM_HASH_TYPE=" ++ value ++ " is not a supported digest", cause.message]
  | timeoutNotNumber value cause =>
      ["PXM_FETCH_TIMEOUT=" ++ value ++ " is not a number", cause.message]
  | timeoutNotPositive => ["PXM_FETCH_TIMEOUT must be positive"]
  | noHome => ["unable to determine home directory"]

/-- Where the server directory was found. -/
inductive ServerDirSource where
  | variable
  | dataDir
  | commandLine
deriving DecidableEq, Repr

/-- The source in words. -/
def ServerDirSource.name : ServerDirSource → String
  | «variable» => "PXM_SERVERDIR"
  | dataDir => "data dir"
  | commandLine => "--serverdir"

/-- The configuration. -/
structure Config where
  /-- The directory of the store. -/
  serverDir : String
  source : ServerDirSource
  algo : Digest.Algo
  /-- How many seconds a fetch may take. -/
  timeout : Nat
  offline : Bool
deriving DecidableEq, Repr

namespace Config

/-- How many seconds a fetch may take if nothing else is said. -/
def defaultTimeout : Nat := 60

/-- The server directory. -/
def findServerDir (env : Environment) : Except ConfigError (String × ServerDirSource) :=
  match (env.var? "PXM_SERVERDIR").filter (· ≠ "") with
  | some path => .ok (Path.join env.cwd path, .variable)
  | none =>
      match env.dataDir? with
      | some dir => .ok (Path.join dir "pxm", .dataDir)
      | none => .error .noHome

/-- The digest family. -/
def findAlgo (env : Environment) : Except ConfigError Digest.Algo :=
  match env.var? "PXM_HASH_TYPE" with
  | none => .ok .sha256
  | some value => (HashSpec.algoNamed value).mapError (.unsupportedDigest value)

/-- The time that a fetch may take. -/
def findTimeout (env : Environment) : Except ConfigError Nat :=
  match env.var? "PXM_FETCH_TIMEOUT" with
  | none => .ok defaultTimeout
  | some value =>
      match Text.natural value.toList with
      | .error cause => .error (.timeoutNotNumber value cause)
      | .ok 0 => .error .timeoutNotPositive
      | .ok n => .ok n

/-- The configuration of an environment. -/
def ofEnvironment (env : Environment) : Except ConfigError Config := do
  let (serverDir, source) ← findServerDir env
  let algo ← findAlgo env
  let timeout ← findTimeout env
  return { serverDir, source, algo, timeout, offline := env.isSet "PXM_OFFLINE" }

/-- The configuration with the server directory of the command line. -/
def withServerDir (config : Config) (path : String) : Config :=
  { config with serverDir := path, source := .commandLine }

end Config

end Depot
