/-
The program. It reads from disk what an invocation needs, runs the
invocation on a machine that has just this, and writes back what has
changed: contents first, then indexes, and last it removes what is gone.
-/
import Depot.CommandLine.Run
import Depot.HttpDate
import Depot.Store.IndexText
import Std.Time.DateTime.Timestamp

namespace Depot.Program

open CommandLine

/-- The variables that are looked at. -/
def watched : List String :=
  ["PXM_SERVERDIR", "PXM_HASH_TYPE", "PXM_FETCH_TIMEOUT", "PXM_OFFLINE"]

/-- The environment of the process. -/
def environment : IO Environment := do
  let vars ← watched.filterMapM fun name => return (← IO.getEnv name).map (name, ·)
  return {
    vars
    home := ← IO.getEnv "HOME"
    dataHome := ← IO.getEnv "XDG_DATA_HOME"
    cwd := (← IO.currentDir).toString }

/-- The content of a file, if it can be read. -/
def readFile? (path : String) : IO (Option Bytes) := do
  try return some (← IO.FS.readBinFile path).toList
  catch _ => return none

/-- The machine with a file of the disk, if it can be read. -/
def loadFile (m : Machine) (path : String) : IO Machine := do
  match ← readFile? (Path.join m.env.cwd path) with
  | some content => return m.addFile path content
  | none => return m

/-- The machine with the store in a server directory. -/
def loadStore (m : Machine) (dir : String) : IO Machine := do
  let indexPath := Path.join dir Machine.indexFile
  match ← readFile? (Path.join m.env.cwd indexPath) with
  | none => return m
  | some content =>
      match (Bytes.decode? content).bind Index.ofText? with
      | none => return m.addFile indexPath content
      | some index =>
          index.blobs.toList.foldlM
            (fun m relpath => loadFile m (Path.join (Path.join dir Store.filesDir) relpath))
            (m.addIndex dir index)

/-- The machine with what an invocation needs. -/
def load (env : Environment) (invocation : Invocation) : IO Machine := do
  let m : Machine := { env }
  let m ← match invocation.command.file? with
    | some path => loadFile m path
    | none => pure m
  match invocation.config env with
  | .ok config => loadStore m config.serverDir
  | .error _ => return m

/-- Writes a file, and makes the directories that lead to it. -/
def writeFile (place : Files.Place) (content : Bytes) : IO Unit := do
  IO.FS.createDirAll (Machine.pathOf place.dropLast)
  IO.FS.writeBinFile (Machine.pathOf place) (ByteArray.mk content.toArray)

/-- Writes back what has changed. -/
def save (before after : Machine) : IO Unit := do
  for (place, content) in after.disk.files do
    if place.getLast? ≠ some Machine.indexFile ∧ before.disk.file? place ≠ some content then
      writeFile place content
  for (place, index) in after.indexes.toList do
    if (before.indexes[place]?).map Index.toText ≠ some index.toText then
      writeFile (Machine.indexPlace place) (Bytes.ofText index.toText)
  for (place, _) in before.disk.files do
    if (after.disk.file? place).isNone then IO.FS.removeFile (Machine.pathOf place)

/-- The time as HTTP writes it. -/
def now : IO String := do
  let moment ← Std.Time.Timestamp.now
  return HttpDate.ofSeconds moment.toSecondsSinceUnixEpoch.val.toNat

/-- Runs an invocation. -/
def run (invocation : Invocation) : IO UInt32 := do
  let before ← load (← environment) invocation
  let (result, after) := invocation.run Web.unreachable (← now) before
  save before after
  match result with
  | .ok output =>
      let stdout ← IO.getStdout
      stdout.write (ByteArray.mk output.toArray)
      stdout.flush
      return 0
  | .error failure =>
      for cause in failure.chain do IO.eprintln cause.message
      return 1

end Depot.Program

/-- Runs what the arguments ask for. -/
def main (args : List String) : IO UInt32 := do
  match Depot.CommandLine.parse args with
  | .ok invocation => Depot.Program.run invocation
  | .error usage =>
      if usage.exitCode = 0 then IO.println usage.message else IO.eprintln usage.message
      return UInt32.ofNat usage.exitCode
