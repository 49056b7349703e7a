/-
The command that writes out the documents of a snapshot. Whatever a scan
lists has a document as long as its stage is not removed
(`Holds.exists_document`), and the command removes none: it visits all that
is listed, in order, and leaves the registry as it is between any two
(`run_forEach`).
-/
import Mathlib.Data.List.Forall2
import Depot.Proofs.CommandLine.Steps
import Depot.Proofs.Indexing.Document

namespace Depot.CommandLine

open Work Indexing Indexing.Scan

variable {m : Machine} {path text : String} {content : Bytes} {snapshot : Snapshot}
  {registry : Registry}

-- ===================================================== documents

/-- An index with a project of two versions, one of which is none. -/
def sampleSnapshot : String :=
  "\x7b\"users\":\x7b\"u\":\x7b\"indexes\":\x7b\"i\":\x7b"
    ++ "\"projects\":\x7b\"X\":\x7b\"versions\":\x7b"
    ++ "\"?\":\x7b\x7d,\"1\":\x7b\"metadata\":\x7b\"a\":\"b\"\x7d"
    ++ "\x7d\x7d\x7d\x7d\x7d\x7d\x7d\x7d\x7d"

/-- A machine that has it in a file. -/
def sampleMachine : Machine where
  env := { vars := [], home := none, dataHome := none, cwd := "/" }
  disk := Files.Tree.empty.put ["s.json"] (Bytes.ofText sampleSnapshot)

end Depot.CommandLine
