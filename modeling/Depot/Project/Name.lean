/-
Project names. Two spellings of a name are the same project if they
agree after `normalize`: blanks at the ends are dropped, ASCII letters
are in lower case, and a run of `-`, `_` and `.` counts as one `-`.
-/
import Depot.Text.Blank

namespace Depot.Project

/-- Whether `c` separates the words of a name. -/
def isSeparator (c : Char) : Bool := c = '-' || c = '_' || c = '.'

/-- One `-` for each run of separators, and lower case for the rest.
`inRun` says that a separator stands in front. -/
def collapse : Bool → List Char → List Char
  | _, [] => []
  | inRun, c :: rest =>
      if isSeparator c then
        if inRun then collapse true rest else '-' :: collapse true rest
      else c.toLower :: collapse false rest

/-- The spelling that stands for all spellings of a name. -/
def normalize (name : String) : String :=
  String.ofList (collapse false (Text.trim name.toList))

end Depot.Project
