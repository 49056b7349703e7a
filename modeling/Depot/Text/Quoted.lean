/-
Text in quotes, so that every character of it can be told: quotes,
backslashes and line ends are written with a backslash, and characters
that cannot be seen by their number.
-/
import Depot.Text.Ascii
import Depot.Text.Printable

namespace Depot.Text

/-- A character of a quoted text. -/
def quotedChar (c : Char) : List Char :=
  match c with
  | '"' => ['\\', '"']
  | '\\' => ['\\', '\\']
  | '\x00' => ['\\', '0']
  | '\t' => ['\\', 't']
  | '\n' => ['\\', 'n']
  | '\r' => ['\\', 'r']
  | c =>
      if isPrintable c then [c]
      else ['\\', 'u', '\x7b'] ++ (hexNumeral c.toNat).toList ++ ['\x7d']

/-- The text in quotes. -/
def quoted (s : String) : String :=
  String.ofList ('"' :: (s.toList.flatMap quotedChar ++ ['"']))

end Depot.Text
