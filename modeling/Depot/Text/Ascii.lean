/-
ASCII character classes and case folding. Characters outside ASCII are
in no class and are their own lower case, whatever Unicode says of them;
`folded` knows those that are ASCII letters in another shape.
-/

namespace Depot.Text

/-- Lower case of the ASCII letters; all other characters stay. -/
def lower (s : String) : String :=
  String.ofList (s.toList.map Char.toLower)

/-- The ASCII letters that a letter is another shape of. Case is one
difference of shape; the long s, the sign of a kelvin, the sharp s and the
ligatures are the others. -/
def foldedChar (c : Char) : List Char :=
  match c with
  | 'ſ' => ['s']
  | '\u212a' => ['k']
  | 'ß' => ['s', 's']
  | 'ẞ' => ['s', 's']
  | 'ﬀ' => ['f', 'f']
  | 'ﬁ' => ['f', 'i']
  | 'ﬂ' => ['f', 'l']
  | 'ﬃ' => ['f', 'f', 'i']
  | 'ﬄ' => ['f', 'f', 'l']
  | 'ﬅ' => ['s', 't']
  | 'ﬆ' => ['s', 't']
  | c => [c.toLower]

/-- A text with all letters of one shape. -/
def folded (s : String) : String :=
  String.ofList (s.toList.flatMap foldedChar)

/-- `0-9`, `a-f` or `A-F`. -/
def isHexDigit (c : Char) : Bool :=
  c.isDigit || ('a' ≤ c && c ≤ 'f') || ('A' ≤ c && c ≤ 'F')

/-- The value of a hexadecimal digit. -/
def hexValue? (c : Char) : Option Nat :=
  if c.isDigit then some (c.toNat - '0'.toNat)
  else if 'a' ≤ c && c ≤ 'f' then some (c.toNat - 'a'.toNat + 10)
  else if 'A' ≤ c && c ≤ 'F' then some (c.toNat - 'A'.toNat + 10)
  else none

/-- The value of a decimal digit. -/
def digitValue? (c : Char) : Option Nat :=
  if c.isDigit then some (c.toNat - '0'.toNat) else none

/-- The lower-case hexadecimal digit of a number below 16. -/
def hexDigit (n : Nat) : Char :=
  if n < 10 then Char.ofNat ('0'.toNat + n) else Char.ofNat ('a'.toNat + (n - 10))

/-- The lower-case hexadecimal digits of `n`, without leading zeros. -/
def hexNumeral (n : Nat) : String :=
  String.ofList (Nat.toDigits 16 n)

end Depot.Text
