/-
The text of a JSON value: on one line without blanks (`compact`), or
with a member or an item a line (`pretty`). Integers are written in
decimal and doubles as the shortest decimal that reads back, always with
a point or an exponent so that they read back as doubles.
-/
import Depot.Json.Basic
import Depot.Decimal.Shortest
import Depot.Text.Ascii

namespace Depot.Json

/-- A character of a string, escaped where it must be. -/
def escaped (c : Char) : List Char :=
  match c with
  | '"' => ['\\', '"']
  | '\\' => ['\\', '\\']
  | '\x08' => ['\\', 'b']
  | '\x0c' => ['\\', 'f']
  | '\n' => ['\\', 'n']
  | '\r' => ['\\', 'r']
  | '\t' => ['\\', 't']
  | c =>
      if c.toNat < 32 then
        ['\\', 'u', '0', '0', Text.hexDigit (c.toNat / 16), Text.hexDigit (c.toNat % 16)]
      else [c]

/-- A string in quotes. -/
def quoted (s : String) : List Char :=
  '"' :: (s.toList.flatMap escaped ++ ['"'])

/-- Integers up to this many digits are written out; above, a double has
an exponent. -/
def plainWidth : Int := 16

/-- So many zeros may follow the point in front of the first digit. -/
def leadingZeros : Int := 5

/-- A power of ten, which always has a sign. -/
def powerText (n : Int) : List Char :=
  (if n < 0 then '-' else '+') :: (toString n.natAbs).toList

/-- The text of `digits · 10 ^ exponent`. -/
def decimalText (s : Decimal.Scaled) : List Char :=
  let digits := Decimal.digitsOf s.digits
  let point : Int := digits.length + s.exponent
  if 0 ≤ s.exponent ∧ point ≤ plainWidth then
    digits ++ List.replicate s.exponent.toNat '0' ++ ['.', '0']
  else if 0 < point ∧ point ≤ plainWidth then
    digits.take point.toNat ++ '.' :: digits.drop point.toNat
  else if -leadingZeros < point ∧ point ≤ 0 then
    ['0', '.'] ++ List.replicate (-point).toNat '0' ++ digits
  else
    let power := powerText (point - 1)
    match digits with
    | d :: [] => d :: 'e' :: power
    | d :: rest => d :: '.' :: (rest ++ 'e' :: power)
    | [] => []

/-- The text of a double. -/
def doubleText (x : Decimal.Double) : List Char :=
  let size := if x.isZero then ['0', '.', '0'] else decimalText (Decimal.shortest x)
  if x.negative then '-' :: size else size

/-- The text of a number. -/
def numberText : Number → List Char
  | .int n => (toString n).toList
  | .float x => doubleText x

mutual

/-- The characters of a value, without blanks. -/
def chars : Json → List Char
  | null => ['n', 'u', 'l', 'l']
  | bool true => ['t', 'r', 'u', 'e']
  | bool false => ['f', 'a', 'l', 's', 'e']
  | num n => numberText n
  | str s => quoted s
  | arr items => '[' :: (itemChars items ++ [']'])
  | obj members => '{' :: (memberChars members ++ ['}'])

/-- The items of an array, with commas between. -/
def itemChars : List Json → List Char
  | [] => []
  | v :: [] => chars v
  | v :: w :: rest => chars v ++ ',' :: itemChars (w :: rest)

/-- The members of an object, with commas between. -/
def memberChars : List (String × Json) → List Char
  | [] => []
  | (n, v) :: [] => quoted n ++ ':' :: chars v
  | (n, v) :: m :: rest => quoted n ++ ':' :: (chars v ++ ',' :: memberChars (m :: rest))

end

/-- The text of a value on one line, without blanks. -/
def compact (v : Json) : String := String.ofList (chars v)

/-- The start of a new line at a depth. -/
def newline (depth : Nat) : List Char := '\n' :: List.replicate (2 * depth) ' '

mutual

/-- The characters of a value, each item and member on a line of its own
and two blanks deeper than what holds it. -/
def prettyChars (depth : Nat) : Json → List Char
  | arr [] => ['[', ']']
  | arr (v :: rest) =>
      '[' :: (newline (depth + 1) ++ prettyChars (depth + 1) v
        ++ prettyItems (depth + 1) rest ++ newline depth ++ [']'])
  | obj [] => ['{', '}']
  | obj ((n, v) :: rest) =>
      '{' :: (newline (depth + 1) ++ quoted n ++ ':' :: ' ' :: prettyChars (depth + 1) v
        ++ prettyMembers (depth + 1) rest ++ newline depth ++ ['}'])
  | v => chars v

/-- The items after the first. -/
def prettyItems (depth : Nat) : List Json → List Char
  | [] => []
  | v :: rest => ',' :: (newline depth ++ prettyChars depth v ++ prettyItems depth rest)

/-- The members after the first. -/
def prettyMembers (depth : Nat) : List (String × Json) → List Char
  | [] => []
  | (n, v) :: rest =>
      ',' :: (newline depth ++ quoted n ++ ':' :: ' ' :: prettyChars depth v
        ++ prettyMembers depth rest)

end

/-- The text of a value over several lines. -/
def pretty (v : Json) : String := String.ofList (prettyChars 0 v)

end Depot.Json
