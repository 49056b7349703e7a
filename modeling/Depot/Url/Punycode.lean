/-
Labels of a domain that spell letters outside ASCII with ASCII letters and
digits. Such a label starts with `xn--`; behind that stand the ASCII
characters of the name, a hyphen if there are any, and numbers that say which
other character goes where. A number is a row of digits of falling weight
whose last digit is the first below a threshold, and the thresholds follow
the size of the numbers read before (`adapted`).
-/
import Depot.Text.Ascii
import Depot.Text.Printable

namespace Depot.Url.Punycode

/-- What a label starts with if it is to be decoded. -/
def mark : List Char := ['x', 'n', '-', '-']

/-- How many digits there are. -/
def base : Nat := 36

/-- The value of a digit: letters come before figures. -/
def digit? (c : Char) : Option Nat :=
  if 'a' ≤ c ∧ c ≤ 'z' then some (c.toNat - 'a'.toNat)
  else (Text.digitValue? c).map (· + 26)

/-- What a digit must reach for another one to follow. `k` is 36 for the
first digit, 72 for the second, and so on. -/
def threshold (bias k : Nat) : Nat := max 1 (min 26 (k - bias))

/-- Reads a number; `weight` is what its next digit counts and `sum` what the
digits before come to. -/
def number? (bias : Nat) : Nat → Nat → Nat → List Char → Option (Nat × List Char)
  | _, _, _, [] => none
  | k, weight, sum, c :: rest =>
      match digit? c with
      | none => none
      | some d =>
          let t := threshold bias k
          if d < t then some (sum + d * weight, rest)
          else number? bias (k + base) (weight * (base - t)) (sum + d * weight) rest

/-- A part of a number small enough to set the bias by, and how often it was
divided. -/
def reduced (delta : Nat) : Nat × Nat :=
  if 455 < delta then
    let (small, times) := reduced (delta / 35)
    (small, times + 1)
  else (delta, 0)

/-- The bias after a number: `size` characters are there now. -/
def adapted (delta size : Nat) (first : Bool) : Nat :=
  let delta := if first then delta / 700 else delta / 2
  let (small, times) := reduced (delta + delta / size)
  base * times + base * small / (small + 38)

/-- Puts characters in between those that are there, as the numbers say.
`n` is the last code point put and `i` where the next one may go. -/
def insert? : Nat → Nat → Nat → Nat → List Char → List Char → Option (List Char)
  | 0, _, _, _, _, _ => none
  | _ + 1, _, _, _, name, [] => some name
  | fuel + 1, n, i, bias, name, c :: rest =>
      match number? bias base 1 0 (c :: rest) with
      | none => none
      | some (delta, rest) =>
          let size := name.length + 1
          let at_ := (i + delta) % size
          let n := n + (i + delta) / size
          if n.isValidChar then
            insert? fuel n (at_ + 1) (adapted delta size (i = 0))
              (name.take at_ ++ Char.ofNat n :: name.drop at_) rest
          else none

/-- The first code point that is not ASCII. -/
def firstPoint : Nat := 0x80

/-- The bias before the first number. -/
def firstBias : Nat := 72

/-- What a label spells, from what stands behind its mark. -/
def decode? (s : List Char) : Option (List Char) :=
  let digits := (s.reverse.takeWhile (· ≠ '-')).reverse
  let name := (s.take (s.length - digits.length)).dropLast
  if digits.isEmpty ∨ (name.isEmpty ∧ digits.length < s.length) then none
  else insert? (digits.length + 1) firstPoint 0 firstBias name digits

/-- Whether a label of a domain is in order: if it is to be decoded it spells
something, which starts with a character that can be seen. -/
def isLabel (label : List Char) : Bool :=
  if mark.isPrefixOf label then
    match decode? (label.drop mark.length) with
    | some (c :: _) => Text.isPrintable c
    | _ => false
  else true

end Depot.Url.Punycode
