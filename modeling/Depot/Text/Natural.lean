/-
Natural numbers of 64 bits, written in decimal. A plus sign may stand in
front and zeros may lead.
-/
import Depot.Text.Ascii

namespace Depot.Text

/-- Why a text is no number. -/
inductive NaturalFault where
  | empty
  | invalidDigit
  | tooLarge
deriving DecidableEq, Repr

/-- The fault in words. -/
def NaturalFault.message : NaturalFault → String
  | empty => "cannot parse integer from empty string"
  | invalidDigit => "invalid digit found in string"
  | tooLarge => "number too large to fit in target type"

/-- The largest number of 64 bits. -/
def maxNatural : Nat := 18446744073709551615

/-- Takes digits in; the first of them that is none or does not fit is
the fault. -/
def digits : Nat → List Char → Except NaturalFault Nat
  | n, [] => .ok n
  | n, c :: rest =>
      match digitValue? c with
      | none => .error .invalidDigit
      | some d => if maxNatural < n * 10 + d then .error .tooLarge else digits (n * 10 + d) rest

/-- Reads a number. -/
def natural (s : List Char) : Except NaturalFault Nat :=
  match s with
  | [] => .error .empty
  | ['+'] => .error .invalidDigit
  | '+' :: rest => digits 0 rest
  | s => digits 0 s

/-- The number that a text spells, if it does. -/
def natural? (s : List Char) : Option Nat :=
  match natural s with
  | .ok n => some n
  | .error _ => none

end Depot.Text
