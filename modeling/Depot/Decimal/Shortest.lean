/-
The shortest decimal that reads back as a given double: of all decimals
that lie nearer to it than to its neighbours, one with the fewest
digits, and of those the nearest. A decimal halfway to a neighbour reads
back only if the mantissa is even, as reading sends a tie to the even
mantissa.
-/
import Depot.Decimal.Double

namespace Depot.Decimal

/-- `digits · 10 ^ exponent`. -/
structure Scaled where
  digits : Nat
  exponent : Int
deriving DecidableEq, Repr

/-- Compares `a · 10 ^ k` with `b · 2 ^ e`. -/
def compareScaled (a : Nat) (k : Int) (b : Nat) (e : Int) : Ordering :=
  compare (a * Nat.pow 10 k.toNat * Nat.pow 2 (-e).toNat)
    (b * Nat.pow 2 e.toNat * Nat.pow 10 (-k).toNat)

/-- Moves `k` by single steps until `10 ^ (k - 1) ≤ b · 2 ^ e < 10 ^ k`,
at most `fuel` of them. -/
def settleMagnitude : Nat → Nat → Int → Int → Int
  | 0, _, _, k => k
  | fuel + 1, b, e, k =>
      if compareScaled 1 k b e != .gt then settleMagnitude fuel b e (k + 1)
      else if compareScaled 1 (k - 1) b e == .gt then settleMagnitude fuel b e (k - 1)
      else k

/-- How many digits `b · 2 ^ e` has before the point; zero or less counts
the zeros after it. -/
def magnitude (b : Nat) (e : Int) : Int :=
  settleMagnitude 8 b e (Int.fdiv ((b.log2 + e) * 30103) 100000 + 1)

/-- The numbers that read back as a double, in quarters of its last
place. -/
structure Interval where
  low : Nat
  value : Nat
  high : Nat
  closed : Bool
  exponent : Int

/-- The interval of a double that is not zero. The lower neighbour of a
power of two is only half as far away. -/
def Interval.of (x : Double) : Interval where
  low :=
    if x.mantissa = Nat.pow 2 52 ∧ -1074 < x.exponent then 4 * x.mantissa - 1
    else 4 * x.mantissa - 2
  value := 4 * x.mantissa
  high := 4 * x.mantissa + 2
  closed := x.mantissa % 2 = 0
  exponent := x.exponent - 2

/-- Whether `d · 10 ^ k` reads back. -/
def Interval.holds (i : Interval) (d : Nat) (k : Int) : Bool :=
  match compareScaled d k i.low i.exponent, compareScaled d k i.high i.exponent with
  | .gt, .lt => true
  | .eq, _ => i.closed
  | _, .eq => i.closed
  | _, _ => false

/-- The largest multiple of `10 ^ k` that is not above the value. -/
def Interval.below (i : Interval) (k : Int) : Nat :=
  (i.value * Nat.pow 2 i.exponent.toNat * Nat.pow 10 (-k).toNat)
    / (Nat.pow 2 (-i.exponent).toNat * Nat.pow 10 k.toNat)

/-- Whether `d · 10 ^ k` is no farther from the value than its successor
`(d + 1) · 10 ^ k`. -/
def Interval.lowerNearer (i : Interval) (d : Nat) (k : Int) : Bool :=
  match compareScaled (2 * d + 1) k (2 * i.value) i.exponent with
  | .gt => true
  | .eq => d % 2 == 0
  | .lt => false

/-- The decimal on the grid `10 ^ k` that reads back and is nearest. -/
def Interval.onGrid? (i : Interval) (k : Int) : Option Nat :=
  let d := i.below k
  match d != 0 && i.holds d k, i.holds (d + 1) k with
  | true, true => some (if i.lowerNearer d k then d else d + 1)
  | true, false => some d
  | false, true => some (d + 1)
  | false, false => none

/-- The first grid, from one digit on, with a decimal that reads back. -/
def Interval.search (i : Interval) (size : Int) : List Nat → Scaled
  | [] => ⟨i.below (size - 17), size - 17⟩
  | n :: ns =>
      match i.onGrid? (size - n) with
      | some d => ⟨d, size - n⟩
      | none => i.search size ns

/-- Drops zeros at the end of the digits, at most `fuel` of them. -/
def dropZeros : Nat → Scaled → Scaled
  | 0, s => s
  | fuel + 1, s =>
      if s.digits != 0 && s.digits % 10 == 0 then dropZeros fuel ⟨s.digits / 10, s.exponent + 1⟩
      else s

/-- The shortest decimal of a double that is not zero, without its sign. -/
def shortest (x : Double) : Scaled :=
  let i := Interval.of x
  dropZeros 20 (i.search (magnitude i.value i.exponent) ((List.range 17).map (· + 1)))

/-- The digits of a number. -/
def digitsOf (n : Nat) : List Char := Nat.toDigits 10 n

end Depot.Decimal
