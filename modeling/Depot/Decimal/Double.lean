/-
Finite double-precision numbers, exactly: a sign, a 53-bit mantissa and
a power of two. Every operation is the exact one followed by one
rounding to the nearest double, a tie going to the even mantissa; no
answer (`none`) means that the exact result lies beyond the largest
double.
-/

namespace Depot.Decimal

/-- `mantissa · 2 ^ exponent`, negated if `negative`. In canonical form
the mantissa is below `2 ^ 53` and the exponent is -1074 or the mantissa
has all its 53 bits; zero has the exponent -1074. -/
structure Double where
  negative : Bool
  mantissa : Nat
  exponent : Int
deriving DecidableEq, Repr

/-- The quotient rounded to the nearest integer, a tie to the even one. -/
def roundQuotient (num den : Nat) : Nat :=
  let q := num / den
  let r := num % den
  if den < 2 * r ∨ (2 * r = den ∧ q % 2 = 1) then q + 1 else q

/-- The exponent that gives `num / den` a mantissa of 53 bits, or -1074
if that is larger. -/
def fittingExponent (num den : Nat) : Int :=
  let l : Int := (num.log2 : Int) - den.log2
  let fits := den * Nat.pow 2 l.toNat ≤ num * Nat.pow 2 (-l).toNat
  max (if fits then l - 52 else l - 53) (-1074)

namespace Double

/-- Zero of either sign. -/
def zero (negative : Bool) : Double := ⟨negative, 0, -1074⟩

/-- Whether the number is zero, of either sign. -/
def isZero (x : Double) : Bool := x.mantissa == 0

/-- The double nearest to `num / den`; `den` is not zero. -/
def ofRatio? (negative : Bool) (num den : Nat) : Option Double :=
  if num = 0 then some (zero negative)
  else
    let e := fittingExponent num den
    let m := roundQuotient (num * Nat.pow 2 (-e).toNat) (den * Nat.pow 2 e.toNat)
    let (m, e) := if m = Nat.pow 2 53 then (Nat.pow 2 52, e + 1) else (m, e)
    if 971 < e then none else some ⟨negative, m, e⟩

/-- The double nearest to a natural number. -/
def ofNat? (n : Nat) : Option Double := ofRatio? false n 1

/-- The same number with the sign `negative`. -/
def withSign (negative : Bool) (x : Double) : Double := { x with negative }

/-- The product. -/
def mul? (x y : Double) : Option Double :=
  let e := x.exponent + y.exponent
  ofRatio? (x.negative != y.negative)
    (x.mantissa * y.mantissa * Nat.pow 2 e.toNat) (Nat.pow 2 (-e).toNat)

/-- The quotient; `y` is not zero. -/
def div? (x y : Double) : Option Double :=
  let e := x.exponent - y.exponent
  ofRatio? (x.negative != y.negative)
    (x.mantissa * Nat.pow 2 e.toNat) (y.mantissa * Nat.pow 2 (-e).toNat)

/-- The double nearest to `10 ^ n`. -/
def tenPower? (n : Nat) : Option Double := ofNat? (Nat.pow 10 n)

end Double

end Depot.Decimal
