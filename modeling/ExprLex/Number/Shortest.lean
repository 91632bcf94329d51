import ExprLex.Number.Decimal

/-!
# The shortest decimal of a double

The multiples of a power of ten form a grid. On each grid only the two neighbours of a number
can be nearest to it, and one of them is in the interval that rounds to the number as soon as any
point of the grid is. `Magnitude.shortest` tries ever finer grids, from one that is too coarse for
a single digit on; it takes the nearer neighbour if that reads back as the number, or else the
farther one, and of two that are equally near the even one. Seventeen digits are always enough;
the exact decimal stands behind them.
-/
namespace ExprLex

/-- A positive decimal by its digits and the power of ten of the first of them. -/
structure Digits where
  digits : List Char
  power : Int
deriving DecidableEq

namespace Digits

def dropZeros (digits : List Char) : List Char :=
  ((digits.reverse.dropWhile (· = '0')).reverse)

def ofScaled (coefficient : Nat) (exponent : Int) : Digits :=
  let digits := Nat.toDigits 10 coefficient
  ⟨dropZeros digits, exponent + digits.length - 1⟩

def zero : Digits := ⟨['0'], 0⟩

end Digits

namespace Magnitude

/-- A power of ten that is not below that of the first digit and at most two above it. The
logarithm of two to the base ten is a little more than 1233/4096. -/
def topPower (x : Magnitude) : Int := ((x.units.log2 : Int) - 1074) * 1233 / 4096 + 1

def readsBack (x : Magnitude) (coefficient : Nat) (exponent : Int) : Bool :=
  let d : Decimal := ⟨false, coefficient, exponent⟩
  nearest? d.numerator d.denominator = some x

/-- The number divided by a power of ten, as numerator and denominator. -/
def scaledBy (x : Magnitude) (exponent : Int) : Nat × Nat :=
  (x.units * pow10 (-exponent).toNat, pow2 1074 * pow10 exponent.toNat)

/-- The two neighbours on the grid of multiples of a power of ten, the nearer one first. -/
def neighbours (x : Magnitude) (exponent : Int) : List Nat :=
  let (num, den) := x.scaledBy exponent
  let below := num / den
  if roundHalfEven num den = below then [below, below + 1] else [below + 1, below]

def onGrid? (x : Magnitude) (exponent : Int) : Option Digits :=
  ((x.neighbours exponent).find? (x.readsBack · exponent)).map (Digits.ofScaled · exponent)

def exact (x : Magnitude) : Digits := Digits.ofScaled (x.units * Nat.pow 5 1074) (-1074)

def shortest (x : Magnitude) : Digits :=
  if x = zero then Digits.zero
  else
    let top := x.topPower
    ((List.range 19).findSome? fun (i : Nat) => x.onGrid? (top - i)).getD x.exact

end Magnitude
end ExprLex
