import ExprLex.Number.Binary64

/-!
# Rounding a quotient to a double

`Magnitude.nearest?` rounds a quotient of natural numbers to the nearest magnitude; of two that
are equally near it takes the one with the even significand. The quotient is measured in units
of `2 ^ -1074` and scaled down until its whole part has at most 53 bits, so one rounding of one
exact quotient decides, however long the numbers are. There is none for a quotient that rounds
past the greatest double.
-/
namespace ExprLex

/-- The whole number nearest to `n / d`; a half goes to the even neighbour. -/
def roundHalfEven (n d : Nat) : Nat :=
  let q := n / d
  let r := n % d
  if 2 * r < d then q
  else if d < 2 * r then q + 1
  else q + q % 2

namespace Magnitude

/-- Halvings that leave a whole part of at most 53 bits. -/
def scale (whole : Nat) : Nat := whole.log2 - 52

/-- A significand of 54 bits, which rounding up can give, is `2 ^ 53`. -/
def carry (significand exponent : Nat) : Nat × Nat :=
  if significand = pow2 53 then (pow2 52, exponent + 1) else (significand, exponent)

def canonical? (significand exponent : Nat) : Option Magnitude :=
  if h : Canonical significand exponent then some ⟨significand, exponent, h⟩ else none

def nearest? (num den : Nat) : Option Magnitude :=
  let exponent := scale (num * pow2 1074 / den)
  let rounded := carry (roundHalfEven (num * pow2 1074) (den * pow2 exponent)) exponent
  canonical? rounded.1 rounded.2

end Magnitude

def Binary64.nearest (negative : Bool) (num den : Nat) : Binary64 :=
  (Magnitude.nearest? num den).elim (.infinite negative) (.finite negative)

end ExprLex
