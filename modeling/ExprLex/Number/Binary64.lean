/-!
# Double-precision numbers

A double is a sign and a magnitude, an infinity of either sign, or not a number. A magnitude is
`significand · 2 ^ exponent` units of `2 ^ -1074`, the least positive double; it is canonical,
so that two magnitudes are equal exactly when they stand for the same number. No machine
arithmetic is involved.
-/
namespace ExprLex

def pow2 (n : Nat) : Nat := Nat.pow 2 n

def pow10 (n : Nat) : Nat := Nat.pow 10 n

namespace Magnitude

/-- The significand has at most 53 bits, and exactly 53 unless the exponent is the least one.
The greatest double has the exponent 2045. -/
def Canonical (significand exponent : Nat) : Prop :=
  significand < pow2 53 ∧ exponent ≤ 2045 ∧ (exponent = 0 ∨ pow2 52 ≤ significand)

instance (significand exponent : Nat) : Decidable (Canonical significand exponent) :=
  inferInstanceAs (Decidable (_ ∧ _ ∧ _))

end Magnitude

structure Magnitude where
  significand : Nat
  exponent : Nat
  canonical : Magnitude.Canonical significand exponent
deriving DecidableEq

namespace Magnitude

def zero : Magnitude := ⟨0, 0, by decide⟩

def units (x : Magnitude) : Nat := x.significand * pow2 x.exponent

end Magnitude

inductive Binary64
  | finite (negative : Bool) (magnitude : Magnitude)
  | infinite (negative : Bool)
  | nan
deriving DecidableEq

namespace Binary64

/-- Numerical equality: the two zeros are equal, and `nan` is equal to nothing. -/
def same : Binary64 → Binary64 → Bool
  | .finite s x, .finite t y => x = y && (s = t || x = Magnitude.zero)
  | .infinite s, .infinite t => s = t
  | _, _ => false

end Binary64
end ExprLex
