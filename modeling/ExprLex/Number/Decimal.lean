import ExprLex.Number.Rounding

/-!
# Decimals

A decimal is `± coefficient · 10 ^ exponent`. `ofNumeral` reads a sign, digits and at most one
point; `ofText?` reads an exponent part as well, and refuses what has no digit. The double of a
decimal is the one nearest to its exact value.
-/
namespace ExprLex

structure Decimal where
  negative : Bool
  coefficient : Nat
  exponent : Int
deriving DecidableEq

namespace Decimal

def numerator (d : Decimal) : Nat := d.coefficient * pow10 d.exponent.toNat
def denominator (d : Decimal) : Nat := pow10 (-d.exponent).toNat

def toBinary64 (d : Decimal) : Binary64 := .nearest d.negative d.numerator d.denominator

/-- Digits before the point, then the point, then digits after it. The point is not written when
there is nothing after it. -/
def ofParts (negative : Bool) (whole fraction : List Char) : Decimal :=
  ⟨negative, Nat.ofDigitChars 10 (whole ++ fraction) 0, -fraction.length⟩

def ofUnsigned (negative : Bool) (text : List Char) : Decimal :=
  ofParts negative (text.takeWhile (· ≠ '.')) ((text.dropWhile (· ≠ '.')).drop 1)

def ofNumeral : List Char → Decimal
  | '-' :: text => ofUnsigned true text
  | text => ofUnsigned false text

/-- A decimal of the same double whose exponent is small. A coefficient that is not zero is past
the greatest double when ten to the 400th multiplies it, and below half the least one when its
digits and 400 zeros more stand after the point. -/
def tame (d : Decimal) : Decimal :=
  let digits : Int := (Nat.toDigits 10 d.coefficient).length
  { d with exponent := max (-digits - 400) (min 400 d.exponent) }

def splitSign : List Char → Bool × List Char
  | '-' :: rest => (true, rest)
  | '+' :: rest => (false, rest)
  | rest => (false, rest)

def exponent? (text : List Char) : Option Int :=
  let (negative, digits) := splitSign text
  if digits ≠ [] ∧ digits.all Char.isDigit then
    let n := Nat.ofDigitChars 10 digits 0
    some (if negative then -n else n)
  else none

def coefficient? (negative : Bool) (text : List Char) : Option Decimal :=
  let whole := text.takeWhile (· ≠ '.')
  let fraction := (text.dropWhile (· ≠ '.')).drop 1
  if whole ++ fraction ≠ [] ∧ (whole ++ fraction).all Char.isDigit then
    some (ofParts negative whole fraction)
  else none

def isExponentMark (c : Char) : Bool := c = 'e' || c = 'E'

def ofText? (text : List Char) : Option Decimal :=
  let (negative, body) := splitSign text
  match body.dropWhile (!isExponentMark ·) with
  | [] => coefficient? negative body
  | _ :: power => do
    let d ← coefficient? negative (body.takeWhile (!isExponentMark ·))
    let e ← exponent? power
    some (tame { d with exponent := d.exponent + e })

end Decimal

/-- The double that a text names: a decimal, an infinity, or not a number. -/
def Binary64.ofText? (text : List Char) : Option Binary64 :=
  let (negative, body) := Decimal.splitSign text
  match String.ofList (body.map Char.toLower) with
  | "inf" | "infinity" => some (.infinite negative)
  | "nan" => some .nan
  | _ => (Decimal.ofText? text).map Decimal.toBinary64

end ExprLex
