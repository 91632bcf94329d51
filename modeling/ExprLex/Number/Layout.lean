import ExprLex.Number.Shortest

/-!
# The text of a number

A double is written by its shortest decimal, so that the text reads back as the same double. The
layout says which powers of ten are written out with a point and which as a factor: a number is
always told from a whole-number text by its point or its exponent.
-/
namespace ExprLex

structure Layout where
  /-- The least and the greatest power of the first digit that is written out. -/
  least : Int
  greatest : Int
  /-- Digits of an exponent at least. -/
  exponentWidth : Nat

/-- Powers from `-4` to `15` are written out, and an exponent has two digits or more. -/
def Layout.standard : Layout := ⟨-4, 15, 2⟩

def zeros (n : Nat) : List Char := List.replicate n '0'

namespace Digits

def positional (d : Digits) : List Char :=
  if d.power < 0 then '0' :: '.' :: (zeros (-d.power - 1).toNat ++ d.digits)
  else
    let whole := d.power.toNat + 1
    if d.digits.length ≤ whole then d.digits ++ zeros (whole - d.digits.length) ++ ['.', '0']
    else d.digits.take whole ++ '.' :: d.digits.drop whole

def exponential (width : Nat) (d : Digits) : List Char :=
  let point := if d.digits.length ≤ 1 then d.digits else d.digits.take 1 ++ '.' :: d.digits.drop 1
  let power := Nat.toDigits 10 d.power.natAbs
  point ++ 'e' :: (if d.power < 0 then '-' else '+') :: (zeros (width - power.length) ++ power)

def text (layout : Layout) (d : Digits) : List Char :=
  if layout.least ≤ d.power ∧ d.power ≤ layout.greatest then d.positional
  else d.exponential layout.exponentWidth

end Digits

namespace Binary64

def signed (negative : Bool) (text : List Char) : List Char :=
  if negative then '-' :: text else text

def text : Binary64 → List Char
  | .finite negative x => signed negative (x.shortest.text Layout.standard)
  | .infinite negative => signed negative ['i', 'n', 'f']
  | .nan => ['n', 'a', 'n']

end Binary64
end ExprLex
