import ExprLex.Number.Decimal

/-!
# Numerals

A numeral is an optional dash, digits, and at most one point among them. A dash alone is none; a
point without any digit has the form of a numeral but no value. `Numeral.value` is the nearest
double to what is written.
-/
namespace ExprLex.Numeral

def isUnsigned : List Char → Bool
  | [] => true
  | '.' :: rest => rest.all Char.isDigit
  | c :: rest => c.isDigit && isUnsigned rest

def isNumeral : List Char → Bool
  | '-' :: rest => !rest.isEmpty && isUnsigned rest
  | text => !text.isEmpty && isUnsigned text

def hasDigit (text : List Char) : Bool := text.any Char.isDigit

def value (text : List Char) : Binary64 := (Decimal.ofNumeral text).toBinary64

def value? (text : List Char) : Option Binary64 :=
  if hasDigit text then some (value text) else none

end ExprLex.Numeral
