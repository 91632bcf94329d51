import ExprLex.Text.Printable

/-!
# Quoted text

`encode` writes a text between quotes so that it stays on one line and shows every character
that does not print. Single quotes are used, unless the text holds a single quote and no double
one. The quote in use and the backslash take a backslash in front; newline, carriage return and
tab are written as `\n`, `\r` and `\t`; any other character that does not print is written by
its number, as `\x`, `\u` or `\U` with two, four or eight lower-case hexadecimal digits, whichever
is the first to have room for it.
-/
namespace ExprLex.Text.Quoted

def hexDigit (n : Nat) : Char := if n < 10 then Char.ofNat (48 + n) else Char.ofNat (87 + n)

/-- The last `width` hexadecimal digits of a number. -/
def hex : Nat → Nat → List Char
  | 0, _ => []
  | width + 1, n => hex width (n / 16) ++ [hexDigit (n % 16)]

def escapeCode (n : Nat) : List Char :=
  if n < 0x100 then '\\' :: 'x' :: hex 2 n
  else if n < 0x10000 then '\\' :: 'u' :: hex 4 n
  else '\\' :: 'U' :: hex 8 n

def escape (quote c : Char) : List Char :=
  if c = quote ∨ c = '\\' then ['\\', c]
  else if c = '\n' then ['\\', 'n']
  else if c = '\r' then ['\\', 'r']
  else if c = '\t' then ['\\', 't']
  else if isPrintable c then [c]
  else escapeCode c.toNat

def quoteFor (text : List Char) : Char :=
  if '\'' ∈ text ∧ '"' ∉ text then '"' else '\''

def encode (text : List Char) : List Char :=
  let quote := quoteFor text
  quote :: (text.flatMap (escape quote) ++ [quote])

end ExprLex.Text.Quoted

namespace ExprLex.Text

def quoted (text : String) : String := String.ofList (Quoted.encode text.toList)

end ExprLex.Text
