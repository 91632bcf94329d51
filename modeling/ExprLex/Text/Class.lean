import ExprLex.Text.Letter

/-!
# Classes of characters

A blank separates runs; blanks are the space and the breaks. Delimiters, which are the blanks and
the double quote, end or open runs by themselves. Word characters make up names and numbers;
of the digits only the ten ASCII ones are meant.
-/
namespace ExprLex.Text

def isBreak (c : Char) : Bool := c = '\n' || c = '\t' || c = '\r'

def isBlank (c : Char) : Bool := c = ' ' || isBreak c

def isDelimiter (c : Char) : Bool := isBlank c || c = '"'

def isWord (c : Char) : Bool := isLetter c || c.isDigit || c = '.'

theorem isBlank_of_isBreak {c : Char} (h : isBreak c = true) : isBlank c = true := by
  simp [isBlank, h]

end ExprLex.Text
