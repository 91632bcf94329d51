/-!
# Sets of code points as ascending ranges

A character class that a standard defines by a property is kept as a list of closed ranges of
code points, in ascending order and without overlap. The search stops at the first range that
begins past the code point, so the classes of common characters are found at once.
-/
namespace ExprLex.Text

/-- Closed ranges `(first, last)` of code points. -/
abbrev Ranges := List (Nat × Nat)

def Ranges.covers : Ranges → Nat → Bool
  | [], _ => false
  | (first, last) :: rest, n => first ≤ n && (n ≤ last || covers rest n)

end ExprLex.Text
