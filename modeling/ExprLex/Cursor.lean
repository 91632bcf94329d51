import ExprLex.Location

/-!
# Cursors

A cursor divides a text into the characters it has passed, the nearest first, and those ahead of
it, and keeps the position between them. It moves forward one character at a time and stays
where it is at the end of the text.
-/
namespace ExprLex

structure Cursor where
  behind : List Char
  ahead : List Char
  position : Position
deriving DecidableEq

namespace Cursor

def ofText (text : List Char) : Cursor := ⟨[], text, Position.start⟩

def text (c : Cursor) : List Char := c.behind.reverse ++ c.ahead

def atEnd (c : Cursor) : Bool := c.ahead.isEmpty

/-- The character `n` places on, which is NUL past the end of the text. -/
def peek (c : Cursor) (n : Nat) : Char := c.ahead.getD n '\x00'

def advance (c : Cursor) : Cursor :=
  match c.ahead with
  | [] => c
  | x :: rest => ⟨x :: c.behind, rest, c.position.next x⟩

def advanceBy : Nat → Cursor → Cursor
  | 0, c => c
  | n + 1, c => advanceBy n c.advance

def skipSpaces (c : Cursor) : Cursor :=
  c.advanceBy (c.ahead.takeWhile (· = ' ')).length

@[simp] theorem advance_ahead (c : Cursor) : c.advance.ahead = c.ahead.tail := by
  unfold advance
  split <;> simp_all

@[simp] theorem advanceBy_ahead (n : Nat) (c : Cursor) :
    (c.advanceBy n).ahead = c.ahead.drop n := by
  induction n generalizing c with
  | zero => rfl
  | succ n ih => simp [advanceBy, ih]

@[simp] theorem advance_text (c : Cursor) : c.advance.text = c.text := by
  unfold advance
  split <;> simp_all [text]

@[simp] theorem advanceBy_text (n : Nat) (c : Cursor) : (c.advanceBy n).text = c.text := by
  induction n generalizing c with
  | zero => rfl
  | succ n ih => simp [advanceBy, ih]

theorem skipSpaces_length (c : Cursor) : c.skipSpaces.ahead.length ≤ c.ahead.length := by
  simp [skipSpaces]

end Cursor
end ExprLex
