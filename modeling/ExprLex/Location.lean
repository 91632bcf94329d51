import ExprLex.Text.Quoted

/-!
# Positions and locations

A position in a text counts the characters before it; its line and column begin at one, and only
a newline begins a line. A location is a position in a named file as it is shown to a reader.
-/
namespace ExprLex

structure Position where
  offset : Nat
  line : Nat
  column : Nat
deriving DecidableEq

namespace Position

def start : Position := ⟨0, 1, 1⟩

def next (p : Position) (c : Char) : Position :=
  if c = '\n' then ⟨p.offset + 1, p.line + 1, 1⟩ else ⟨p.offset + 1, p.line, p.column + 1⟩

def after (p : Position) (text : List Char) : Position := text.foldl next p

@[simp] theorem after_nil (p : Position) : p.after [] = p := rfl

@[simp] theorem after_cons (p : Position) (c : Char) (text : List Char) :
    p.after (c :: text) = (p.next c).after text := rfl

theorem after_append (p : Position) (a b : List Char) :
    p.after (a ++ b) = (p.after a).after b := List.foldl_append

end Position

structure Placed (α : Type) where
  item : α
  start : Position
deriving DecidableEq

structure Location where
  file : String
  line : Int
  column : Int
  offset : Int
deriving DecidableEq

namespace Location

def text (l : Location) : String :=
  l.file ++ ":" ++ toString l.line ++ ":" ++ toString l.column

def textOf : Option Location → String
  | some l => l.text
  | none => "None"

def detail (l : Location) : String :=
  "SourceLocation(" ++ Text.quoted l.file ++ ", " ++ toString l.line ++ ", " ++
    toString l.column ++ ", " ++ toString l.offset ++ ")"

def detailOf : Option Location → String
  | some l => l.detail
  | none => "None"

end Location

def Position.inFile (p : Position) (file : String) : Location :=
  ⟨file, p.line, p.column, p.offset⟩

end ExprLex
