import ExprLex.Location
import ExprLex.Number.Layout

/-!
# Tokens

A token is a name, a number, a string or a single symbol. It is shown as its kind with its
content, texts quoted and numbers by their shortest decimal; a token that was read from a text
has a place in it, which no comparison of tokens looks at.
-/
namespace ExprLex
open Text

inductive Token
  | name (text : String)
  | number (value : Binary64)
  | string (text : String)
  | symbol (char : Char)
deriving DecidableEq

namespace Token

inductive Kind
  | name
  | number
  | string
  | symbol
deriving DecidableEq

namespace Kind

def all : List Kind := [name, number, string, symbol]

def label : Kind → String
  | name => "NAME"
  | number => "NUMBER"
  | string => "STRING"
  | symbol => "SYMBOL"

def code : Kind → Nat
  | name => 1
  | number => 2
  | string => 3
  | symbol => 4

end Kind

def kind : Token → Kind
  | name _ => .name
  | number _ => .number
  | string _ => .string
  | symbol _ => .symbol

def lexeme : Token → String
  | name t => t
  | number v => String.ofList v.text
  | string t => t
  | symbol c => String.ofList [c]

def shown : Token → String
  | name t => quoted t
  | number v => String.ofList v.text
  | string t => quoted t
  | symbol c => quoted (String.ofList [c])

def text (t : Token) : String := t.kind.label ++ "(" ++ t.shown ++ ")"

def detail : Token → String
  | name t => "Name(identifier=" ++ (name t).shown ++ ")"
  | number v => "Number(value=" ++ (number v).shown ++ ")"
  | string t => "StringLiteral(text=" ++ (string t).shown ++ ")"
  | symbol c => "Symbol(char=" ++ (symbol c).shown ++ ")"

/-- Tokens of one kind with the same content; numbers are compared as numbers. -/
def same : Token → Token → Bool
  | number v, number w => v.same w
  | t, u => t = u

/-- One line of a listing: line and column, kind, and content. -/
def line (location : Option Location) (t : Token) : String :=
  let place := match location with
    | some l => toString l.line ++ ":" ++ toString l.column
    | none => "?:?"
  place ++ "\t" ++ t.kind.label ++ "\t" ++ t.shown

/-- A text that was offered as a symbol and is not one character. -/
structure NotCharacter where
  text : String

def NotCharacter.message (e : NotCharacter) : String :=
  "Symbol must be a single character, got " ++ quoted e.text

def symbolOfText (text : String) : Except NotCharacter Token :=
  match text.toList with
  | [c] => .ok (.symbol c)
  | _ => .error ⟨text⟩

end Token

/-- One representative of every class, in order of first appearance. -/
def representatives {α : Type} (same : α → α → Bool) (items : List α) : List α :=
  items.foldl (fun seen x => if seen.any (same x) then seen else seen ++ [x]) []

end ExprLex
