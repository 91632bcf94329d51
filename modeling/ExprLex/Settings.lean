import ExprLex.SymbolSet

/-!
# Settings

What stays fixed while a text is read: the symbols, whether a string that is not closed on its
line is a fault or a warning, and the name of the file in the locations that are shown.
-/
namespace ExprLex

structure Settings where
  symbols : SymbolSet := SymbolSet.standard
  strict : Bool := false
  file : String := "<string>"
deriving DecidableEq

namespace Settings

def standard : Settings := {}

/-- The settings under another file name; no name and the empty one leave the name as it is. -/
def named (s : Settings) : Option String → Settings
  | none => s
  | some name => if name = "" then s else { s with file := name }

end Settings
end ExprLex
