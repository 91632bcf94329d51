import ExprLex.Location
import ExprLex.Text.Upper

/-!
# Diagnostics

A diagnostic says what is wrong, where if that is known, how bad it is, and what may be done about
it. Two things
can be wrong with a text that is scanned: a string that is not closed on its line, which is a
fault or a warning, and a numeral without a digit, which is always a fault.
-/
namespace ExprLex

structure Severity where
  label : String
deriving DecidableEq

def Severity.error : Severity := ⟨"error"⟩
def Severity.warning : Severity := ⟨"warning"⟩

structure Diagnostic where
  message : String
  location : Option Location
  severity : Severity
  code : Option String
  help : Option String
  suggestions : Option (List String)
deriving DecidableEq

namespace Diagnostic

def codePart (d : Diagnostic) : String :=
  match d.code with
  | some code => if code = "" then "" else "[" ++ code ++ "]"
  | none => ""

def helpPart (d : Diagnostic) : String :=
  match d.help with
  | some help => if help = "" then "" else "  help: " ++ help ++ "\n"
  | none => ""

def suggestionsPart (d : Diagnostic) : String :=
  match d.suggestions with
  | none => ""
  | some [] => ""
  | some items =>
    items.foldl (fun text item => text ++ "    - " ++ item ++ "\n") "  suggestions:\n"

def text (d : Diagnostic) : String :=
  Text.upper d.severity.label ++ d.codePart ++ ": " ++ d.message ++ "\n" ++
    "  --> " ++ Location.textOf d.location ++ "\n" ++ d.helpPart ++ d.suggestionsPart

end Diagnostic

inductive Mistake
  | openString
  | digitlessNumeral
deriving DecidableEq

namespace Mistake

def all : List Mistake := [openString, digitlessNumeral]

def code : Mistake → String
  | openString => "L002"
  | digitlessNumeral => "L003"

def title : Mistake → String
  | openString => "Unterminated string literal"
  | digitlessNumeral => "Invalid numeric literal"

end Mistake

namespace Diagnostic

def openStringMessage (text : String) : String := Mistake.openString.title ++ ": \"" ++ text

def openStringError (text : String) (location : Option Location) : Diagnostic where
  message := openStringMessage text
  location := location
  severity := .error
  code := some Mistake.openString.code
  help := some "String literals must be closed with a matching \" on the same line."
  suggestions := some ["Add a closing \" quote"]

def openStringWarning (text : String) (location : Option Location) : Diagnostic where
  message := openStringMessage text
  location := location
  severity := .warning
  code := some Mistake.openString.code
  help := some "The text up to the end of the line was taken as the string."
  suggestions := none

def numeralError (text : String) (reason : String) (location : Option Location) : Diagnostic where
  message := Mistake.digitlessNumeral.title ++ ": '" ++ text ++ "'"
  location := location
  severity := .error
  code := some Mistake.digitlessNumeral.code
  help := some reason
  suggestions := some ["Numbers need at least one digit, e.g. 0.5 or -1"]

end Diagnostic

inductive Fault
  | openString (text : String)
  | digitlessNumeral (text : String)
deriving DecidableEq

namespace Fault

def mistake : Fault → Mistake
  | openString _ => .openString
  | digitlessNumeral _ => .digitlessNumeral

def diagnostic (location : Location) : Fault → Diagnostic
  | openString t => .openStringError t location
  | digitlessNumeral t =>
    .numeralError t "A numeric literal needs at least one digit." location

end Fault

/-- A string that was taken up to the end of its line for want of a closing quote. -/
structure Warning where
  text : String
deriving DecidableEq

def Warning.diagnostic (location : Location) (w : Warning) : Diagnostic :=
  .openStringWarning w.text location

end ExprLex
