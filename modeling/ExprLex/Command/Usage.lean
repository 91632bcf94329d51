import ExprLex.About
import ExprLex.Command.Arguments
import ExprLex.Command.Resemblance
import ExprLex.File.Reading
import ExprLex.Text.Terminal

/-!
# Use of the command

The command wants exactly one of a path and an expression. Faulty options are told first, then a
path that names no file, then operands past the path, and last that there are both sources or
none. A path that cannot be one is not told but stops the command. Whatever the command writes
for a reader goes without terminal control sequences.
-/
namespace ExprLex.Command
open Text

def plainText (text : String) : String := String.ofList (plain text.toList)

def echo (line : String) : String := plainText line ++ "\n"

inductive UsageError
  | option (error : OptionError)
  | noFile (path : String)
  | folder (path : String)
  | extra (first : String) (others : List String)
  | sources
deriving DecidableEq

def hint (name : List Char) : String :=
  match (resembling (Flag.all.map Flag.long) name).map String.ofList with
  | [] => ""
  | [one] => " Did you mean " ++ one ++ "?"
  | several => " (Possible options: " ++ ", ".intercalate several ++ ")"

namespace UsageError

def message : UsageError → String
  | option (.unknownLong name) => "No such option: " ++ String.ofList name ++ hint name
  | option (.unknownShort letter) => "No such option: " ++ String.ofList ['-', letter]
  | option (.needsValue name) =>
    "Option " ++ quoted (String.ofList name) ++ " requires an argument."
  | option (.takesNoValue name) =>
    "Option " ++ quoted (String.ofList name) ++ " does not take a value."
  | noFile path => "Invalid value for '[PATH]': File " ++ quoted path ++ " does not exist."
  | folder path => "Invalid value for '[PATH]': File " ++ quoted path ++ " is a directory."
  | extra first [] => "Got unexpected extra argument (" ++ first ++ ")"
  | extra first others =>
    "Got unexpected extra arguments (" ++ " ".intercalate (first :: others) ++ ")"
  | sources => "Give exactly one of PATH or --expression"

/-- A missing or needless value is told without a reminder of the usage. -/
def reminds : UsageError → Bool
  | option (.needsValue _) => false
  | option (.takesNoValue _) => false
  | _ => true

end UsageError

def usageLine : String := "Usage: " ++ About.program ++ " [OPTIONS] [PATH]"

def reminder : String :=
  usageLine ++ "\nTry '" ++ About.program ++ " --help' for help.\n\n"

def UsageError.text (e : UsageError) : String :=
  (if e.reminds then reminder else "") ++ echo ("Error: " ++ e.message)

def helpText : String :=
  usageLine ++ "\n\n" ++
  "  Print the tokens of PATH or of an --expression.\n\n" ++
  "Options:\n" ++
  "  -e, --expression TEXT  Scan this text instead of a file\n" ++
  "  --strict               Fail on unterminated string literals\n" ++
  "  -v, --verbose          Log scanner activity to stderr\n" ++
  "  --help                 Show this message and exit.\n"

inductive Source
  | file (path : String)
  | expression (text : String)
deriving DecidableEq

inductive NoSource
  | usage (error : UsageError)
  | reading (error : ReadError)
deriving DecidableEq

def checkPath (files : Files) (path : String) : Except NoSource Unit :=
  match files path with
  | .ok _ => .ok ()
  | .error .holdsNul => .error (.reading (.path .holdsNul path))
  | .error .isFolder => .error (.usage (.folder path))
  | .error _ => .error (.usage (.noFile path))

def Arguments.source (files : Files) (a : Arguments) : Except NoSource Source :=
  match a.operands, a.expression with
  | [], none => .error (.usage .sources)
  | [], some text => .ok (.expression text)
  | path :: others, expression => do
    checkPath files path
    match others, expression with
    | first :: more, _ => .error (.usage (.extra first more))
    | [], some _ => .error (.usage .sources)
    | [], none => .ok (.file path)

end ExprLex.Command
