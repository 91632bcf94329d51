import ExprLex.Text.Quoted

/-!
# Arguments of the command

Options and operands may be mixed; two dashes alone end the options. A word that begins with a
dash and has more than one character is an option: it is first looked up as a long one by its
text before the first equals sign, and, unless it begins with two dashes, then read as a row of
short ones. An option that takes a value takes the rest of its row, what follows the equals sign,
or the next argument whatever it looks like; of several values the last one counts.
-/
namespace ExprLex.Command

inductive Flag
  | expression
  | strict
  | verbose
  | help
deriving DecidableEq

namespace Flag

def takesValue : Flag → Bool
  | expression => true
  | _ => false

def all : List Flag := [expression, strict, verbose, help]

def long : Flag → List Char
  | expression => "--expression".toList
  | strict => "--strict".toList
  | verbose => "--verbose".toList
  | help => "--help".toList

def ofLong? (name : List Char) : Option Flag := all.find? fun f => f.long = name

def ofShort? : Char → Option Flag
  | 'e' => some expression
  | 'v' => some verbose
  | _ => none

end Flag

inductive OptionError
  | unknownLong (name : List Char)
  | unknownShort (letter : Char)
  | needsValue (name : List Char)
  | takesNoValue (name : List Char)
deriving DecidableEq

structure Arguments where
  expression : Option String := none
  strict : Bool := false
  verbose : Bool := false
  help : Bool := false
  operands : List String := []
deriving DecidableEq

namespace Arguments

def setFlag (a : Arguments) : Flag → Arguments
  | .expression => a
  | .strict => { a with strict := true }
  | .verbose => { a with verbose := true }
  | .help => { a with help := true }

def setValue (a : Arguments) (value : List Char) : Arguments :=
  { a with expression := some (String.ofList value) }

def addOperands (a : Arguments) (words : List String) : Arguments :=
  { a with operands := a.operands ++ words }

/-- The arguments after a word; when the word ends with an option that wants the next argument
as its value, also the name under which it was given. -/
abbrev Pending := Arguments × Option (List Char)

def readRow (a : Arguments) : List Char → Except OptionError Pending
  | [] => .ok (a, none)
  | c :: rest =>
    match Flag.ofShort? c with
    | none => .error (.unknownShort c)
    | some flag =>
      if flag.takesValue then
        if rest.isEmpty then .ok (a, some ['-', c]) else .ok (a.setValue rest, none)
      else (a.setFlag flag).readRow rest

def readLong (a : Arguments) (name : List Char) (value : Option (List Char)) (flag : Flag) :
    Except OptionError Pending :=
  match flag.takesValue, value with
  | true, some v => .ok (a.setValue v, none)
  | true, none => .ok (a, some name)
  | false, some _ => .error (.takesNoValue name)
  | false, none => .ok (a.setFlag flag, none)

/-- The text before the first equals sign, and the text after it if there is one. -/
def splitEquals (word : List Char) : List Char × Option (List Char) :=
  match word.dropWhile (· ≠ '=') with
  | [] => (word, none)
  | _ :: value => (word.takeWhile (· ≠ '='), some value)

def readOption (a : Arguments) (word : List Char) : Except OptionError Pending :=
  let (name, value) := splitEquals word
  match Flag.ofLong? name with
  | some flag => a.readLong name value flag
  | none => if word.take 2 = ['-', '-'] then .error (.unknownLong name) else a.readRow word.tail

def isOption (word : List Char) : Bool := word.head? = some '-' && 1 < word.length

def readAll (a : Arguments) : List String → Except OptionError Arguments
  | [] => .ok a
  | word :: rest =>
    if word = "--" then .ok (a.addOperands rest)
    else if isOption word.toList then
      match a.readOption word.toList with
      | .error e => .error e
      | .ok (b, none) => b.readAll rest
      | .ok (b, some name) =>
        match rest with
        | [] => .error (.needsValue name)
        | value :: others => (b.setValue value.toList).readAll others
    else (a.addOperands [word]).readAll rest

def parse (words : List String) : Except OptionError Arguments := readAll {} words

end Arguments
end ExprLex.Command
