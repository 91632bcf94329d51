import ExprLex.Command.Usage

/-!
# The listing of tokens

The command writes one line per token, and then what went wrong: the fault that stopped the
scan, or the warnings if it reached the end. The events of the scan come before that, all of them
when asked for, else only the warnings and these without level and channel.
-/
namespace ExprLex.Command

structure Report where
  exit : Nat
  out : String
  err : String
deriving DecidableEq

def concat (texts : List String) : String := texts.foldl (· ++ ·) ""

def logLine (level : Level) (channel message : String) : String :=
  level.label ++ ":" ++ channel ++ ":" ++ message ++ "\n"

def eventLine (verbose : Bool) (location : Location) (e : Event) : String :=
  if verbose then logLine e.level Event.channel (e.message location)
  else
    match e.level with
    | .warning => e.message location ++ "\n"
    | .debug => ""

def abortLine (verbose : Bool) (d : Diagnostic) : String :=
  if verbose then logLine .debug "mathlang.cli" ("Scan aborted: " ++ d.message) else ""

namespace Listing

def tokenLines (s : Scan) : String :=
  concat (s.tokens.map fun t => echo (t.item.line (some (s.session.locate t.start))))

def eventLines (verbose : Bool) (s : Scan) : String :=
  concat (s.session.log.toList.map fun e => eventLine verbose (s.session.locate e.start) e.item)

def warningTexts (s : Scan) : String :=
  concat (s.session.warnings.toList.map fun w =>
    plainText (w.item.diagnostic (s.session.locate w.start)).text)

def report (verbose : Bool) (s : Scan) : Report :=
  match s.fault with
  | none => ⟨0, tokenLines s, eventLines verbose s ++ warningTexts s⟩
  | some f =>
    let d := f.item.diagnostic (s.session.locate f.start)
    ⟨1, tokenLines s, eventLines verbose s ++ abortLine verbose d ++ plainText d.text⟩

end Listing

def expressionName : String := "<expression>"

def settings (strict : Bool) (file : String) : Settings := { strict := strict, file := file }

def reportOn (files : Files) (a : Arguments) : Source → Except ReadError Report
  | .expression text =>
    .ok (Listing.report a.verbose (scan (settings a.strict expressionName) text.toList))
  | .file path => do
    let text ← readText files path
    .ok (Listing.report a.verbose (scan (settings a.strict path) text))

def UsageError.report (e : UsageError) : Report := ⟨2, "", e.text⟩

/-- What the command does with its arguments. There is no report on a file that is not text, nor
on a path that cannot be one. -/
def run (files : Files) (words : List String) : Except ReadError Report :=
  match Arguments.parse words with
  | .error e => .ok (UsageError.option e).report
  | .ok a =>
    if a.help then .ok ⟨0, helpText, ""⟩
    else
      match a.source files with
      | .error (.usage e) => .ok e.report
      | .error (.reading e) => .error e
      | .ok source => reportOn files a source

end ExprLex.Command
