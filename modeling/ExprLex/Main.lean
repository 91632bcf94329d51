import ExprLex.Command.Listing

/-!
# The program

Looks at the file that the arguments name, runs the command on it, and writes its report.
-/
namespace ExprLex

/-- What stands at a path of the file system. The system gives a folder that is read as a file the
error number 21. -/
def findFile (path : String) : IO (Except PathError ByteArray) := do
  if '\x00' ∈ path.toList then return .error .holdsNul
  try
    return .ok (← IO.FS.readBinFile path)
  catch e =>
    match e with
    | .inappropriateType _ 21 _ => return .error .isFolder
    | .inappropriateType .. => return .error .notFolder
    | _ => return .error .missing

/-- The files as far as the command looks at them: it looks at its first operand only. -/
def filesFor (words : List String) : IO Files := do
  match Command.Arguments.parse words with
  | .ok a =>
    match a.operands with
    | path :: _ =>
      let found ← findFile path
      return fun p => if p = path then found else .error .missing
    | [] => return fun _ => .error .missing
  | .error _ => return fun _ => .error .missing

end ExprLex

def main (words : List String) : IO UInt32 := do
  match ExprLex.Command.run (← ExprLex.filesFor words) words with
  | .ok report =>
    IO.print report.out
    IO.eprint report.err
    return report.exit.toUInt32
  | .error .notText =>
    IO.eprintln "The file is not UTF-8 text."
    return 1
  | .error e =>
    IO.eprintln e.message
    return 1
