import ExprLex.File.Tree
import ExprLex.Session
import ExprLex.Text.Newline

/-!
# Reading files

A file is read as UTF-8 and its line ends are unified before it is scanned, so a text scans the
same however the file that holds it ends its lines. The path itself is the file name in the
locations of its tokens.
-/
namespace ExprLex
open Text

inductive ReadError
  | path (error : PathError) (path : String)
  | notText
deriving DecidableEq

namespace ReadError

def message : ReadError → String
  | path .missing p => "[Errno 2] No such file or directory: " ++ quoted p
  | path .notFolder p => "[Errno 20] Not a directory: " ++ quoted p
  | path .isFolder p => "[Errno 21] Is a directory: " ++ quoted p
  | path .tooLong p => "[Errno 36] File name too long: " ++ quoted p
  | path .holdsNul _ => "embedded null byte"
  | notText => ""

end ReadError

def decodeText (content : ByteArray) : Except ReadError (List Char) :=
  match String.fromUTF8? content with
  | some text => .ok (unifyLineEnds text.toList)
  | none => .error .notText

def readText (files : Files) (path : String) : Except ReadError (List Char) :=
  match files path with
  | .ok content => decodeText content
  | .error e => .error (.path e path)

inductive FileFailure
  | reading (error : ReadError)
  | fault (fault : Placed Fault)
deriving DecidableEq

def fileTokens (settings : Settings) (files : Files) (path : String) :
    Except FileFailure (List (Placed Token)) :=
  match readText files path with
  | .error e => .error (.reading e)
  | .ok text => (tokens (settings.named (some path)) text).mapError .fault

end ExprLex
