/-!
# Trees of files

A tree holds the files and folders under a working folder. A path is walked part by part: an
empty part and a single dot stay in a folder, two dots go up, and any other part names an entry.
A file has no parts below it. A path may not hold NUL, and neither it nor one of its names may be
too long. What lies outside the working folder is taken to be empty folders.
-/
namespace ExprLex

inductive PathError
  | missing
  | notFolder
  | isFolder
  | tooLong
  | holdsNul
deriving DecidableEq

abbrev Files := String → Except PathError ByteArray

/-- A folder by the names that lead to it from the working folder, latest first; or some folder
outside the working folder. -/
inductive Folder
  | inside (names : List String)
  | outside
deriving DecidableEq

namespace Folder

def working : Folder := inside []

def up : Folder → Folder
  | inside (_ :: names) => inside names
  | _ => outside

/-- Where a part of a path leads, provided that it leads anywhere. -/
def step (f : Folder) (part : String) : Folder :=
  if part = "" ∨ part = "." then f
  else if part = ".." then f.up
  else
    match f with
    | inside names => inside (part :: names)
    | outside => outside

/-- The folders that a path of folders passes through, the first one included. -/
def passed (f : Folder) : List String → List Folder
  | [] => [f]
  | part :: rest => f :: (f.step part).passed rest

end Folder

/-- The files and folders, each under the place where it stands. The first of several files in
one place counts. -/
structure FileTree where
  files : List (Folder × ByteArray)
  folders : List Folder

namespace FileTree

def parts (path : String) : List String := path.splitOn "/"

def empty : FileTree := ⟨[], [Folder.working]⟩

def addFolder (t : FileTree) (path : String) : FileTree :=
  { t with folders := Folder.working.passed (parts path) ++ t.folders }

/-- Writes a file, in place of one that is there already. The folders on the way are made. -/
def addFile (t : FileTree) (file : String × ByteArray) : FileTree :=
  let names := parts file.1
  ⟨(names.foldl Folder.step .working, file.2) :: t.files,
    Folder.working.passed names.dropLast ++ t.folders⟩

/-- The tree that arises when folders and then files are made, in this order. -/
def ofPaths (files : List (String × ByteArray)) (folders : List String) : FileTree :=
  files.foldl addFile (folders.foldl addFolder empty)

inductive Standing
  | folder (folder : Folder)
  | file (content : ByteArray)

/-- What the tree holds in a place. Outside the working folder only folders are known that a
walk can reach without a name. -/
def look (t : FileTree) (part : String) (place : Folder) : Except PathError Standing :=
  match place with
  | .outside =>
    if part = "" ∨ part = "." ∨ part = ".." then .ok (.folder place) else .error .missing
  | .inside _ =>
    match t.files.find? (·.1 = place) with
    | some f => .ok (.file f.2)
    | none => if place ∈ t.folders then .ok (.folder place) else .error .missing

/-- The most bytes of a name, and of a path with the byte that ends it. -/
def longestName : Nat := 255
def longestPath : Nat := 4096

def walkPart (t : FileTree) (here : Standing) (part : String) : Except PathError Standing :=
  match here with
  | .file _ => .error .notFolder
  | .folder f =>
    if longestName < part.utf8ByteSize then .error .tooLong else t.look part (f.step part)

def walk (t : FileTree) (path : String) : Except PathError Standing :=
  match parts path with
  | [""] => .error .missing
  | "" :: rest => rest.foldlM t.walkPart (.folder .outside)
  | names => names.foldlM t.walkPart (.folder .working)

def find (t : FileTree) : Files := fun path =>
  if '\x00' ∈ path.toList then .error .holdsNul
  else if longestPath ≤ path.utf8ByteSize then .error .tooLong
  else
    match t.walk path with
    | .error e => .error e
    | .ok (.file content) => .ok content
    | .ok (.folder _) => .error .isFolder

end FileTree
end ExprLex
