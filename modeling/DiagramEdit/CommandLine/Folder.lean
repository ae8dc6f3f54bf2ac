import DiagramEdit.CommandLine.Command

/-!
# Working folders

A path is looked up in a working folder, which holds files and no folders of its
own.  Its names are followed one after another, and the first that leads nowhere
decides the failure.  Of what lies outside the folder only this is known: there
are folders, and no file in them is asked for.
-/

namespace DiagramEdit.CommandLine

/-- A folder with its files, each a name and a text. -/
structure Folder where
  files : List (Text × Text)
deriving DecidableEq, Repr

/-- Where the names of a path have led so far. -/
inductive Spot where
  | inside
  | outside
  | file (content : Text)
deriving DecidableEq, Repr

/-- The number of bytes of a name in UTF-8. -/
def byteCount (name : Text) : Nat :=
  name.foldr (fun character count => character.utf8Size + count) 0

/-- Names of more bytes belong to no file. -/
def maxNameBytes : Nat :=
  255

/-- Paths of more bytes are not looked up. -/
def maxPathBytes : Nat :=
  4095

/-- The file of a name. -/
def Folder.find (folder : Folder) (name : Text) : Except ReadFailure Spot :=
  match folder.files.find? (·.1 == name) with
  | some (_, content) => .ok (.file content)
  | none => .error .notFound

/-- One name of a path.  Nothing follows a file, not even the empty name after a
slash at the end.  An empty name and a single dot stay in a folder, and two dots
lead out of it. -/
def Folder.follow (folder : Folder) : Spot → Text → Except ReadFailure Spot
  | .file _, _ => .error .notDirectory
  | spot, [] | spot, ['.'] => .ok spot
  | _, ['.', '.'] => .ok .outside
  | spot, name =>
      if maxNameBytes < byteCount name then
        .error .nameTooLong
      else if spot = .inside then
        folder.find name
      else
        .error .notFound

/-- Where a path starts: at the slash it begins with, or in the folder. -/
def Spot.start (path : Text) : Spot :=
  if path.head? = some '/' then .outside else .inside

/-- The text that a path leads to. -/
def Folder.read (folder : Folder) (path : Text) : Except ReadFailure Text :=
  if path.isEmpty then
    .error .notFound
  else if maxPathBytes < byteCount path then
    .error .nameTooLong
  else do
    match ← (path.splitOn '/').foldlM folder.follow (Spot.start path) with
    | .file content => return content
    | .inside | .outside => throw .isDirectory

/-- The host of a run in the folder with the given standard input. -/
def Folder.host (folder : Folder) (input : Except ReadFailure Text) :
    Host Id where
  readFile path := folder.read path
  readInput := input

end DiagramEdit.CommandLine
