import DiagramEdit.Node.Shape

/-!
# Failures

Edits of a text never fail.  What can fail is reading what surrounds them:
names, drawings, options, files and the arguments of a command.
-/

namespace DiagramEdit

/-- Why a text could not be obtained from outside. -/
inductive ReadFailure where
  | notFound
  | isDirectory
  /-- A path goes on after the name of a file. -/
  | notDirectory
  | nameTooLong
  | notUnicode
  /-- Any other cause, in the words of the system. -/
  | other (description : Text)
deriving DecidableEq, Repr

def ReadFailure.message : ReadFailure → Text
  | .notFound => "No such file or directory (os error 2)".toList
  | .isDirectory => "Is a directory (os error 21)".toList
  | .notDirectory => "Not a directory (os error 20)".toList
  | .nameTooLong => "File name too long (os error 36)".toList
  | .notUnicode => "stream did not contain valid UTF-8".toList
  | .other description => description

/-- What is wrong with the arguments of a command. -/
inductive UsageFailure where
  | needsPath (option : Text)
  | needsLevel
  | needsArgument (command what : Text)
  | unknownCommand (name : Text)
deriving DecidableEq, Repr

def UsageFailure.message : UsageFailure → Text
  | .needsPath option => option ++ " needs a path".toList
  | .needsLevel => "--log-level needs a value".toList
  | .needsArgument command what => command ++ " needs <".toList ++ what ++ ['>']
  | .unknownCommand name =>
      "unknown command \"".toList ++ name ++ "\", see --help".toList

/-- Why a request could not be answered. -/
inductive Failure where
  | invalidDrawing
  | invalidOptions
  | elementNotFound (id : Text)
  | unknownShape (name : Text)
  | unknownDialect (name : Text)
  | usage (failure : UsageFailure)
  | unreadable (failure : ReadFailure)
deriving DecidableEq, Repr

def Failure.message : Failure → Text
  | .invalidDrawing => "invalid SVG document: not a well-formed document".toList
  | .invalidOptions => "JSON error: not a value of the expected form".toList
  | .elementNotFound id =>
      "no element with id \"".toList ++ id ++ "\" in the SVG document".toList
  | .unknownShape name =>
      "unknown shape \"".toList ++ name ++ "\", expected one of ".toList ++
        ", ".toList.intercalate (Shape.all.map Shape.name)
  | .unknownDialect name => "unknown dialect \"".toList ++ name ++ ['"']
  | .usage failure => "usage: ".toList ++ failure.message
  | .unreadable failure => failure.message

end DiagramEdit
