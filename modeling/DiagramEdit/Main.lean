import DiagramEdit.CommandLine.Run

/-!
# The program

Files and the standard input are read as bytes and have to be Unicode text; the
run itself is `CommandLine.runProgram`.
-/

namespace DiagramEdit.CommandLine

/-- The text that the bytes encode. -/
def textOfBytes (bytes : ByteArray) : Except ReadFailure Text :=
  match String.fromUTF8? bytes with
  | some text => .ok text.toList
  | none => .error .notUnicode

/-- The words and the number of the system for an error.  A number may come with
its sign turned around. -/
def systemFailure (code : UInt32) (details : String) : ReadFailure :=
  let number :=
    if code.toNat < 0x80000000 then code.toNat else 0x100000000 - code.toNat
  match number with
  | 20 => .notDirectory
  | 21 => .isDirectory
  | 36 => .nameTooLong
  | _ =>
      .other
        (details.capitalize ++ " (os error " ++ toString number ++ ")").toList

def readFailureOfError : IO.Error → ReadFailure
  | .noFileOrDirectory _ _ _ => .notFound
  | .inappropriateType _ code details | .permissionDenied _ code details
  | .invalidArgument _ code details | .resourceExhausted _ code details
  | .noSuchThing _ code details | .otherError code details
  | .resourceBusy code details | .illegalOperation code details =>
      systemFailure code details
  | error => .other (toString error).toList

/-- The text that an action reads, or why there is none. -/
def readText (action : IO ByteArray) : IO (Except ReadFailure Text) := do
  try
    return textOfBytes (← action)
  catch error =>
    return .error (readFailureOfError error)

def systemHost : Host IO where
  readFile path := readText (IO.FS.readBinFile (String.ofList path))
  readInput := readText do (← IO.getStdin).readBinToEnd

end DiagramEdit.CommandLine

/-- Runs the program and hands its exit code to the system. -/
def main (words : List String) : IO UInt32 := do
  let outcome ← DiagramEdit.CommandLine.runProgram
    DiagramEdit.CommandLine.systemHost (words.map String.toList)
  (← IO.getStderr).putStr (String.ofList outcome.errors)
  (← IO.getStdout).putStr (String.ofList outcome.output)
  return outcome.code.toUInt32
