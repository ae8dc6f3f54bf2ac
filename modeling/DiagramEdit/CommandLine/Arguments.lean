import DiagramEdit.Failure

/-!
# Arguments

Options come before the command.  From the command's name on, every word
belongs to the command, whatever it looks like.
-/

namespace DiagramEdit.CommandLine

/-- The arguments of one run, taken apart. -/
structure Arguments where
  help : Bool
  file : Option Text
  logLevel : Text
  command : List Text
deriving DecidableEq, Repr

namespace Arguments

def empty : Arguments where
  help := false
  file := none
  logLevel := "warn".toList
  command := []

def isHelpOption (word : Text) : Bool :=
  word == "-h".toList || word == "--help".toList

def isFileOption (word : Text) : Bool :=
  word == "-f".toList || word == "--file".toList

def isLevelOption (word : Text) : Bool :=
  word == "--log-level".toList

/-- Takes words apart, starting from what the words before them have set. -/
def parseFrom (arguments : Arguments) :
    List Text → Except UsageFailure Arguments
  | [] => .ok arguments
  | word :: rest =>
      if isHelpOption word then
        parseFrom { arguments with help := true } rest
      else if isFileOption word then
        match rest with
        | [] => .error (.needsPath word)
        | path :: rest => parseFrom { arguments with file := some path } rest
      else if isLevelOption word then
        match rest with
        | [] => .error .needsLevel
        | level :: rest => parseFrom { arguments with logLevel := level } rest
      else
        .ok { arguments with command := word :: rest }

/-- Takes the words of a run apart. -/
def parse (words : List Text) : Except UsageFailure Arguments :=
  parseFrom empty words

end Arguments

/-- The names of the levels of the log. -/
def logLevels : List Text :=
  ["off".toList, "error".toList, "warn".toList, "info".toList, "debug".toList,
   "trace".toList]

/-- Whether a level can be named so, in any letter case. -/
def isLogLevel (name : Text) : Bool :=
  logLevels.any (Text.equalIgnoringCase name)

end DiagramEdit.CommandLine
