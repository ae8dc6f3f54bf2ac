import DiagramEdit.CommandLine.Command

/-!
# Runs

A run takes its arguments apart, answers its command, and ends with an exit code
and with what it has written to its two outputs.
-/

namespace DiagramEdit.CommandLine

/-- How a run ends. -/
structure Outcome where
  code : Nat
  output : Text
  errors : Text
deriving DecidableEq, Repr

def helpLines : List String :=
  ["mermaid-patch - Inspect and edit Mermaid diagram source",
   "",
   "Usage: mermaid-patch [OPTIONS] <COMMAND> [ARGS]",
   "",
   "Reads the diagram from --file or stdin and writes the result to stdout.",
   "",
   "Commands:",
   "  detect                    Print the diagram dialect",
   "  caps                      Print the dialect's edit capabilities as JSON",
   "  ids                       List node ids written with a shape",
   "  find <id>                 Print the node definition as JSON",
   "  label <id> <text>         Change an element's label",
   "  shape <id> <shape>        Change a node's shape",
   "  fill <id> <color|none>    Set or clear a node's fill color",
   "  stroke <id> <color|none>  Set or clear a node's border color",
   "  delete <id>               Remove a node and its edges",
   "  add                       Append a new node",
   "  edge <from> <to>          Append an edge",
   "  direction                 Toggle between TD and LR",
   "  template <dialect>        Print a starter diagram",
   "  config [options.json]     Print the renderer configuration",
   "  pick <svg-file> <id>      Identify the element clicked in a rendered SVG",
   "",
   "Options:",
   "  -h, --help               Show this help message",
   "  -f, --file <PATH>        Read the diagram from PATH instead of stdin",
   "      --log-level <LEVEL>  off, error, warn, info, debug or trace (default: warn)",
   "",
   "Example:",
   "  printf 'graph TD\\n  A[Start]' | mermaid-patch shape A circle"]

/-- The lines of help, each with a line feed at its end. -/
def helpText : Text :=
  helpLines.flatMap fun line => line.toList ++ ['\n']

/-- A line that reports an error. -/
def errorLine (message : Text) : Text :=
  "Error: ".toList ++ message ++ ['\n']

/-- The text with a line feed at its end. -/
def endLine (text : Text) : Text :=
  if text.getLast? == some '\n' then text else text ++ ['\n']

/-- A level that does not exist is reported and replaced by the usual one. -/
def levelWarning (level : Text) : Text :=
  if isLogLevel level then
    []
  else
    "Invalid log level: ".toList ++ level ++ ". Using 'warn' instead.\n".toList

variable {m : Type → Type} [Monad m]

/-- A run with the given words after the name of the program. -/
def runProgram (host : Host m) (words : List Text) : m Outcome := do
  match Arguments.parse words with
  | .error failure => return ⟨2, [], errorLine (Failure.usage failure).message⟩
  | .ok arguments =>
      if words.isEmpty || arguments.help then
        return ⟨0, helpText, []⟩
      else
        let warning := levelWarning arguments.logLevel
        match arguments.command with
        | [] =>
            return ⟨2, [],
              warning ++ errorLine "no command given, see --help".toList⟩
        | name :: rest =>
            match ← (answer host arguments.file name rest).run with
            | .ok answer =>
                return ⟨0, endLine answer.output, warning ++ answer.note⟩
            | .error failure =>
                return ⟨1, [], warning ++ errorLine failure.message⟩

end DiagramEdit.CommandLine
