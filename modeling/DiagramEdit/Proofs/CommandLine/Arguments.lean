import DiagramEdit.CommandLine.Arguments

/-!
# How words are taken apart

The words of a run are options and then a command.  An option that needs a value
takes whatever word follows it, and the first word that is no option begins the
command.
-/

namespace DiagramEdit.CommandLine

open Arguments

/-- An option as it is written, with its value if it needs one. -/
inductive GivenOption where
  | help (word : Text) (named : isHelpOption word)
  | file (word path : Text) (named : isFileOption word)
  | level (word name : Text) (named : isLevelOption word)

/-- Options that need a value. -/
def takesValue (word : Text) : Bool :=
  isFileOption word || isLevelOption word

def isOption (word : Text) : Bool :=
  isHelpOption word || takesValue word

theorem isHelpOption_eq_false {word : Text} (valued : takesValue word) :
    isHelpOption word = false := by
  simp only [takesValue, isFileOption, isLevelOption, Bool.or_eq_true,
    beq_iff_eq] at valued
  rcases valued with (rfl | rfl) | rfl <;> rfl

theorem isFileOption_eq_false {word : Text} (named : isLevelOption word) :
    isFileOption word = false := by
  simp only [isLevelOption, beq_iff_eq] at named
  subst named
  rfl

namespace GivenOption

/-- The words of the option. -/
def words : GivenOption → List Text
  | .help word _ => [word]
  | .file word path _ => [word, path]
  | .level word name _ => [word, name]

def isHelp : GivenOption → Bool
  | .help .. => true
  | _ => false

def path? : GivenOption → Option Text
  | .file _ path _ => some path
  | _ => none

def level? : GivenOption → Option Text
  | .level _ name _ => some name
  | _ => none

end GivenOption

/-- The words of some options. -/
def optionWords (options : List GivenOption) : List Text :=
  options.flatMap GivenOption.words

theorem optionWords_cons_append (option : GivenOption)
    (options : List GivenOption) (rest : List Text) :
    optionWords (option :: options) ++ rest =
      option.words ++ (optionWords options ++ rest) := by
  simp [optionWords]

namespace Arguments

/-- What some options set on top of what was set before.  The last value
counts. -/
def withOptions (arguments : Arguments) (options : List GivenOption) :
    Arguments where
  help := arguments.help || options.any GivenOption.isHelp
  file := ((options.filterMap GivenOption.path?).getLast?).or arguments.file
  logLevel :=
    ((options.filterMap GivenOption.level?).getLast?).getD arguments.logLevel
  command := arguments.command

theorem withOptions_nil (arguments : Arguments) :
    arguments.withOptions [] = arguments := by
  simp [withOptions]

@[simp]
theorem help_withOptions_empty (options : List GivenOption) :
    (empty.withOptions options).help = options.any GivenOption.isHelp := rfl

@[simp]
theorem file_withOptions_empty (options : List GivenOption) :
    (empty.withOptions options).file =
      (options.filterMap GivenOption.path?).getLast? := by
  simp [withOptions, empty]

theorem withOptions_cons (arguments : Arguments) (option : GivenOption)
    (options : List GivenOption) :
    arguments.withOptions (option :: options) =
      (arguments.withOptions [option]).withOptions options := by
  cases option with
  | help word named =>
      simp [withOptions, GivenOption.isHelp, GivenOption.path?,
        GivenOption.level?]
  | file word path named =>
      cases others : (options.filterMap GivenOption.path?).getLast? <;>
        simp [withOptions, GivenOption.isHelp, GivenOption.path?,
          GivenOption.level?, others, List.getLast?_cons]
  | level word name named =>
      simp [withOptions, GivenOption.isHelp, GivenOption.path?,
        GivenOption.level?, List.getLast?_cons]

/-- The option that stands first is taken off with its value. -/
theorem parseFrom_words_append (arguments : Arguments) (option : GivenOption)
    (rest : List Text) :
    parseFrom arguments (option.words ++ rest) =
      parseFrom (arguments.withOptions [option]) rest := by
  cases option with
  | help word named =>
      change parseFrom arguments (word :: rest) = _
      rw [parseFrom.eq_def]
      simp [named, withOptions, GivenOption.isHelp, GivenOption.path?,
        GivenOption.level?]
  | file word path named =>
      have noHelp : isHelpOption word = false :=
        isHelpOption_eq_false (by simp [takesValue, named])
      change parseFrom arguments (word :: path :: rest) = _
      rw [parseFrom.eq_def]
      simp [noHelp, named, withOptions, GivenOption.isHelp, GivenOption.path?,
        GivenOption.level?]
  | level word name named =>
      have noHelp : isHelpOption word = false :=
        isHelpOption_eq_false (by simp [takesValue, named])
      have noFile := isFileOption_eq_false named
      change parseFrom arguments (word :: name :: rest) = _
      rw [parseFrom.eq_def]
      simp [noHelp, noFile, named, withOptions, GivenOption.isHelp,
        GivenOption.path?, GivenOption.level?]

theorem parseFrom_optionWords_append (arguments : Arguments)
    (options : List GivenOption) (rest : List Text) :
    parseFrom arguments (optionWords options ++ rest) =
      parseFrom (arguments.withOptions options) rest := by
  induction options generalizing arguments with
  | nil => rw [withOptions_nil]; rfl
  | cons option options induction =>
      rw [optionWords_cons_append, parseFrom_words_append, induction,
        ← withOptions_cons]

/-- The words from the first one on that is no option are the command. -/
theorem parseFrom_command (arguments : Arguments) {command : List Text}
    (fresh : arguments.command = [])
    (begins : command.head?.all (!isOption ·)) :
    parseFrom arguments command =
      .ok { arguments with command := command } := by
  cases command with
  | nil =>
      rw [parseFrom, ← fresh]
  | cons name rest =>
      rw [parseFrom.eq_def]
      simp only [isOption, takesValue, List.head?_cons, Option.all_some,
        Bool.not_eq_true', Bool.or_eq_false_iff] at begins
      obtain ⟨noHelp, noFile, noLevel⟩ := begins
      simp [noHelp, noFile, noLevel]

/-- What is wrong with an option that stands last without the value it needs. -/
def missingValue (option : Text) : UsageFailure :=
  if isFileOption option then .needsPath option else .needsLevel

theorem parseFrom_last (arguments : Arguments) {option : Text}
    (valued : takesValue option) :
    parseFrom arguments [option] = .error (missingValue option) := by
  have noHelp := isHelpOption_eq_false valued
  rw [parseFrom.eq_def]
  cases file : isFileOption option with
  | true => simp [noHelp, file, missingValue]
  | false =>
      rw [takesValue, file, Bool.false_or] at valued
      simp [noHelp, file, valued, missingValue]

theorem parseFrom_takesValue (arguments : Arguments) {option : Text}
    (valued : takesValue option) :
    ∃ failure, parseFrom arguments [option] = .error failure :=
  ⟨missingValue option, parseFrom_last arguments valued⟩

end Arguments

/-- Behind the options there is a command, or an option that lacks its value. -/
theorem exists_optionWords_append :
    ∀ words : List Text, ∃ options rest, words = optionWords options ++ rest ∧
      (rest.head?.all (!isOption ·) ∨
        ∃ option, rest = [option] ∧ takesValue option)
  | [] => ⟨[], [], rfl, .inl rfl⟩
  | word :: words => by
      by_cases help : isHelpOption word
      · obtain ⟨options, rest, split, ends⟩ := exists_optionWords_append words
        exact ⟨.help word help :: options, rest,
          by simp [split, optionWords, GivenOption.words], ends⟩
      by_cases valued : takesValue word
      · match words with
        | [] => exact ⟨[], [word], rfl, .inr ⟨word, rfl, valued⟩⟩
        | value :: words =>
            obtain ⟨options, rest, split, ends⟩ :=
              exists_optionWords_append words
            by_cases file : isFileOption word
            · exact ⟨.file word value file :: options, rest,
                by simp [split, optionWords, GivenOption.words], ends⟩
            · have level : isLevelOption word := by
                simpa [takesValue, file] using valued
              exact ⟨.level word value level :: options, rest,
                by simp [split, optionWords, GivenOption.words], ends⟩
      · exact ⟨[], word :: words, rfl, .inl (by simp [isOption, help, valued])⟩

/-- What words are taken apart into: what the options in front set, and the
command. -/
theorem parse_eq_ok_iff {words : List Text} {arguments : Arguments} :
    parse words = .ok arguments ↔
      ∃ options command, words = optionWords options ++ command ∧
        command.head?.all (!isOption ·) ∧
        arguments =
          { Arguments.empty.withOptions options with command := command } := by
  have parsed : ∀ options command, command.head?.all (!isOption ·) →
      parse (optionWords options ++ command) =
        .ok
          { Arguments.empty.withOptions options with command := command } := by
    intro options command begins
    rw [parse, parseFrom_optionWords_append]
    exact parseFrom_command _ rfl begins
  constructor
  · intro succeeds
    obtain ⟨options, rest, rfl, begins | ⟨option, rfl, valued⟩⟩ :=
      exists_optionWords_append words
    · rw [parsed options rest begins] at succeeds
      exact ⟨options, rest, rfl, begins, (Except.ok.inj succeeds).symm⟩
    · obtain ⟨failure, fails⟩ :=
        parseFrom_takesValue (Arguments.empty.withOptions options) valued
      rw [parse, parseFrom_optionWords_append, fails] at succeeds
      cases succeeds
  · intro parts
    obtain ⟨options, command, rfl, begins, rfl⟩ := parts
    exact parsed options command begins

/-- Words cannot be taken apart if the last one is an option that needs a
value. -/
theorem exists_parse_eq_error_iff {words : List Text} :
    (∃ failure, parse words = .error failure) ↔
      ∃ options option, words = optionWords options ++ [option] ∧
        takesValue option := by
  constructor
  · intro fails
    obtain ⟨failure, fails⟩ := fails
    obtain ⟨options, rest, rfl, begins | ⟨option, rfl, valued⟩⟩ :=
      exists_optionWords_append words
    · rw [parse_eq_ok_iff.mpr ⟨options, rest, rfl, begins, rfl⟩] at fails
      cases fails
    · exact ⟨options, option, rfl, valued⟩
  · intro parts
    obtain ⟨options, option, rfl, valued⟩ := parts
    rw [parse, parseFrom_optionWords_append]
    exact parseFrom_takesValue _ valued

end DiagramEdit.CommandLine
