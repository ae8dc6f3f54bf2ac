import DiagramEdit.Proofs.CommandLine.Arguments
import Mathlib.Logic.ExistsUnique
import Mathlib.Logic.Relation

/-!
# How words are read

The words of a run can be read from the left in one way only: options with their
values, as long as there are any, and then the words that are left.  These are
the command, unchanged, unless an option without its value is all that is left.
Taking in the words step by step, with a look at whether there is a command yet,
comes to the same.
-/

namespace DiagramEdit.CommandLine

open Arguments Relation

/-- The option that words begin with, and the words behind it and its value. -/
def takeOption : List Text → Option (GivenOption × List Text)
  | [] => none
  | word :: rest =>
      if help : isHelpOption word then
        some (.help word help, rest)
      else
        match rest with
        | [] => none
        | value :: rest =>
            if file : isFileOption word then
              some (.file word value file, rest)
            else if level : isLevelOption word then
              some (.level word value level, rest)
            else
              none

theorem takeOption_words_append (option : GivenOption) (rest : List Text) :
    takeOption (option.words ++ rest) = some (option, rest) := by
  cases option with
  | help word named => simp [GivenOption.words, takeOption, named]
  | file word path named =>
      have noHelp : isHelpOption word = false :=
        isHelpOption_eq_false (by simp [takesValue, named])
      simp [GivenOption.words, takeOption, noHelp, named]
  | level word name named =>
      have noHelp : isHelpOption word = false :=
        isHelpOption_eq_false (by simp [takesValue, named])
      simp [GivenOption.words, takeOption, noHelp, isFileOption_eq_false named,
        named]

/-- Words that are read to the end of the options: a command, or an option that
lacks its value. -/
def EndsOptions (words : List Text) : Prop :=
  words.head?.all (!isOption ·) ∨ ∃ option, words = [option] ∧ takesValue option

theorem takeOption_eq_none {words : List Text} (ends : EndsOptions words) :
    takeOption words = none := by
  rcases ends with plain | ⟨option, rfl, valued⟩
  · cases words with
    | nil => rfl
    | cons word rest =>
        simp only [isOption, takesValue, List.head?_cons, Option.all_some,
          Bool.not_eq_true', Bool.or_eq_false_iff] at plain
        obtain ⟨noHelp, noFile, noLevel⟩ := plain
        cases rest <;> simp [takeOption, noHelp, noFile, noLevel]
  · simp [takeOption, isHelpOption_eq_false valued]

/-- The words of a run as they are read from the left. -/
structure Reading where
  options : List GivenOption
  left : List Text
  ends : EndsOptions left

namespace Reading

def words (reading : Reading) : List Text :=
  optionWords reading.options ++ reading.left

/-- The option is all that is left, and its value is missing. -/
def Lacks (reading : Reading) (option : Text) : Prop :=
  reading.left = [option] ∧ takesValue option

theorem options_left_unique {options others : List GivenOption}
    {left right : List Text} (leftEnds : EndsOptions left)
    (rightEnds : EndsOptions right)
    (same : optionWords options ++ left = optionWords others ++ right) :
    options = others ∧ left = right := by
  induction options generalizing others with
  | nil =>
      cases others with
      | nil => exact ⟨rfl, same⟩
      | cons other others =>
          -- No option can be taken off on the left.
          have taken := takeOption_eq_none leftEnds
          change left = _ at same
          rw [same, optionWords_cons_append, takeOption_words_append] at taken
          cases taken
  | cons option options induction =>
      cases others with
      | nil =>
          have taken := takeOption_eq_none rightEnds
          change _ = right at same
          rw [← same, optionWords_cons_append, takeOption_words_append] at taken
          cases taken
      | cons other others =>
          have taken := congrArg takeOption same
          rw [optionWords_cons_append, optionWords_cons_append,
            takeOption_words_append, takeOption_words_append] at taken
          obtain ⟨rfl, rest⟩ := Prod.mk.inj (Option.some.inj taken)
          obtain ⟨rfl, rfl⟩ := induction rest
          exact ⟨rfl, rfl⟩

/-- Words are read in one way. -/
theorem existsUnique (words : List Text) :
    ∃! reading : Reading, reading.words = words := by
  obtain ⟨options, left, rfl, ends⟩ := exists_optionWords_append words
  refine ⟨⟨options, left, ends⟩, rfl, ?_⟩
  intro other same
  obtain ⟨optionsEq, leftEq⟩ := options_left_unique other.ends ends same
  cases other
  subst optionsEq leftEq
  rfl

variable {reading : Reading} {failure : UsageFailure} {arguments : Arguments}

theorem forall_not_lacks_iff :
    (∀ option, ¬reading.Lacks option) ↔
      reading.left.head?.all (!isOption ·) := by
  constructor
  · intro complete
    rcases reading.ends with plain | ⟨option, lacks⟩
    · exact plain
    · exact absurd lacks (complete option)
  · intro plain option lacks
    obtain ⟨single, valued⟩ := lacks
    rw [single] at plain
    simp [isOption, valued] at plain

/-- What a reading comes to if nothing is missing: the command is what is left,
and of several values of an option the last one counts. -/
def result (reading : Reading) : Arguments where
  help := reading.options.any GivenOption.isHelp
  file := (reading.options.filterMap GivenOption.path?).getLast?
  logLevel :=
    ((reading.options.filterMap GivenOption.level?).getLast?).getD "warn".toList
  command := reading.left

theorem parse_of_complete (complete : ∀ option, ¬reading.Lacks option) :
    parse reading.words = .ok reading.result := by
  refine parse_eq_ok_iff.mpr
    ⟨reading.options, reading.left, rfl, forall_not_lacks_iff.mp complete, ?_⟩
  simp [withOptions, Arguments.empty, result]

theorem parse_of_lacks {option : Text} (lacks : reading.Lacks option) :
    parse reading.words = .error (missingValue option) := by
  rw [parse, words, parseFrom_optionWords_append, lacks.1,
    parseFrom_last _ lacks.2]

theorem parse_words_eq_error_iff :
    parse reading.words = .error failure ↔
      ∃ option, reading.Lacks option ∧ failure = missingValue option := by
  constructor
  · intro fails
    rcases reading.ends with plain | ⟨option, lacks⟩
    · rw [parse_of_complete (forall_not_lacks_iff.mpr plain)] at fails
      cases fails
    · rw [parse_of_lacks lacks] at fails
      exact ⟨option, lacks, (Except.error.inj fails).symm⟩
  · intro parts
    obtain ⟨option, lacks, rfl⟩ := parts
    exact parse_of_lacks lacks

theorem parse_words_eq_ok_iff :
    parse reading.words = .ok arguments ↔
      (∀ option, ¬reading.Lacks option) ∧ arguments = reading.result := by
  constructor
  · intro succeeds
    have complete : ∀ option, ¬reading.Lacks option := by
      intro option lacks
      rw [parse_of_lacks lacks] at succeeds
      cases succeeds
    rw [parse_of_complete complete] at succeeds
    exact ⟨complete, (Except.ok.inj succeeds).symm⟩
  · intro parts
    obtain ⟨complete, rfl⟩ := parts
    exact parse_of_complete complete

end Reading

/-- What one option sets, whatever was set before. -/
def Arguments.withOption (arguments : Arguments) : GivenOption → Arguments
  | .help .. => { arguments with help := true }
  | .file _ path _ => { arguments with file := some path }
  | .level _ name _ => { arguments with logLevel := name }

theorem Arguments.withOptions_singleton (arguments : Arguments)
    (option : GivenOption) :
    arguments.withOptions [option] = arguments.withOption option := by
  cases option <;>
    simp [withOptions, withOption, GivenOption.isHelp, GivenOption.path?,
      GivenOption.level?]

theorem Arguments.command_withOption (arguments : Arguments)
    (option : GivenOption) :
    (arguments.withOption option).command = arguments.command := by
  cases option <;> rfl

/-- What the words so far have set, and the words that are still to be taken
in. -/
structure Intake where
  arguments : Arguments
  left : List Text

namespace Intake

/-- One step.  As long as there is no command, an option is taken in with its
value.  Any other word belongs to the command, and every word does once there is
one. -/
inductive Step : Intake → Intake → Prop where
  | option {arguments : Arguments} {left : List Text} (option : GivenOption)
      (idle : arguments.command = []) :
      Step ⟨arguments, option.words ++ left⟩ ⟨arguments.withOption option, left⟩
  | word {arguments : Arguments} {left : List Text} (word : Text)
      (plain : arguments.command = [] → isOption word = false) :
      Step ⟨arguments, word :: left⟩
        ⟨{ arguments with command := arguments.command ++ [word] }, left⟩

/-- What an intake comes to that cannot go on. -/
inductive Ends : Intake → Except UsageFailure Arguments → Prop where
  | done (arguments : Arguments) : Ends ⟨arguments, []⟩ (.ok arguments)
  | lacking {arguments : Arguments} {option : Text}
      (idle : arguments.command = []) (valued : takesValue option) :
      Ends ⟨arguments, [option]⟩ (.error (missingValue option))

/-- What the words that are left make of the arguments so far. -/
def outcome (intake : Intake) : Except UsageFailure Arguments :=
  if intake.arguments.command = [] then
    parseFrom intake.arguments intake.left
  else
    .ok
      { intake.arguments with
        command := intake.arguments.command ++ intake.left }

variable {before after final : Intake} {result : Except UsageFailure Arguments}

theorem Step.outcome_eq (step : Step before after) :
    before.outcome = after.outcome := by
  cases step with
  | option option idle =>
      have still := (command_withOption _ option).trans idle
      rw [outcome, outcome, if_pos idle, if_pos still, parseFrom_words_append,
        withOptions_singleton]
  | @word arguments left word plain =>
      have begun : arguments.command ++ [word] ≠ [] := by simp
      rw [outcome, outcome, if_neg begun]
      by_cases idle : arguments.command = []
      · -- With its first word the command has all the words that are left.
        rw [if_pos idle, parseFrom_command _ idle (by simp [plain idle])]
        simp [idle]
      · rw [if_neg idle]
        simp

theorem outcome_eq_of_run (run : ReflTransGen Step before after) :
    before.outcome = after.outcome := by
  induction run with
  | refl => rfl
  | tail _ step induction => exact induction.trans step.outcome_eq

theorem Ends.outcome_eq (ends : Ends final result) :
    final.outcome = result := by
  cases ends with
  | done arguments => simp [outcome, parseFrom]
  | lacking idle valued => rw [outcome, if_pos idle, parseFrom_last _ valued]

theorem run_options (arguments : Arguments) (options : List GivenOption)
    (left : List Text) (idle : arguments.command = []) :
    ReflTransGen Step ⟨arguments, optionWords options ++ left⟩
      ⟨arguments.withOptions options, left⟩ := by
  induction options generalizing arguments with
  | nil =>
      rw [withOptions_nil]
      exact .refl
  | cons option options induction =>
      have still := (command_withOption arguments option).trans idle
      rw [optionWords_cons_append, withOptions_cons, withOptions_singleton]
      exact .head (.option option idle) (induction _ still)

theorem run_command (arguments : Arguments) (left : List Text)
    (plain : arguments.command = [] → left.head?.all (!isOption ·)) :
    ReflTransGen Step ⟨arguments, left⟩
      ⟨{ arguments with command := arguments.command ++ left }, []⟩ := by
  induction left generalizing arguments with
  | nil =>
      rw [List.append_nil]
  | cons word left induction =>
      have step : Step ⟨arguments, word :: left⟩
          ⟨{ arguments with command := arguments.command ++ [word] }, left⟩ :=
        .word word fun idle => by simpa using plain idle
      have rest :=
        induction { arguments with command := arguments.command ++ [word] }
          (by simp)
      rw [List.append_cons]
      exact .head step rest

theorem exists_run (words : List Text) :
    ∃ final result, ReflTransGen Step ⟨.empty, words⟩ final ∧
      final.Ends result := by
  obtain ⟨options, left, rfl, ends⟩ := exists_optionWords_append words
  have run := run_options .empty options left rfl
  rcases ends with plain | ⟨option, rfl, valued⟩
  · exact ⟨_, _, run.trans (run_command _ left fun _ => plain), .done _⟩
  · exact ⟨_, _, run, .lacking rfl valued⟩

/-- Taking in the words step by step takes them apart. -/
theorem parse_eq_iff {words : List Text} :
    parse words = result ↔
      ∃ final, ReflTransGen Step ⟨.empty, words⟩ final ∧ final.Ends result := by
  have sound :
      ∀ {final : Intake} {result}, ReflTransGen Step ⟨.empty, words⟩ final →
        final.Ends result → parse words = result := by
    intro final result run ends
    exact (outcome_eq_of_run run).trans ends.outcome_eq
  constructor
  · intro parsed
    obtain ⟨final, other, run, ends⟩ := exists_run words
    obtain rfl := (sound run ends).symm.trans parsed
    exact ⟨final, run, ends⟩
  · intro parts
    obtain ⟨final, run, ends⟩ := parts
    exact sound run ends

end Intake

/-- Words are taken apart at the first word of the command.  In the one way in
which they can be read from the left, an option without its value fails, and
whatever else is left is the command as it stands.  A loop that looks at one
word after another does the same. -/
theorem parse_splits_at_command :
    (∀ words, ∃! reading : Reading, reading.words = words) ∧
      (∀ (reading : Reading) (failure : UsageFailure),
        parse reading.words = .error failure ↔
          ∃ option, reading.Lacks option ∧ failure = missingValue option) ∧
      (∀ (reading : Reading) (arguments : Arguments),
        parse reading.words = .ok arguments ↔
          (∀ option, ¬reading.Lacks option) ∧ arguments = reading.result) ∧
      ∀ (words : List Text) (result : Except UsageFailure Arguments),
        parse words = result ↔
          ∃ final, ReflTransGen Intake.Step ⟨.empty, words⟩ final ∧
            final.Ends result := by
  refine ⟨Reading.existsUnique, ?_, ?_, ?_⟩
  · intro reading failure
    exact Reading.parse_words_eq_error_iff
  · intro reading arguments
    exact Reading.parse_words_eq_ok_iff
  · intro words result
    exact Intake.parse_eq_iff

/-- Options are values of options, and words of a command. -/
example :
    parse ["-f".toList, "--help".toList, "--log-level".toList, "-f".toList,
        "label".toList, "-h".toList] =
      .ok ⟨false, some "--help".toList, "-f".toList,
        ["label".toList, "-h".toList]⟩ := by
  rfl

end DiagramEdit.CommandLine
