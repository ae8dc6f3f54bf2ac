import DiagramEdit.CommandLine.Folder
import DiagramEdit.CommandLine.Run
import DiagramEdit.Proofs.CommandLine.Arguments
import DiagramEdit.Proofs.CommandLine.Command

/-!
# Exit codes

The words of a run ask for help, or they are wrong from the options on, or they
call a command.  Wrong options end the run with two.  A call that fails ends it
with one, and it makes no difference whether the command is called wrongly or
fails over what it reads.
-/

namespace DiagramEdit.CommandLine

/-- Words that call a command. -/
structure Call where
  options : List GivenOption
  name : Text
  arguments : List Text
  noHelp : options.any GivenOption.isHelp = false
  named : isOption name = false

namespace Call

def words (call : Call) : List Text :=
  optionWords call.options ++ call.name :: call.arguments

/-- The file that the diagram is to be read from. -/
def file (call : Call) : Option Text :=
  (call.options.filterMap GivenOption.path?).getLast?

/-- Whether there is no such command, or it lacks an argument. -/
def Wrong (call : Call) : Prop :=
  (∀ command : Command, call.name ≠ command.name) ∨
    ∃ command : Command, call.name = command.name ∧
      call.arguments.length < command.needs

end Call

/-- An option lacks its value, or options without a request for help are all
there is. -/
inductive OptionsWrong : List Text → Prop where
  | lacksValue {option} (options : List GivenOption) :
      takesValue option → OptionsWrong (optionWords options ++ [option])
  | lacksCommand {options : List GivenOption} :
      options ≠ [] → options.any GivenOption.isHelp = false →
        OptionsWrong (optionWords options)

/-- The words call a command wrongly. -/
def CallWrong (words : List Text) : Prop :=
  ∃ call : Call, words = call.words ∧ call.Wrong

/-- The words are wrong in themselves, whatever there is to read. -/
def ArgumentsWrong (words : List Text) : Prop :=
  OptionsWrong words ∨ CallWrong words

/-- The words call a command that fails over what it reads. -/
def CallFails (host : Host Id) (words : List Text) : Prop :=
  ∃ (call : Call) (command : Command), words = call.words ∧
    call.name = command.name ∧
    CommandFails host call.file command call.arguments

/-- Help is asked for by an option, or by no words at all. -/
def AsksHelp (words : List Text) : Prop :=
  words = [] ∨ ∃ options command, words = optionWords options ++ command ∧
    command.head?.all (!isOption ·) ∧ options.any GivenOption.isHelp

theorem asksHelp_or_wrong_or_call (words : List Text) :
    AsksHelp words ∨ OptionsWrong words ∨
      ∃ call : Call, words = call.words := by
  obtain ⟨options, rest, rfl, begins | ⟨option, rfl, valued⟩⟩ :=
    exists_optionWords_append words
  · cases help : options.any GivenOption.isHelp with
    | true => exact .inl (.inr ⟨options, rest, rfl, begins, help⟩)
    | false =>
        cases rest with
        | nil =>
            by_cases wordless : options = []
            · subst wordless
              exact .inl (.inl rfl)
            · rw [List.append_nil]
              exact .inr (.inl (.lacksCommand wordless help))
        | cons name arguments =>
            have named : isOption name = false := by simpa using begins
            exact .inr (.inr ⟨⟨options, name, arguments, help, named⟩, rfl⟩)
  · exact .inr (.inl (.lacksValue options valued))

theorem optionWords_eq_nil_iff {options : List GivenOption} :
    optionWords options = [] ↔ options = [] := by
  cases options with
  | nil => exact iff_of_true rfl rfl
  | cons option options =>
      cases option <;> simp [optionWords, GivenOption.words]

/-- What a run comes to. -/
def outcome (host : Host Id) (words : List Text) : Outcome :=
  (runProgram host words).run

variable {host : Host Id} {words : List Text}

theorem outcome_of_asksHelp (asked : AsksHelp words) :
    outcome host words = ⟨0, helpText, []⟩ := by
  rcases asked with rfl | ⟨options, command, rfl, begins, help⟩
  · rfl
  · have parsed := parse_eq_ok_iff.mpr ⟨options, command, rfl, begins, rfl⟩
    simp [outcome, runProgram, parsed, help]

theorem outcome_of_optionsWrong (wrong : OptionsWrong words) :
    (outcome host words).code = 2 ∧ (outcome host words).output = [] := by
  cases wrong with
  | @lacksValue option options valued =>
      obtain ⟨failure, fails⟩ :=
        exists_parse_eq_error_iff.mpr ⟨options, option, rfl, valued⟩
      simp [outcome, runProgram, fails]
  | @lacksCommand options given noHelp =>
      have parsed :=
        parse_eq_ok_iff.mpr ⟨options, [], (List.append_nil _).symm, rfl, rfl⟩
      have nonempty : optionWords options ≠ [] :=
        mt optionWords_eq_nil_iff.mp given
      simp [outcome, runProgram, parsed, noHelp, nonempty]

/-- A call ends as the answer to its command does. -/
theorem outcome_of_call (call : Call) :
    (Fails (answer host call.file call.name call.arguments) ∧
        (outcome host call.words).code = 1 ∧
        (outcome host call.words).output = []) ∨
      (¬Fails (answer host call.file call.name call.arguments) ∧
        (outcome host call.words).code = 0) := by
  have parsed : Arguments.parse call.words = .ok _ := parse_eq_ok_iff.mpr
    ⟨call.options, call.name :: call.arguments, rfl, by simp [call.named], rfl⟩
  have nonempty : call.words ≠ [] := by simp [Call.words]
  have file : (Arguments.empty.withOptions call.options).file = call.file :=
    Arguments.file_withOptions_empty call.options
  have help : (Arguments.empty.withOptions call.options).help = false :=
    (Arguments.help_withOptions_empty call.options).trans call.noHelp
  cases ended : result (answer host call.file call.name call.arguments) with
  | error failure =>
      refine .inl ⟨⟨failure, ended⟩, ?_⟩
      simp only [result] at ended
      simp [outcome, runProgram, parsed, nonempty, help, file, ended]
  | ok answer =>
      refine .inr ⟨by simp [Fails, ended], ?_⟩
      simp only [result] at ended
      simp [outcome, runProgram, parsed, nonempty, help, file, ended]

theorem fails_answer_call_iff (call : Call) :
    Fails (answer host call.file call.name call.arguments) ↔
      call.Wrong ∨ ∃ command : Command, call.name = command.name ∧
        CommandFails host call.file command call.arguments := by
  constructor
  · intro fails
    by_cases known : ∃ command : Command, call.name = command.name
    · obtain ⟨command, named⟩ := known
      rw [named, fails_answer_iff] at fails
      rcases fails with lacking | fails
      · exact .inl (.inr ⟨command, named, lacking⟩)
      · exact .inr ⟨command, named, fails⟩
    · exact .inl (.inl (not_exists.mp known))
  · rintro ((unknown | ⟨command, named, lacking⟩) | ⟨command, named, fails⟩)
    · exact fails_answer_of_unknown unknown
    · rw [named]
      exact fails_answer_iff.mpr (.inl lacking)
    · rw [named]
      exact fails_answer_iff.mpr (.inr fails)

theorem outcome_of_callWrong_or_callFails
    (wrong : CallWrong words ∨ CallFails host words) :
    (outcome host words).code = 1 ∧ (outcome host words).output = [] := by
  obtain ⟨call, rfl, fails⟩ : ∃ call : Call, words = call.words ∧
      Fails (answer host call.file call.name call.arguments) := by
    rcases wrong with ⟨call, rfl, wrong⟩ | ⟨call, command, rfl, named, fails⟩
    · exact ⟨call, rfl, (fails_answer_call_iff call).mpr (.inl wrong)⟩
    · exact ⟨call, rfl,
        (fails_answer_call_iff call).mpr (.inr ⟨command, named, fails⟩)⟩
  rcases outcome_of_call call with ⟨_, ends⟩ | ⟨succeeds, _⟩
  · exact ends
  · exact absurd fails succeeds

theorem code_eq_zero (options : ¬OptionsWrong words)
    (sound : ¬(CallWrong words ∨ CallFails host words)) :
    (outcome host words).code = 0 := by
  rcases asksHelp_or_wrong_or_call words with asked | wrong | ⟨call, rfl⟩
  · rw [outcome_of_asksHelp asked]
  · exact absurd wrong options
  · rcases @outcome_of_call host call with ⟨fails, _⟩ | ⟨_, ends⟩
    · rcases (fails_answer_call_iff call).mp fails with
        wrong | ⟨command, named, fails⟩
      · exact absurd (.inl ⟨call, rfl, wrong⟩) sound
      · exact absurd (.inr ⟨call, command, rfl, named, fails⟩) sound
    · exact ends

/-- What exit codes are for: a run ends with two if its arguments are wrong and
with one if it fails over what it reads, and it prints nothing then. -/
structure SeparatesErrors (host : Host Id) (words : List Text) : Prop where
  two : (outcome host words).code = 2 ↔ ArgumentsWrong words
  one : (outcome host words).code = 1 ↔
    ¬ArgumentsWrong words ∧ CallFails host words
  zero : (outcome host words).code = 0 ↔
    ¬ArgumentsWrong words ∧ ¬CallFails host words
  silent : (outcome host words).code ≠ 0 → (outcome host words).output = []

/-- Runs keep to their exit codes unless they call a command wrongly.  Such a
run ends like one that fails over what it reads. -/
theorem separatesErrors_iff (host : Host Id) (words : List Text) :
    (SeparatesErrors host words ↔ ¬CallWrong words) ∧
      (CallWrong words →
        (outcome host words).code = 1 ∧ (outcome host words).output = []) := by
  have ofCall := @outcome_of_callWrong_or_callFails host words
  refine ⟨⟨?_, ?_⟩, fun wrong => ofCall (.inl wrong)⟩
  · intro separates wrong
    have two := separates.two.mpr (.inr wrong)
    rw [(ofCall (.inl wrong)).1] at two
    cases two
  · intro sound
    by_cases options : OptionsWrong words
    · obtain ⟨two, silent⟩ := @outcome_of_optionsWrong host words options
      constructor <;> simp [two, silent, ArgumentsWrong, options]
    by_cases fails : CallFails host words
    · obtain ⟨one, silent⟩ := ofCall (.inr fails)
      constructor <;> simp [one, silent, ArgumentsWrong, options, sound, fails]
    · have zero := code_eq_zero options (not_or.mpr ⟨sound, fails⟩)
      constructor <;> simp [zero, ArgumentsWrong, options, sound, fails]

/-- An edge without its target ends the run with one. -/
theorem not_separatesErrors :
    ¬∀ (folder : Folder) (input : Except ReadFailure Text) (words : List Text),
      SeparatesErrors (folder.host input) words := by
  intro separates
  have two :=
    (separates ⟨[]⟩ (.ok "flowchart TD\n".toList)
      ["edge".toList, "A".toList]).two
  have wrong : ArgumentsWrong ["edge".toList, "A".toList] :=
    .inr ⟨⟨[], "edge".toList, ["A".toList], rfl, by decide⟩, rfl,
      .inr ⟨.edge, rfl, by decide⟩⟩
  have one : (outcome (Folder.host ⟨[]⟩ (.ok "flowchart TD\n".toList))
      ["edge".toList, "A".toList]).code = 1 := by
    decide +kernel
  rw [two.mpr wrong] at one
  cases one

end DiagramEdit.CommandLine
