import DiagramEdit.CommandLine.Command

/-!
# When commands fail

A command fails if it is called wrongly: if there is none of that name, or if it
lacks an argument.  Called rightly, it fails only over what it reads: its
diagram and files, and the names that are to stand for a shape, a dialect or an
element.
-/

namespace DiagramEdit.CommandLine

inductive Command where
  | detect
  | capabilities
  | ids
  | find
  | label
  | shape
  | fill
  | stroke
  | delete
  | add
  | edge
  | direction
  | template
  | config
  | pick
deriving DecidableEq, Repr

namespace Command

def word : Command → String
  | detect => "detect"
  | capabilities => "caps"
  | ids => "ids"
  | find => "find"
  | label => "label"
  | shape => "shape"
  | fill => "fill"
  | stroke => "stroke"
  | delete => "delete"
  | add => "add"
  | edge => "edge"
  | direction => "direction"
  | template => "template"
  | config => "config"
  | pick => "pick"

/-- The name by which the command is called. -/
def name (command : Command) : Text :=
  command.word.toList

/-- The number of arguments that the command needs. -/
def needs : Command → Nat
  | detect | capabilities | ids | add | direction | config => 0
  | find | delete | template => 1
  | label | shape | fill | stroke | edge | pick => 2

/-- Whether the command works on a diagram. -/
def readsDiagram : Command → Bool
  | template | config => false
  | _ => true

theorem name_ne_of_readsDiagram {command other : Command}
    (reads : command.readsDiagram) (standalone : other.readsDiagram = false) :
    command.name ≠ other.name := by
  cases other with
  | template | config => revert reads; cases command <;> decide
  | _ => cases standalone

end Command

/-- What a file holds, or why it cannot be read. -/
def Host.contents (host : Host Id) (path : Text) : Except ReadFailure Text :=
  (host.readFile path).run

/-- The diagram of a run, or why it cannot be read. -/
def Host.diagram (host : Host Id) : Option Text → Except ReadFailure Text
  | some path => host.contents path
  | none => host.readInput.run

/-- What can go wrong with a command that is called rightly. -/
inductive CommandFails (host : Host Id) (file : Option Text) :
    Command → List Text → Prop where
  | unreadableDiagram {command arguments failure} :
      command.readsDiagram → host.diagram file = .error failure →
      CommandFails host file command arguments
  | unknownShape {id shape rest} :
      Shape.ofName? shape = none →
      CommandFails host file .shape (id :: shape :: rest)
  | unknownDialect {dialect rest} :
      Dialect.ofName? dialect = none →
      CommandFails host file .template (dialect :: rest)
  | unreadableOptions {path rest failure} :
      host.contents path = .error failure →
      CommandFails host file .config (path :: rest)
  | invalidOptions {path rest text} :
      host.contents path = .ok text → RenderOptions.read? text = none →
      CommandFails host file .config (path :: rest)
  | unreadableDrawing {path id rest failure} :
      host.contents path = .error failure →
      CommandFails host file .pick (path :: id :: rest)
  | invalidDrawing {path id rest text} :
      host.contents path = .ok text → Svg.Document.read? text = none →
      CommandFails host file .pick (path :: id :: rest)
  | elementNotFound {path id rest text document} :
      host.contents path = .ok text → Svg.Document.read? text = some document →
      document.findById? id = none →
      CommandFails host file .pick (path :: id :: rest)

section Result

variable {α β : Type}

@[simp]
theorem pure_eq_ok (value : α) : (pure value : Except Failure α) = .ok value :=
  rfl

@[simp]
theorem throw_eq_error (failure : Failure) :
    (throw failure : Except Failure α) = .error failure := rfl

/-- What an action ends in. -/
def result (action : ExceptT Failure Id α) : Except Failure α :=
  action.run.run

@[simp]
theorem result_pure (value : α) : result (pure value) = .ok value := rfl

@[simp]
theorem result_throw (failure : Failure) :
    result (throw failure : ExceptT Failure Id α) = .error failure := rfl

@[simp]
theorem result_liftM (given : Except Failure α) :
    result (liftM given : ExceptT Failure Id α) = given := rfl

theorem result_bind_of_ok {action : ExceptT Failure Id α} {value : α}
    (succeeds : result action = .ok value) (next : α → ExceptT Failure Id β) :
    result (action >>= next) = result (next value) := by
  change Id.run (ExceptT.bindCont next (result action)) = _
  rw [succeeds]
  rfl

theorem result_bind_of_error {action : ExceptT Failure Id α} {failure : Failure}
    (fails : result action = .error failure) (next : α → ExceptT Failure Id β) :
    result (action >>= next) = .error failure := by
  change Id.run (ExceptT.bindCont next (result action)) = _
  rw [fails]
  rfl

/-- The action ends in a failure. -/
def Fails (action : ExceptT Failure Id α) : Prop :=
  ∃ failure, result action = .error failure

@[simp]
theorem not_fails_pure (value : α) : ¬Fails (pure value) := by
  rintro ⟨failure, impossible⟩
  cases impossible

@[simp]
theorem fails_throw (failure : Failure) :
    Fails (throw failure : ExceptT Failure Id α) :=
  ⟨failure, rfl⟩

@[simp]
theorem fails_bind_iff {action : ExceptT Failure Id α}
    {next : α → ExceptT Failure Id β} :
    Fails (action >>= next) ↔
      Fails action ∨
        ∃ value, result action = .ok value ∧ Fails (next value) := by
  cases ended : result action with
  | ok value => simp [Fails, result_bind_of_ok ended, ended]
  | error failure => simp [Fails, result_bind_of_error ended, ended]

@[simp]
theorem fails_map_iff {action : ExceptT Failure Id α} {change : α → β} :
    Fails (change <$> action) ↔ Fails action := by
  rw [map_eq_pure_bind, fails_bind_iff]
  simp

@[simp]
theorem fails_liftM_iff {given : Except Failure α} :
    Fails (liftM given : ExceptT Failure Id α) ↔
      ∃ failure, given = .error failure :=
  Iff.rfl

end Result

variable {host : Host Id} {file : Option Text} {arguments : List Text}
  {source : Text}

@[simp]
theorem argument_eq_ok_iff {name value : Text} {index : Nat} {what : String} :
    argument name arguments index what = .ok value ↔
      arguments[index]? = some value := by
  cases given : arguments[index]? <;> simp [argument, given]

@[simp]
theorem exists_argument_eq_error_iff {name : Text} {index : Nat}
    {what : String} :
    (∃ failure, argument name arguments index what = .error failure) ↔
      arguments.length ≤ index := by
  rw [← List.getElem?_eq_none_iff]
  cases given : arguments[index]? <;> simp [argument, given]

theorem fails_reading_iff {reading : Except ReadFailure Text} :
    Fails (match reading with
      | .ok text => (return text : ExceptT Failure Id Text)
      | .error failure => throw (.unreadable failure)) ↔
    ∃ failure, reading = .error failure := by
  cases reading <;> simp

theorem result_reading_iff {reading : Except ReadFailure Text} {text : Text} :
    result (match reading with
      | .ok text => (return text : ExceptT Failure Id Text)
      | .error failure => throw (.unreadable failure)) = .ok text ↔
    reading = .ok text := by
  cases reading <;> simp

@[simp]
theorem fails_file_iff {path : Text} :
    Fails (host.file path) ↔ ∃ failure, host.contents path = .error failure :=
  fails_reading_iff

@[simp]
theorem result_file_eq_ok_iff {path text : Text} :
    result (host.file path) = .ok text ↔ host.contents path = .ok text :=
  result_reading_iff

theorem fails_source_iff :
    Fails (host.source file) ↔
      ∃ failure, host.diagram file = .error failure := by
  cases file with
  | some path => exact fails_file_iff
  | none => exact fails_reading_iff

theorem result_source_eq_ok_iff :
    result (host.source file) = .ok source ↔
      host.diagram file = .ok source := by
  cases file with
  | some path => exact result_file_eq_ok_iff
  | none => exact result_reading_iff

theorem lacks_one_of_two_iff :
    (arguments = [] ∨
        (∃ first, arguments[0]? = some first) ∧ arguments.length ≤ 1) ↔
      arguments.length < 2 := by
  rcases arguments with _ | ⟨first, _ | ⟨second, rest⟩⟩ <;> simp

/-- Commands that read nothing beside their diagram fail only for want of an
argument. -/
theorem fails_run_iff {command : Command}
    (plain : command ∉ [.shape, .template, .config, .pick]) :
    Fails (run host command.name arguments source) ↔
      arguments.length < command.needs := by
  cases command with
  | detect | capabilities | ids | add | find =>
      simp [run, Command.name, Command.word, Command.needs]
  | delete | direction =>
      simp [run, editOf, Command.name, Command.word, Command.needs]
  | label | fill | stroke | edge =>
      simpa [run, editOf, Command.name, Command.word, Command.needs]
        using lacks_one_of_two_iff
  | shape | template | config | pick => simp at plain

theorem fails_run_shape_iff :
    Fails (run host Command.shape.name arguments source) ↔
      arguments.length < 2 ∨
        ∃ id shape rest, arguments = id :: shape :: rest ∧
          Shape.ofName? shape = none := by
  rcases arguments with _ | ⟨id, _ | ⟨shapeName, rest⟩⟩
  · simp [run, editOf, Command.name, Command.word]
  · simp [run, editOf, Command.name, Command.word]
  · cases found : Shape.ofName? shapeName <;>
      simp [run, editOf, Command.name, Command.word, found, and_assoc]

theorem fails_run_pick_iff :
    Fails (run host Command.pick.name arguments source) ↔ arguments.length < 2 ∨
      ∃ path id rest, arguments = path :: id :: rest ∧
        ((∃ failure, host.contents path = .error failure) ∨
          ∃ text, host.contents path = .ok text ∧
            (Svg.Document.read? text = none ∨
              ∃ document, Svg.Document.read? text = some document ∧
                document.findById? id = none)) := by
  have picked : run host Command.pick.name arguments source =
      pick host Command.pick.name arguments source := by
    simp [run, Command.name, Command.word]
  rw [picked]
  rcases arguments with _ | ⟨path, _ | ⟨id, rest⟩⟩
  · simp [pick]
  · simp [pick]
  · cases read : host.contents path with
    | error failure => simp [pick, read, and_assoc]
    | ok text =>
        cases parsed : Svg.Document.read? text with
        | none => simp [pick, read, parsed, and_assoc]
        | some document =>
            cases found : document.findById? id <;>
              simp [pick, read, parsed, found, and_assoc]

theorem fails_answer_template_iff :
    Fails (answer host file Command.template.name arguments) ↔
      arguments.length < 1 ∨
        ∃ dialect rest, arguments = dialect :: rest ∧
          Dialect.ofName? dialect = none := by
  cases arguments with
  | nil => simp [answer, runStandalone, Command.name, Command.word]
  | cons dialectName rest =>
      cases found : Dialect.ofName? dialectName <;>
        simp [answer, runStandalone, Command.name, Command.word, found,
          and_assoc]

theorem fails_answer_config_iff :
    Fails (answer host file Command.config.name arguments) ↔
      ∃ path rest, arguments = path :: rest ∧
        ((∃ failure, host.contents path = .error failure) ∨
          ∃ text, host.contents path = .ok text ∧
            RenderOptions.read? text = none) := by
  cases arguments with
  | nil => simp [answer, runStandalone, Command.name, Command.word]
  | cons path rest =>
      cases read : host.contents path with
      | error failure =>
          simp [answer, runStandalone, Command.name, Command.word, read]
      | ok text =>
          cases parsed : RenderOptions.read? text <;>
            simp [answer, runStandalone, Command.name, Command.word, read,
              parsed, and_assoc]

/-- Any other command begins with its diagram. -/
theorem fails_answer_iff_of_diagram {name : Text}
    (noTemplate : name ≠ Command.template.name)
    (noConfig : name ≠ Command.config.name) :
    Fails (answer host file name arguments) ↔
      (∃ failure, host.diagram file = .error failure) ∨
        ∃ source, host.diagram file = .ok source ∧
          Fails (run host name arguments source) := by
  have standalone : runStandalone host name arguments = pure none := by
    have template : (name == "template".toList) = false :=
      beq_false_of_ne noTemplate
    have config : (name == "config".toList) = false := beq_false_of_ne noConfig
    simp only [runStandalone, template, config, Bool.false_eq_true, if_false]
  rw [answer, standalone, pure_bind, fails_bind_iff, fails_source_iff]
  simp only [result_source_eq_ok_iff]

theorem fails_answer_of_unknown {name : Text}
    (unknown : ∀ command : Command, name ≠ command.name) :
    Fails (answer host file name arguments) := by
  have differs : ∀ (command : Command) (word : String), command.word = word →
      (name == word.toList) = false := by
    intro command word same
    rw [← same]
    exact beq_false_of_ne (unknown command)
  rw [fails_answer_iff_of_diagram (unknown .template) (unknown .config)]
  cases readable : host.diagram file with
  | error failure => exact .inl ⟨failure, rfl⟩
  | ok source =>
      refine .inr ⟨source, rfl, .usage (.unknownCommand name), ?_⟩
      simp only [run, editOf, differs .detect "detect" rfl,
        differs .capabilities "caps" rfl, differs .ids "ids" rfl,
        differs .find "find" rfl, differs .add "add" rfl,
        differs .pick "pick" rfl, differs .label "label" rfl,
        differs .shape "shape" rfl, differs .fill "fill" rfl,
        differs .stroke "stroke" rfl, differs .delete "delete" rfl,
        differs .edge "edge" rfl, differs .direction "direction" rfl,
        Bool.false_eq_true, if_false]
      rfl

theorem not_commandFails {command : Command}
    (plain : command ∉ [.shape, .template, .config, .pick])
    (readable : host.diagram file = .ok source) :
    ¬CommandFails host file command arguments := by
  intro fails
  cases fails with
  | unreadableDiagram _ unreadable => simp [readable] at unreadable
  | _ => simp at plain

/-- Once its diagram is there, a command fails over its arguments and what they
name. -/
theorem fails_run_iff_of_readable {command : Command}
    (reads : command.readsDiagram) (readable : host.diagram file = .ok source) :
    Fails (run host command.name arguments source) ↔
      arguments.length < command.needs ∨
        CommandFails host file command arguments := by
  by_cases plain : command ∈ [.shape, .template, .config, .pick]
  · simp only [List.mem_cons, List.not_mem_nil, or_false] at plain
    rcases plain with rfl | rfl | rfl | rfl
    · rw [fails_run_shape_iff]
      refine or_congr Iff.rfl ⟨?_, ?_⟩
      · rintro ⟨id, shape, rest, rfl, unknown⟩
        exact .unknownShape unknown
      · intro fails
        cases fails with
        | unreadableDiagram _ unreadable => simp [readable] at unreadable
        | unknownShape unknown => exact ⟨_, _, _, rfl, unknown⟩
    · cases reads
    · cases reads
    · rw [fails_run_pick_iff]
      refine or_congr Iff.rfl ⟨?_, ?_⟩
      · rintro ⟨path, id, rest, rfl, ⟨failure, unreadable⟩ |
          ⟨text, read, invalid | ⟨document, parsed, missing⟩⟩⟩
        · exact .unreadableDrawing unreadable
        · exact .invalidDrawing read invalid
        · exact .elementNotFound read parsed missing
      · intro fails
        cases fails with
        | unreadableDiagram _ unreadable => simp [readable] at unreadable
        | unreadableDrawing unreadable =>
            exact ⟨_, _, _, rfl, .inl ⟨_, unreadable⟩⟩
        | invalidDrawing read invalid =>
            exact ⟨_, _, _, rfl, .inr ⟨_, read, .inl invalid⟩⟩
        | elementNotFound read parsed missing =>
            exact ⟨_, _, _, rfl, .inr ⟨_, read, .inr ⟨_, parsed, missing⟩⟩⟩
  · rw [fails_run_iff plain, or_iff_left (not_commandFails plain readable)]

/-- A command fails if it lacks an argument, or over what it reads. -/
theorem fails_answer_iff {command : Command} :
    Fails (answer host file command.name arguments) ↔
      arguments.length < command.needs ∨
        CommandFails host file command arguments := by
  cases reads : command.readsDiagram with
  | true =>
      rw [fails_answer_iff_of_diagram
        (Command.name_ne_of_readsDiagram reads rfl)
        (Command.name_ne_of_readsDiagram reads rfl)]
      cases readable : host.diagram file with
      | error failure =>
          exact iff_of_true (.inl ⟨failure, rfl⟩)
            (.inr (.unreadableDiagram reads readable))
      | ok source => simp [fails_run_iff_of_readable reads readable]
  | false =>
      cases command with
      | template =>
          rw [fails_answer_template_iff]
          refine or_congr Iff.rfl ⟨?_, ?_⟩
          · rintro ⟨dialect, rest, rfl, unknown⟩
            exact .unknownDialect unknown
          · intro fails
            cases fails with
            | unreadableDiagram reads => cases reads
            | unknownDialect unknown => exact ⟨_, _, rfl, unknown⟩
      | config =>
          rw [fails_answer_config_iff, Command.needs,
            or_iff_right (Nat.not_lt_zero _)]
          constructor
          · rintro
              ⟨path, rest, rfl, ⟨failure, unreadable⟩ | ⟨text, read, invalid⟩⟩
            · exact .unreadableOptions unreadable
            · exact .invalidOptions read invalid
          · intro fails
            cases fails with
            | unreadableDiagram reads => cases reads
            | unreadableOptions unreadable =>
                exact ⟨_, _, rfl, .inl ⟨_, unreadable⟩⟩
            | invalidOptions read invalid =>
                exact ⟨_, _, rfl, .inr ⟨_, read, invalid⟩⟩
      | _ => cases reads

end DiagramEdit.CommandLine
