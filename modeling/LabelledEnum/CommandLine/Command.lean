import LabelledEnum.CommandLine.Setting

/-!
# Commands

* `Command`: what the program can be told to do.
* `Command.parameters`, `Command.switches`: the options that a command has.
* `Command.known?`: the option of a command with a given name.
-/

namespace LabelledEnum.CommandLine

/-- What the program can be told to do. -/
inductive Command where
  /-- Make a class. -/
  | generate
  /-- Show the constants of a value list. -/
  | normalize
  deriving DecidableEq, Repr

namespace Command

/-- The word for the command, as it stands on the command line. -/
def name : Command → Text
  | generate => "generate"
  | normalize => "normalize"

/-- The options with a value that the command has. A name leads to at most one of them. -/
def parameters : Command → List Parameter
  | generate =>
    [.values, .inNamespace, .author, .description, .start, .outDir, .directoryAlias, .indent]
  | normalize => [.values, .start]

/-- The options without a value that the command has, whose names are not those of `parameters`. -/
def switches : Command → List Switch
  | generate => [.sort, .stdout, .dryRun, .diff, .overwrite]
  | normalize => [.sort, .json]

/-- Whether the command is about a class, whose id stands among its words. -/
def takesClassId : Command → Bool
  | generate => true
  | normalize => false

end Command

/-- An option that `Command.known?` has found by its name. -/
inductive Known where
  /-- The `option` has no value. -/
  | switch (option : Switch)
  /-- The `option` has a value. -/
  | parameter (option : Parameter)
  /-- The question for help. -/
  | help
  deriving DecidableEq, Repr

/-- The option of `command` with the name `name`. Every command can be asked for help. -/
def Command.known? (command : Command) (name : Text) : Option Known :=
  if name = ("help" : Text) then some .help
  else
    ((command.parameters.find? (·.name = name)).map .parameter).or
      ((command.switches.find? (·.name = name)).map .switch)

end LabelledEnum.CommandLine
