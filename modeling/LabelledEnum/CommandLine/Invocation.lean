import LabelledEnum.CommandLine.Options

/-!
# Invocations

A command line as a whole. Its first word is a command, or a question for help or the version.

* `Invocation`: what the program is told to do.
* `Invocation.parse`: what a command line tells it, or why no command is run.
-/

namespace LabelledEnum.CommandLine

/-- What the program is told to do. -/
inductive Invocation where
  /-- Nothing. -/
  | idle
  /-- Make the class that `options` ask for. -/
  | generate (options : GenerateOptions)
  /-- Show the constants of the value list in `options`. -/
  | normalize (options : NormalizeOptions)
  deriving DecidableEq, Repr

namespace Invocation

/-- The word that asks for help like a command. -/
def helpWord : Text := "help"

/-- The command that `word` names. -/
def command? (word : Text) : Option Command :=
  [Command.generate, Command.normalize].find? (·.name = word)

/-- Whether `word` stands where a command can. -/
def isCommandWord (word : Text) : Bool := (command? word).isSome || word = helpWord

/-- Why no command is run when `helpWord` asks for help: what help is asked for has to be a command. -/
def ofHelpWords : List Text → Stop
  | [] => .help
  | [topic] => if isCommandWord topic then .help else .misuse .unknownCommand
  | _ => .misuse .unknownCommand

/-- What `word` tells where a command should stand, if it is none. -/
def ofOtherWord (word : Text) : Stop :=
  match Word.ofText word with
  | .long name value =>
    if name = ("help" : Text) then if value.isSome then .misuse .needlessValue else .help
    else if name = ("version" : Text) then
      if value.isSome then .misuse .needlessValue else .version
    else .misuse .unknownArgument
  | .short first =>
    if first = 'h' then .help else if first = 'V' then .version else .misuse .unknownArgument
  | _ => .misuse .unknownCommand

/-- What the words after the end of the options tell. No command can follow. -/
def ofTrailing : List Text → Except Stop Invocation
  | [] => .ok .idle
  | word :: _ =>
    .error (.misuse (if isCommandWord word then .unknownArgument else .unknownCommand))

/-- What `command` with the `words` after it tells. -/
def ofCommand (command : Command) (words : List Text) : Except Stop Invocation := do
  let set ← settings command words
  match command with
  | .generate => ((GenerateOptions.ofSettings set).map generate).mapError .misuse
  | .normalize => ((NormalizeOptions.ofSettings set).map normalize).mapError .misuse

/-- What the words of a command line tell the program. The first one decides what the others are. -/
def parse : List Text → Except Stop Invocation
  | [] => .ok .idle
  | word :: rest =>
    match command? word with
    | some command => ofCommand command rest
    | none =>
      if word = helpWord then .error (ofHelpWords rest)
      else if Word.ofText word = .endOfOptions then ofTrailing rest
      else .error (ofOtherWord word)

end Invocation

end LabelledEnum.CommandLine
