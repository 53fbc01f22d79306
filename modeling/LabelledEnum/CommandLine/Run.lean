import LabelledEnum.CommandLine.Generate
import LabelledEnum.CommandLine.Invocation
import LabelledEnum.Listing.Json
import LabelledEnum.Listing.Table

/-!
# Runs of the program

A run of the program takes the words of a command line and the disk, and comes to an outcome.

* `NormalizeOptions.run`: the command that shows constants.
* `Wording`: the texts that are left to the user interface.
* `run`: the whole program.
* `execute`: the whole program where a text has only so much room.
* `filePath?`: the file that a command line is about.
-/

namespace LabelledEnum.CommandLine

/-! ## Showing constants -/

/-- The constants of the value list in `options`, as a table or as JSON. -/
def NormalizeOptions.listing (options : NormalizeOptions) : Text :=
  let constants := ValueList.constants options.values options.sort
  if options.json then Listing.json options.start constants ++ "\n"
  else Listing.table options.start constants

/-- Shows the `listing` of `options` and leaves `disk` as it is. -/
def NormalizeOptions.run (options : NormalizeOptions) (disk : Disk) : Outcome :=
  .succeed disk options.listing []

/-! ## The program -/

/-- The version of the program. -/
def release : Text := "0.1.0"

/-- What is printed when the program is told nothing. -/
def idleNotice : Text := "No command given. Run `enumgen --help` for usage.\n"

/-- How the program words what is left to its user interface. -/
structure Wording where
  /-- The text that helps. -/
  help : Text
  /-- Why words of the command line are rejected. -/
  misuse : Misuse → Text

/-- The outcome of a command line that runs no command, in the words of `wording`. -/
def Stop.outcome (wording : Wording) (disk : Disk) : Stop → Outcome
  | .version => .succeed disk ("enumgen " ++ release ++ "\n") []
  | .help => .succeed disk wording.help []
  | .misuse reason => .reject disk (wording.misuse reason)

/-- The outcome of what the program is told. A run begins on `disk`. -/
def Invocation.run (disk : Disk) : Invocation → Outcome
  | .idle => .reject disk idleNotice
  | .generate options => options.run disk
  | .normalize options => options.run disk

/-- Runs the program with the `words` of a command line on `disk`. -/
def run (wording : Wording) (words : List Text) (disk : Disk) : Outcome :=
  match Invocation.parse words with
  | .error stop => stop.outcome wording disk
  | .ok invocation => invocation.run disk

/-- Whether the program breaks down at what it is told, for want of `room`. -/
def Invocation.breaksDown (room : Nat) : Invocation → Bool
  | .generate options => options.breaksDown room
  | _ => false

/-- Runs the program with the `words` of a command line as `run` does, where a text has only so much `room`.
There is no outcome if the program breaks down: it has printed and changed nothing by then. -/
def execute (room : Nat) (wording : Wording) (words : List Text) (disk : Disk) : Option Outcome :=
  match Invocation.parse words with
  | .error stop => some (stop.outcome wording disk)
  | .ok invocation => if invocation.breaksDown room then none else some (invocation.run disk)

/-- The path of the file that the command line `words` is about, if it is about one. -/
def filePath? (words : List Text) : Option Text :=
  match Invocation.parse words with
  | .ok (.generate options) => options.filePath?
  | _ => none

end LabelledEnum.CommandLine
