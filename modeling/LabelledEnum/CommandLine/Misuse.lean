import LabelledEnum.CommandLine.Integer

/-!
# Misuse of the command line

* `ValueFault`: why the value of an option cannot be read, with its `message`.
* `Misuse`: why the words of a command line are rejected.
* `Stop`: why no command is run.
-/

namespace LabelledEnum.CommandLine

/-- Why the value of an option cannot be read. -/
inductive ValueFault where
  /-- The value should be an integer, and `fault` says why it is none. -/
  | integer (fault : IntegerFault)
  /-- The `value` should be a name and a directory. -/
  | aliasForm (value : Text)
  deriving DecidableEq, Repr

/-- What the person who wrote the value is told about the fault. -/
def ValueFault.message : ValueFault → Text
  | integer fault => fault.message
  | aliasForm value => "expected NAME=DIR, got `" ++ value ++ "`"

/-- Why the words of a command line are rejected. -/
inductive Misuse where
  /-- A word stands where a command should, and is none. -/
  | unknownCommand
  /-- A word is not understood. -/
  | unknownArgument
  /-- A value is attached to an option that has none. -/
  | needlessValue
  /-- The value of an option is missing, or empty where it cannot be. -/
  | missingValue
  /-- Two arguments exclude each other. -/
  | conflict
  /-- A required argument is missing. -/
  | missingArgument
  /-- The value of an option cannot be read, for the reason `fault`. -/
  | badValue (fault : ValueFault)
  deriving DecidableEq, Repr

/-- Why no command is run, though the program may well have done what was asked. -/
inductive Stop where
  /-- The version is asked for. -/
  | version
  /-- Help is asked for. -/
  | help
  /-- The words are rejected for the reason `misuse`. -/
  | misuse (misuse : Misuse)
  deriving DecidableEq, Repr

end LabelledEnum.CommandLine
