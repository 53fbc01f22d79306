import LabelledEnum.CommandLine.Run

/-!
# Help

The words in which the program explains its use.

* `Wording.standard`: the help text and the reasons for rejecting a command line.
-/

namespace LabelledEnum.CommandLine

/-- How the program is used. -/
def usage : Text :=
  "Generate enumerable classes with constant label tables\n\n" ++
  "Usage: enumgen [COMMAND]\n\n" ++
  "Commands:\n" ++
  "  generate   Generate an enumerable class file\n" ++
  "  normalize  Show the constants a value list normalizes to\n" ++
  "  help       Print this message\n\n" ++
  "Options:\n" ++
  "  -h, --help     Print help\n" ++
  "  -V, --version  Print version\n"

/-- Why the words of a command line are rejected, for the standard `Wording`. -/
def Misuse.reason : Misuse → Text
  | unknownCommand => "unrecognized subcommand"
  | unknownArgument => "unexpected argument"
  | needlessValue => "unexpected value for an option that takes none"
  | missingValue => "a value is required"
  | conflict => "an argument cannot be used together with another one"
  | missingArgument => "a required argument was not provided"
  | badValue fault => "invalid value: " ++ fault.message

/-- The words in which the program explains its `usage`. -/
def Wording.standard : Wording where
  help := usage
  misuse reason := "error: " ++ reason.reason ++ "\n\nFor more information, try '--help'.\n"

end LabelledEnum.CommandLine
