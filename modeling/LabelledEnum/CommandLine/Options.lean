import LabelledEnum.CommandLine.Arguments
import LabelledEnum.Request
import LabelledEnum.Source.Style

/-!
# Options of a command

What the arguments of a command set is put together, in whatever order it was set.

* `GenerateOptions`, `NormalizeOptions`: the options of the two commands.
* `GenerateOptions.ofSettings`, `NormalizeOptions.ofSettings`: the options that settings make up.
-/

namespace LabelledEnum.CommandLine

/-! ## Making a class -/

/-- The options for making a class. Those that a command line may leave out have a default. -/
structure GenerateOptions where
  /-- The class id. -/
  classId : Text
  /-- The value list. -/
  values : Text
  /-- The namespace of the class. -/
  inNamespace : Text := (default : Request).inNamespace
  /-- The author. -/
  author : Text := (default : Request).author
  /-- The description. -/
  description : Text := (default : Request).description
  /-- The value of the first constant. -/
  start : Int := 0
  /-- Whether the constants are sorted. -/
  sort : Bool := false
  /-- The directory below which the class is placed. -/
  outDir : Text := "."
  /-- The names for directories, in order. -/
  aliases : List Alias := []
  /-- The spaces of one level of indentation. -/
  indent : Nat := ({} : Style).indentWidth
  /-- Whether the class is printed and not written. -/
  stdout : Bool := false
  /-- Whether nothing is written. -/
  dryRun : Bool := false
  /-- Whether it is shown how the file would change. -/
  diff : Bool := false
  /-- Whether another content may be replaced. -/
  overwrite : Bool := false
  deriving DecidableEq, Repr

namespace GenerateOptions

/-- The `options` with one setting more. -/
def apply (options : GenerateOptions) : Setting → GenerateOptions
  | .classId text => { options with classId := text }
  | .values text => { options with values := text }
  | .inNamespace text => { options with inNamespace := text }
  | .author text => { options with author := text }
  | .description text => { options with description := text }
  | .start value => { options with start := value }
  | .outDir path => { options with outDir := path }
  | .directoryAlias entry => { options with aliases := options.aliases ++ [entry] }
  | .indent width => { options with indent := width }
  | .switch .sort => { options with sort := true }
  | .switch .stdout => { options with stdout := true }
  | .switch .dryRun => { options with dryRun := true }
  | .switch .diff => { options with diff := true }
  | .switch .overwrite => { options with overwrite := true }
  | .switch .json => options

/-- The options that `settings` make up. A class id and a value list are required, and a directory excludes
aliases. -/
def ofSettings (settings : List Setting) : Except Misuse GenerateOptions :=
  if isSet settings (.parameter .outDir) && isSet settings (.parameter .directoryAlias) then
    .error .conflict
  else if isSet settings .classId && isSet settings (.parameter .values) then
    .ok (settings.foldl apply { classId := "", values := "" })
  else .error .missingArgument

end GenerateOptions

/-! ## Showing constants -/

/-- The options for showing the constants of a value list. All but the list have a default. -/
structure NormalizeOptions where
  /-- The value list. -/
  values : Text
  /-- Whether the constants are sorted. -/
  sort : Bool := false
  /-- The value of the first constant. -/
  start : Int := 0
  /-- Whether they are shown as JSON. -/
  json : Bool := false
  deriving DecidableEq, Repr

namespace NormalizeOptions

/-- The `options` with one setting more. Settings that the command does not have change nothing. -/
def apply (options : NormalizeOptions) : Setting → NormalizeOptions
  | .values text => { options with values := text }
  | .start value => { options with start := value }
  | .switch .sort => { options with sort := true }
  | .switch .json => { options with json := true }
  | _ => options

/-- The options that `settings` make up. A value list is required. -/
def ofSettings (settings : List Setting) : Except Misuse NormalizeOptions :=
  if isSet settings (.parameter .values) then .ok (settings.foldl apply { values := "" })
  else .error .missingArgument

end NormalizeOptions

end LabelledEnum.CommandLine
