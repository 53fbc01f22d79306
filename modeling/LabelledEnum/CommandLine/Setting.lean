import LabelledEnum.CommandLine.Misuse
import LabelledEnum.Layout
import LabelledEnum.Text.Blank

/-!
# Settings

What the arguments of a command set.

* `Switch`, `Parameter`: the options without and with a value, and their names.
* `Setting`: an argument that has been read.
* `Slot`: what a setting is about. No slot is set twice, the aliases apart.
* `readAlias`: the alias that a value spells.
* `Parameter.read`: the setting that a value makes.
-/

namespace LabelledEnum.CommandLine

/-- An option without a value. -/
inductive Switch where
  /-- Sort the constants. -/
  | sort
  /-- Print the class. -/
  | stdout
  /-- Write nothing. -/
  | dryRun
  /-- Show how the file would change. -/
  | diff
  /-- Replace another content. -/
  | overwrite
  /-- Print JSON. -/
  | json
  deriving DecidableEq, Repr

/-- The name of the option, as it is written after two dashes. -/
def Switch.name : Switch → Text
  | sort => "sort"
  | stdout => "stdout"
  | dryRun => "dry-run"
  | diff => "diff"
  | overwrite => "overwrite"
  | json => "json"

/-- An option with a value. -/
inductive Parameter where
  /-- The value list. -/
  | values
  /-- The namespace of the class. -/
  | inNamespace
  /-- The author. -/
  | author
  /-- The description. -/
  | description
  /-- The value of the first constant. -/
  | start
  /-- The directory below which the class is placed. -/
  | outDir
  /-- A name for a directory. -/
  | directoryAlias
  /-- The spaces of one level of indentation. -/
  | indent
  deriving DecidableEq, Repr

/-- The name of the option, as it is written after two dashes. -/
def Parameter.name : Parameter → Text
  | values => "values"
  | inNamespace => "namespace"
  | author => "author"
  | description => "description"
  | start => "start"
  | outDir => "out-dir"
  | directoryAlias => "alias"
  | indent => "indent"

/-- An argument that has been read, as `Parameter.read` does with the value of an option. -/
inductive Setting where
  /-- The class id is `text`. -/
  | classId (text : Text)
  /-- The `option` is switched on. -/
  | switch (option : Switch)
  /-- The value list is `text`. -/
  | values (text : Text)
  /-- The namespace of the class is `text`. -/
  | inNamespace (text : Text)
  /-- The author is `text`. -/
  | author (text : Text)
  /-- The description is `text`. -/
  | description (text : Text)
  /-- The first constant has the value `value`. -/
  | start (value : Int)
  /-- The class is placed below the directory `path`. -/
  | outDir (path : Text)
  /-- A name for a directory is given by `entry`. -/
  | directoryAlias (entry : Alias)
  /-- One level of indentation has `width` spaces. -/
  | indent (width : Nat)
  deriving DecidableEq, Repr

/-- What a `Setting` is about. Most can be set only once. -/
inductive Slot where
  /-- The class id. -/
  | classId
  /-- The switch `option`. -/
  | switch (option : Switch)
  /-- The value of `option`. -/
  | parameter (option : Parameter)
  deriving DecidableEq, Repr

/-- What the setting is about, without its value. -/
def Setting.slot : Setting → Slot
  | classId _ => .classId
  | switch option => .switch option
  | values _ => .parameter .values
  | inNamespace _ => .parameter .inNamespace
  | author _ => .parameter .author
  | description _ => .parameter .description
  | start _ => .parameter .start
  | outDir _ => .parameter .outDir
  | directoryAlias _ => .parameter .directoryAlias
  | indent _ => .parameter .indent

/-- Whether several settings can be about `slot`. -/
def Slot.repeats (slot : Slot) : Bool := slot = .parameter .directoryAlias

/-- The alias that `text` spells: a name and a directory with an equals sign between them, neither of them
blank. Blanks around them do not count. -/
def readAlias (text : Text) : Except ValueFault Alias :=
  match text.dropWhile (· ≠ '=') with
  | [] => .error (.aliasForm text)
  | _ :: directory =>
    let name := Text.trim (text.takeWhile (· ≠ '='))
    if name = [] ∨ Text.trim directory = [] then .error (.aliasForm text)
    else .ok ⟨name, Text.trim directory⟩

/-- The setting that `value` makes as the value of an option, or why it cannot be read. -/
def Parameter.read (value : Text) : Parameter → Except Misuse Setting
  | values => .ok (.values value)
  | inNamespace => .ok (.inNamespace value)
  | author => .ok (.author value)
  | description => .ok (.description value)
  | start => ((readSigned value).map .start).mapError (.badValue ∘ .integer)
  | outDir => if value = [] then .error .missingValue else .ok (.outDir value)
  | directoryAlias => ((readAlias value).map .directoryAlias).mapError .badValue
  | indent => ((readUnsigned value).map .indent).mapError (.badValue ∘ .integer)

end LabelledEnum.CommandLine
