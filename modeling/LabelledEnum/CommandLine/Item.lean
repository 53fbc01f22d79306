import LabelledEnum.CommandLine.Command
import LabelledEnum.CommandLine.Word

/-!
# Words as arguments

An option takes its value from its own word, after an equals sign, or from the next one.

* `Parameter.accepts`: whether an option takes the next word as its value.
* `Item`: a word or two as an argument.
* `items`: the words after a command as arguments.
-/

namespace LabelledEnum.CommandLine

/-- Whether `word` can be the value of `option`, which stands in the word before. Words with a dash cannot,
except for a number where one is expected, and the dash alone. -/
def Parameter.accepts (option : Parameter) (word : Text) : Bool :=
  Word.ofText word == .plain || (option = .start && isNumberWord word)

/-- A word or two as an argument. -/
inductive Item where
  /-- An `option` without a value. -/
  | switch (option : Switch)
  /-- An `option` with its `value` in the same word. -/
  | attached (option : Parameter) (value : Text)
  /-- An `option` with its `value` in the next word, if that word can be one. -/
  | spaced (option : Parameter) (value : Option Text)
  /-- An argument `word` that is no option. -/
  | plain (word : Text)
  /-- A question for help. -/
  | help
  /-- A word that is rejected for the reason `misuse` wherever it stands. -/
  | refused (misuse : Misuse)
  deriving DecidableEq, Repr

/-- The argument of a word with one dash: a question for help if the character `first` asks for it. -/
def shortItem (first : Char) : Item := if first = 'h' then .help else .refused .unknownArgument

/-- The argument of a word with the name `name` and a `value` attached to it, after `command`. -/
def attachedItem (command : Command) (name value : Text) : Item :=
  match command.known? name with
  | none => .refused .unknownArgument
  | some (.parameter option) => .attached option value
  | some _ => .refused .needlessValue

/-- The words after `command` as arguments. An option may take the word after it as its value. -/
def items (command : Command) : List Text → List Item
  | [] => []
  | word :: rest =>
    match Word.ofText word with
    | .endOfOptions => rest.map .plain
    | .plain => .plain word :: items command rest
    | .short first => shortItem first :: items command rest
    | .long name (some value) => attachedItem command name value :: items command rest
    | .long name none =>
      match command.known? name with
      | none => .refused .unknownArgument :: items command rest
      | some .help => .help :: items command rest
      | some (.switch option) => .switch option :: items command rest
      | some (.parameter option) =>
        match rest with
        | [] => [.spaced option none]
        | next :: others =>
          if option.accepts next then .spaced option (some next) :: items command others
          -- the word is looked at again, as an argument of its own
          else .spaced option none :: items command (next :: others)

end LabelledEnum.CommandLine
