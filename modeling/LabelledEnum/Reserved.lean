import LabelledEnum.Constant

/-!
# Reserved words

PHP reserves some words: none of them can name a class, and one cannot name a class constant. PHP
compares these words without regard to case.

* `Reserved.classNames`, `Reserved.constantNames`: the two vocabularies.
* `isReservedClassName`, `isReservedConstantName`: membership without regard to case.
* `issueOf?`: what is wrong with a constant name, if anything is.
* `suspicious`: the constant names that PHP would reject, with the reason.
-/

namespace LabelledEnum

/-- The words that cannot name a class, in lower case. -/
def Reserved.classNames : List Text :=
  List.map String.toList
    ["__halt_compiler", "abstract", "and", "array", "as", "bool", "break", "callable", "case",
      "catch", "class", "clone", "const", "continue", "declare", "default", "die", "do", "echo",
      "else", "elseif", "empty", "enddeclare", "endfor", "endforeach", "endif", "endswitch",
      "endwhile", "enum", "eval", "exit", "extends", "false", "final", "finally", "float", "fn",
      "for", "foreach", "function", "global", "goto", "if", "implements", "include", "include_once",
      "instanceof", "insteadof", "int", "interface", "isset", "iterable", "list", "match", "mixed",
      "namespace", "never", "new", "null", "object", "or", "parent", "print", "private",
      "protected", "public", "readonly", "require", "require_once", "resource", "return", "self",
      "static", "string", "switch", "throw", "trait", "true", "try", "unset", "use", "var", "void",
      "while", "xor", "yield"]

/-- The names that no class constant can have, in upper case. -/
def Reserved.constantNames : List Text := ["CLASS"]

/-- Whether PHP reserves `name` as a class name, in whatever case it is written. -/
def isReservedClassName (name : Text) : Bool := Reserved.classNames.contains name.lower

/-- Whether PHP reserves `name` as a constant name, in whatever case it is written. -/
def isReservedConstantName (name : Text) : Bool := Reserved.constantNames.contains name.upper

/-- Why PHP would not load a constant name as written. -/
inductive Issue where
  /-- The name begins with a digit, so it is no identifier of PHP. -/
  | leadingDigit
  /-- The name is a reserved word. -/
  | reserved
  deriving DecidableEq, Repr

/-- What is wrong with the constant name `name`, if anything is. A leading digit is named first. -/
def issueOf? (name : Text) : Option Issue :=
  if name.head?.any Char.isDigit then some .leadingDigit
  else if isReservedConstantName name then some .reserved
  else none

/-- The names of the `constants` that PHP would reject, with the reason that `issueOf?` gives, in the order of
the constants. -/
def suspicious (constants : List Constant) : List (Text × Issue) :=
  constants.filterMap fun constant => (issueOf? constant.name).map (constant.name, ·)

end LabelledEnum
