import LabelledEnum.Request
import LabelledEnum.Source.Docblock
import LabelledEnum.Source.Page
import LabelledEnum.Source.Style
import LabelledEnum.Text.Decimal

/-!
# Enum classes

The source of a class that declares one integer constant for each constant of the enum and holds a
table from these values to their labels.

* `EnumClass.header`: everything before the class.
* `EnumClass.declarations`, `EnumClass.table`: the two parts of its body.
* `EnumClass.source`: the text of the whole file.
* `EnumClass.source?`: the same where a text has only so much room.
-/

namespace LabelledEnum.EnumClass

open Page

/-- The lines before the class: the opening mark, the namespace of `request` unless it is the global one, the
base class of `style` under its full name, and the docblock. -/
def header (style : Style) (request : CheckedRequest) : List Op :=
  line "<?php" ++ [.newline] ++
  (if request.inNamespace.isEmpty then []
    else line ("namespace " ++ request.inNamespace.display ++ ";") ++ [.newline]) ++
  line ("use " ++ style.baseClass ++ ";") ++ [.newline] ++
  (Docblock.lines request.author request.description).flatMap line

/-- The line that declares `constant`, in an enum whose first value is `start`. -/
def declaration (start : Int) (constant : Constant) : Text :=
  "const " ++ constant.name ++ " = " ++ Text.ofInt (constant.value start) ++ ";"

/-- The declarations of `constants`, with an empty line after them unless there are none. -/
def declarations (start : Int) (constants : List Constant) : List Op :=
  constants.flatMap (fun constant => line (declaration start constant)) ++
  (if constants.isEmpty then [] else [.newline])

/-- The line of the table that gives the label of `constant`. -/
def tableEntry (constant : Constant) : Text :=
  "self::" ++ constant.name ++ " => '" ++ constant.label ++ "',"

/-- The table of the labels of `constants`, in a property with the name `property`. -/
def table (property : Text) (constants : List Constant) : List Op :=
  if constants.isEmpty then line ("public static $" ++ property ++ " = [];")
  else
    line ("public static $" ++ property ++ " = [") ++
    indented (constants.flatMap fun constant => line (tableEntry constant)) ++
    line "];"

/-- The class that `request` asks for, with its body: the declarations and the table, one level in. -/
def definition (style : Style) (request : CheckedRequest) (constants : List Constant) : List Op :=
  line ("class " ++ request.classId.className ++ " extends " ++ style.baseName) ++
  line "\x7b" ++
  indented (declarations request.start constants ++ table style.listProperty constants) ++
  line "\x7d"

/-- The text of the file that holds the class: `header` and then `definition`, on an empty page. -/
def source (style : Style) (request : CheckedRequest) (constants : List Constant) : Text :=
  (Page.run { width := style.indentWidth }
    (header style request ++ definition style request constants)).text

/-- The text of the file that holds the class as `source` has it, unless it needs more bytes than `room`. -/
def source? (room : Nat) (style : Style) (request : CheckedRequest) (constants : List Constant) :
    Option Text :=
  (Page.run? room { width := style.indentWidth }
    (header style request ++ definition style request constants)).map Page.text

end LabelledEnum.EnumClass
