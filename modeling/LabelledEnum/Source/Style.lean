import LabelledEnum.Text.Basic

/-!
# Styles

What of a generated class does not depend on the enum.

* `Style`: indentation, base class and name of the label table.
* `Style.baseName`: the base class without its namespace.
-/

namespace LabelledEnum

/-- What of a generated class does not depend on the enum. The defaults are those of the command line. -/
structure Style where
  /-- The spaces of one level of indentation. -/
  indentWidth : Nat := 4
  /-- The base class, with its namespace. -/
  baseClass : Text := "yii2mod\\enum\\helpers\\BaseEnum"
  /-- The name of the property that holds the label table. -/
  listProperty : Text := "list"
  deriving DecidableEq, Repr

/-- The name after the last backslash of the qualified name `className`. -/
def shortName (className : Text) : Text := (className.reverse.takeWhile (· ≠ '\\')).reverse

/-- The base class of `style` without its namespace, as the class names it. -/
def Style.baseName (style : Style) : Text := shortName style.baseClass

end LabelledEnum
