import LabelledEnum.Identifier

/-!
# Constants

A constant of an enum is an identifier with its position. Its value counts up from the start of the
enum, without an upper limit.

* `Constant`: an identifier with its position.
* `Constant.name`, `Constant.label`, `Constant.value`: what is written for the constant.
* `enumerate`: the constants with the given identifiers, in order.
-/

namespace LabelledEnum

/-- A constant of an enum. Its name, its label and its value are derived from the two fields. -/
structure Constant where
  /-- The identifier from which name and label are derived. -/
  identifier : Text
  /-- The number of constants before this one. -/
  ordinal : Nat
  deriving DecidableEq, Repr

namespace Constant

/-- The name under which `constant` is declared. -/
def name (constant : Constant) : Text := constantName constant.identifier

/-- The label that the enum shows for `constant`. -/
def label (constant : Constant) : Text := labelOf constant.identifier

/-- The value of `constant` in an enum whose first value is `start`. It is an integer without bounds. -/
def value (constant : Constant) (start : Int) : Int := start + constant.ordinal

end Constant

/-- The constants with these `identifiers`, numbered from zero in their order. -/
def enumerate (identifiers : List Text) : List Constant :=
  identifiers.mapIdx fun ordinal identifier => ⟨identifier, ordinal⟩

end LabelledEnum
