import LabelledEnum.Constant
import LabelledEnum.Text.Decimal

/-!
# Constants as a table

One line for each constant: its name, brought to the width of the widest name, its value and its
label.

* `Listing.nameWidth`: the width of the name column.
* `Listing.table`: the lines of the table.
-/

namespace LabelledEnum.Listing

/-- The width of the name column is the byte length of the longest name of `constants`. -/
def nameWidth (constants : List Constant) : Nat :=
  (constants.map (·.name.utf8Length)).foldl max 0

/-- The line of `constant`, with its name in a column of `width` characters. -/
def tableLine (width : Nat) (start : Int) (constant : Constant) : Text :=
  constant.name.alignLeft width ++ " = " ++ Text.ofInt (constant.value start) ++ "  " ++
    constant.label ++ "\n"

/-- The table of the `constants` of an enum whose first value is `start`, one line for each. -/
def table (start : Int) (constants : List Constant) : Text :=
  constants.flatMap (tableLine (nameWidth constants) start)

end LabelledEnum.Listing
