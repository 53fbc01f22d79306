import LabelledEnum.Constant

/-!
# What is shown of constants

* `Row`: a name, a value and a label.
* `Constant.row`, `rows`: what is shown of a constant and of some constants.
* `map_identifier_enumerate`: numbered identifiers are the given ones.
* `enumerate_append_prefix`: more identifiers after the others do not renumber the others.
-/

namespace LabelledEnum

/-- What is shown of a constant. Two constants with different identifiers can have the same row. -/
structure Row where
  /-- The name of the constant. -/
  name : Text
  /-- Its value. -/
  value : Int
  /-- Its label. -/
  label : Text
  deriving DecidableEq, Repr

/-- What is shown of `constant` in an enum whose first value is `start`. -/
def Constant.row (start : Int) (constant : Constant) : Row where
  name := constant.name
  value := constant.value start
  label := constant.label

/-- What is shown of the `constants` of an enum whose first value is `start`, in their order. -/
def rows (start : Int) (constants : List Constant) : List Row := constants.map (Constant.row start)

/-- The constants that `enumerate` numbers have the `identifiers` that it is given. -/
theorem map_identifier_enumerate (identifiers : List Text) :
    (enumerate identifiers).map Constant.identifier = identifiers := by
  refine List.ext_getElem (by simp [enumerate]) fun position _ _ => ?_
  rw [List.getElem_map]
  simp only [enumerate, List.getElem_mapIdx]

/-- Identifiers in `more` do not renumber those that stand before them. -/
theorem enumerate_append_prefix (identifiers more : List Text) :
    enumerate identifiers <+: enumerate (identifiers ++ more) := by
  unfold enumerate
  rw [List.mapIdx_append]
  exact List.prefix_append _ _

end LabelledEnum
