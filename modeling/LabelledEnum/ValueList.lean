import LabelledEnum.Constant
import LabelledEnum.Text.Blank

/-!
# Value lists

A value list is what a person types to name the constants of an enum: pieces of free text between
commas.

* `ValueList.tokens`: the identifiers that the pieces stand for, with repetitions.
* `ValueList.firstSpellings`: of identifiers with the same constant name, only the first.
* `ValueList.identifiers`: the distinct identifiers, in typed or in sorted order.
* `ValueList.constants`: the numbered constants.
-/

namespace LabelledEnum.ValueList

/-- The character between two pieces of a value list. -/
def separator : Char := ','

/-- The identifiers of the pieces of `raw` that hold at least one word character, in order. Blanks around a
piece do not count. -/
def tokens (raw : Text) : List Text :=
  (((raw.splitOn separator).map Text.trim).filter (·.any isWordChar)).map sanitize

/-- The identifiers without those whose `constantName` an earlier one has already. -/
def firstSpellings : List Text → List Text
  | [] => []
  | identifier :: rest =>
    identifier :: (firstSpellings rest).filter (constantName · ≠ constantName identifier)

/-- The distinct identifiers of the value list `raw`: in the order of their first occurrence or, with `sort`, in
ascending order of their code points. -/
def identifiers (raw : Text) (sort : Bool) : List Text :=
  let distinct := firstSpellings (tokens raw)
  if sort then distinct.mergeSort (fun a b => !Text.isBefore b a) else distinct

/-- The constants that the value list `raw` names, numbered in the order in which `identifiers` has them. -/
def constants (raw : Text) (sort : Bool) : List Constant := enumerate (identifiers raw sort)

end LabelledEnum.ValueList
