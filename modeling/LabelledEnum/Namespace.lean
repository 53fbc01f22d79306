import LabelledEnum.Text.Blank

/-!
# Namespaces

The namespace of a class is a list of segments, from the outermost in. It can be typed with
backslashes, slashes or dots between the segments and is displayed with backslashes.

* `Namespace`: the segments.
* `Namespace.parse`: the namespace that a text spells.
* `Namespace.display`: the namespace as PHP writes it.
-/

namespace LabelledEnum

/-- The namespace of a class, without regard to how its separators were typed. -/
structure Namespace where
  /-- The segments, from the outermost in. -/
  segments : List Text
  deriving DecidableEq, Repr

namespace Namespace

/-- Whether `c` can be typed between two segments. -/
def isSeparator (c : Char) : Bool := c == '\\' || c == '/' || c == '.'

/-- The namespace that `text` spells. Blanks around a segment and segments of blanks alone do not count. -/
def parse (text : Text) : Namespace :=
  ⟨(((text.trim).splitOnP isSeparator).map Text.trim).filter (· ≠ [])⟩

/-- Whether `space` is the global namespace, which has no segments. -/
def isEmpty (space : Namespace) : Bool := space.segments.isEmpty

/-- The namespace `space` as PHP writes it, with a backslash between two segments. -/
def display (space : Namespace) : Text := List.intercalate ['\\'] space.segments

end Namespace

end LabelledEnum
