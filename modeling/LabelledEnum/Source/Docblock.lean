import LabelledEnum.Text.Blank
import LabelledEnum.Text.Lines

/-!
# Docblocks

The comment above a class names the author and gives the description. Free text in it is written
line by line, and whatever would end the comment early is broken up.

* `Docblock.escape`: a text with a backslash inside each closing mark.
* `Docblock.authorLines`, `Docblock.descriptionLines`: the lines of the two texts.
* `Docblock.lines`: all lines of the comment.
-/

namespace LabelledEnum.Docblock

/-- A text with a backslash between the two characters of each closing mark `*/`. -/
def escape : Text → Text
  | [] => []
  | '*' :: '/' :: rest => '*' :: '\\' :: '/' :: escape rest
  | c :: rest => c :: escape rest

/-- The `line` of a free text as it is written: without blanks at its end and without closing marks. -/
def content (line : Text) : Text := escape line.trimEnd

/-- The lines that name `author`, none if it is blank. The first line carries the tag, and the others are set in
below it. -/
def authorLines (author : Text) : List Text :=
  match Text.lines author.trim with
  | [] => []
  | first :: rest => (" * @author " ++ content first) :: rest.map (" *         " ++ content ·)

/-- The `line` of a description as a line of the comment. Where its `content` is empty, no space is written
either. -/
def descriptionLine (line : Text) : Text :=
  if content line = [] then " *" else " * " ++ content line

/-- The lines that give `description`, in its order. -/
def descriptionLines (description : Text) : List Text :=
  (Text.lines description).map descriptionLine

/-- The line that opens the comment. -/
def opening : Text := "/**"

/-- The line that closes the comment. -/
def closing : Text := " */"

/-- The lines of the comment: `opening`, those of `author`, those of `description`, and `closing`. -/
def lines (author description : Text) : List Text :=
  opening :: (authorLines author ++ descriptionLines description ++ [closing])

end LabelledEnum.Docblock
