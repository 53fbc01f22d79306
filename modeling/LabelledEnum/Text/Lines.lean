import LabelledEnum.Text.Basic

/-!
# Lines

A line ends at a line feed. A carriage return directly before that line feed belongs to the line's
end; every other carriage return belongs to the line. Text after the last line feed is a line of its
own unless it is empty.

* `Text.lines`: the lines of a text, without their ends.
-/

namespace LabelledEnum.Text

/-- The `piece` without one carriage return at its right end. -/
def dropReturn (piece : Text) : Text :=
  if piece.getLast? = some '\r' then piece.dropLast else piece

/-- The lines that the pieces between line feeds make up: all pieces but the last were ended by a line feed,
which may have had a carriage return before it (`dropReturn`). -/
def linesOfPieces : List Text → List Text
  | [] => []
  | [last] => if last.isEmpty then [] else [last]
  | piece :: next :: rest => dropReturn piece :: linesOfPieces (next :: rest)

/-- The lines of `text`, without their ends. -/
def lines (text : Text) : List Text := linesOfPieces (text.splitOn '\n')

end LabelledEnum.Text
