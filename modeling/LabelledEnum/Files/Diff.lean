import LabelledEnum.Text.Decimal
import LabelledEnum.Text.Lines

/-!
# Line diffs

A line diff shows, for each line number, how the lines of two texts at that number differ: the old
line after a minus sign, then the new line after a plus sign. Lines are compared by their number
alone, so one inserted line shows all later lines as changed.

* `Diff.entry`: how one line is shown.
* `Diff.ofLines`: the diff of two lists of lines.
* `lineDiff?`: the diff of two texts, none for a text and itself.
-/

namespace LabelledEnum

namespace Diff

/-- The line `line` with its `number`, after the `sign` that says on which side it stands. -/
def entry (sign : Char) (number : Nat) (line : Text) : Text :=
  sign :: ((Text.ofNat number).alignRight 4 ++ " | " ++ line ++ "\n")

/-- The lines as new lines, each by `entry`, numbered from `number` on. -/
def additions (number : Nat) : List Text → Text
  | [] => []
  | line :: rest => entry '+' number line ++ additions (number + 1) rest

/-- The differences between old and new lines, both numbered from `number` on. What one side has beyond the
other is all different. -/
def ofLines (number : Nat) : List Text → List Text → Text
  | [], news => additions number news
  | old :: olds, [] => entry '-' number old ++ ofLines (number + 1) olds []
  | old :: olds, new :: news =>
    (if old = new then [] else entry '-' number old ++ entry '+' number new) ++
      ofLines (number + 1) olds news

end Diff

/-- The diff of `old` and `new`, unless they are equal. It compares their `lines`, so it can be empty. -/
def lineDiff? (old new : Text) : Option Text :=
  if old = new then none else some (Diff.ofLines 1 old.lines new.lines)

end LabelledEnum
