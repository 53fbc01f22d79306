import LabelledEnum.Rejection
import LabelledEnum.Text.Columns

/-!
# Reports on rejected requests

A rejection is reported with its code, its message, the faulty class id with a mark under the fault, and
its help.

* `underline`: the mark under some columns, with a stem in their middle.
* `Rejection.excerpt`: the class id with the mark.
* `Rejection.report`: the whole report.
-/

namespace LabelledEnum

/-- A mark under `width` columns, with a stem in the middle or right of the middle. -/
def underline (width : Nat) : Text :=
  List.replicate (width / 2) '─' ++ "┬" ++ List.replicate (width - width / 2 - 1) '─'

namespace Rejection

/-- The faulty `classId` as it is shown, with a mark under `fault` and a note at the stem of the mark. All
characters before the fault take one byte, so its offset counts them. A fault that takes no columns is marked as
if it took one. -/
def excerpt (classId : Text) (fault : Fault) : Text :=
  let before := Text.columns (classId.take fault.offset)
  let width := max 1 (Text.columns (classId.take (fault.offset + 1)) - before)
  "   ╭────\n" ++
  " 1 │ " ++ classId.expandTabs ++ "\n" ++
  "   · " ++ List.replicate before ' ' ++ underline width ++ "\n" ++
  "   · " ++ List.replicate (before + width / 2) ' ' ++ "╰── " ++ faultNote ++ "\n" ++
  "   ╰────\n"

/-- What is reported on `rejection`, over several lines. Only a faulty class id has an `excerpt`. -/
def report (rejection : Rejection) : Text :=
  rejection.code ++ "\n\n  × " ++ rejection.message ++ "\n" ++
  (match rejection with
    | illegalClassId classId fault => excerpt classId fault
    | _ => "") ++
  (match rejection.help? with
    | some help => "  help: " ++ help ++ "\n"
    | none => "")

end Rejection

end LabelledEnum
