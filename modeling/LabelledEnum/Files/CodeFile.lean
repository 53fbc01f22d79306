import LabelledEnum.Event
import LabelledEnum.Files.Diff
import LabelledEnum.Files.Disk.Access
import LabelledEnum.Files.Failure

/-!
# Code files

A code file is a generated text with the path at which it belongs. It can be compared with what is on
the disk, and saved there.

* `CodeFile.operation`: what saving the file would come to.
* `CodeFile.diff?`: how the content on the disk would change.
* `CodeFile.save`: saving, which replaces another content only with permission.
-/

namespace LabelledEnum

/-- A generated text with the path at which it belongs. -/
structure CodeFile where
  /-- The path of the file. -/
  path : Text
  /-- The text of the file. -/
  content : Text
  deriving DecidableEq, Repr

/-- What came of saving a file. -/
structure Saving where
  /-- The disk afterwards. -/
  disk : Disk
  /-- What was done, or why it failed. -/
  result : Except Failure Operation
  /-- What was reported. -/
  log : List Event

namespace CodeFile

/-- The text that `disk` holds at the path of `file`, if it holds a file there. Whatever else prevents reading
it is a failure. -/
def existing? (file : CodeFile) (disk : Disk) : Except Failure (Option Text) :=
  match disk.readText file.path with
  | .ok text => .ok (some text)
  | .error .missing => .ok none
  | .error fault => .error (.disk file.path fault)

/-- What saving `file` comes to when the disk holds the given text at its path, or none. -/
def operationOn (file : CodeFile) : Option Text → Operation
  | none => .create
  | some text => if text = file.content then .unchanged else .overwrite

/-- What saving `file` on `disk` would come to. -/
def operation (file : CodeFile) (disk : Disk) : Except Failure Operation :=
  (file.existing? disk).map file.operationOn

/-- How the content on `disk` would change if `file` were saved, unless it would not. A missing file counts as
empty. -/
def diff? (file : CodeFile) (disk : Disk) : Except Failure (Option Text) :=
  (file.existing? disk).map fun existing => lineDiff? (existing.getD []) file.content

/-- The disk after the directories on the way to `file` have been made on `disk`, and why that failed if it
did. -/
def makeWay (file : CodeFile) (disk : Disk) : Disk × Option Failure :=
  match Path.parent? file.path with
  | none => (disk, none)
  | some up =>
    match disk.makeDirectories up with
    | (after, fault) => (after, fault.map (.disk up))

/-- Writes `file` after it has been found that `operation` is needed for it. -/
def put (file : CodeFile) (disk : Disk) (operation : Operation) : Saving :=
  match file.makeWay disk with
  | (after, some failure) => ⟨after, .error failure, []⟩
  | (after, none) =>
    match after.write file.path (Text.encode file.content) with
    | .error fault => ⟨after, .error (.disk file.path fault), []⟩
    | .ok written => ⟨written, .ok operation, [.wrote file.path operation]⟩

/-- Saves `file` on `disk`. A file with the same content is left alone, and one with another content is replaced
only if `overwrite` allows it. -/
def save (file : CodeFile) (disk : Disk) (overwrite : Bool) : Saving :=
  match file.operation disk with
  | .error failure => ⟨disk, .error failure, []⟩
  | .ok .unchanged => ⟨disk, .ok .unchanged, [.skipped file.path]⟩
  | .ok .overwrite =>
    if overwrite then file.put disk .overwrite else ⟨disk, .error (.wouldOverwrite file.path), []⟩
  | .ok .create => file.put disk .create

end CodeFile

end LabelledEnum
