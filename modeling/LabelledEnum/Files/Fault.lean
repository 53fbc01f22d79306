import LabelledEnum.Text.Basic

/-!
# Faults of the file system

* `DiskFault`: why the file system refuses an operation.
* `DiskFault.message`: how the operating system words it.
-/

namespace LabelledEnum

/-- Why the file system refuses an operation. -/
inductive DiskFault where
  /-- A name on the path leads nowhere. -/
  | missing
  /-- A path goes on after a file. -/
  | notDirectory
  /-- A directory stands where a file is needed. -/
  | isDirectory
  /-- Something stands where a directory is to be made. -/
  | occupied
  /-- A name or the whole path is too long. -/
  | tooLong
  /-- The bytes of a file are no text: `Text.decode?` has none for them. -/
  | notText
  /-- The path holds a NUL character. -/
  | nulInPath
  deriving DecidableEq, Repr

/-- How the fault is worded when it is reported, mostly by the operating system. -/
def DiskFault.message : DiskFault → Text
  | missing => "No such file or directory (os error 2)"
  | notDirectory => "Not a directory (os error 20)"
  | isDirectory => "Is a directory (os error 21)"
  | occupied => "File exists (os error 17)"
  | tooLong => "File name too long (os error 36)"
  | notText => "stream did not contain valid UTF-8"
  | nulInPath => "file name contained an unexpected NUL byte"

end LabelledEnum
