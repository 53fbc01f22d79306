import LabelledEnum.CommandLine.Help

/-!
# The program

The outermost layer: it takes a picture of what the file system holds on the way to the class, runs
the program on this picture, and carries out the changes that the run made to it.

* `main`: the program.
-/

namespace LabelledEnum.Main

open CommandLine

/-- The absolute path of `place`, as the file system spells it. -/
def pathOf (place : Place) : String := "/" ++ "/".intercalate (place.reverse.map String.ofList)

/-- What the file system holds at `place`. Only a directory holds itself under the name of a dot. -/
def look (place : Place) : IO (Option Node) := do
  try
    return some (.file (← IO.FS.readBinFile (pathOf place)))
  catch _ =>
    try
      let _ ← IO.FS.realPath (pathOf place ++ "/.")
      return some .directory
    catch _ => return none

/-- The picture of the places that `path` can lead through. -/
def survey (path : Text) : IO Disk := do
  let here := (Disk.names (toString (← IO.currentDir)).toList).reverse
  let places := (Disk.placesOnWay here path).eraseDups
  let entries ← places.filterMapM fun place => do
    return (← look place).map (place, ·)
  return ⟨entries, here⟩

/-- Makes one node of the picture in the file system, a file with its bytes or an empty directory. -/
def make : Place × Node → IO Unit
  | (place, .file bytes) => IO.FS.writeBinFile (pathOf place) bytes
  | (place, _) => IO.FS.createDir (pathOf place)

/-- Carries out the changes from the picture `before` to the picture `after`, directories before what is in
them. -/
def carryOut (before after : Disk) : IO Unit :=
  (after.entries.reverse.filter (!before.entries.contains ·)).forM make

/-- The number of the exit when the program breaks down and `execute` has no outcome. -/
def breakdownCode : UInt32 := 101

/-- Executes the program with `words` and returns the number of its exit. -/
def perform (words : List Text) : IO UInt32 := do
  let before ← survey ((filePath? words).getD [])
  let some outcome := execute Text.maxRoom .standard words before | do
    IO.eprintln "There is no room for the text of the class."
    return breakdownCode
  try
    carryOut before outcome.disk
    IO.print (String.ofList outcome.stdout)
    IO.eprint (String.ofList outcome.stderr)
    return UInt32.ofNat outcome.exit.code
  catch error =>
    IO.eprintln ("Error: " ++ toString error)
    return UInt32.ofNat Exit.failure.code

end LabelledEnum.Main

/-- The program, with the words of its command line as the system passes them on. -/
def main (args : List String) : IO UInt32 := LabelledEnum.Main.perform (args.map String.toList)
