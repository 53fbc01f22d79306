import LabelledEnum.Files.Disk.Basic
import LabelledEnum.Files.Fault
import LabelledEnum.Files.Path

/-!
# Walks through a disk

A path is followed name by name, so what it leads to depends on what is on the disk.

* `Disk.find`: what stands under a name in a directory.
* `Disk.walk`: the directory to which names lead.
* `Target`, `Disk.locate`: what a path leads to.
* `Disk.placesOnWay`: the places on which that depends.
-/

namespace LabelledEnum

/-- What a path leads to, whether or not something stands there. -/
inductive Target where
  /-- The path ends on its way through the directory at `place`, as one does that ends with a dot. -/
  | passage (place : Place)
  /-- The path ends with `name` in the directory at `parent`. `slashed` says whether slashes come after the
  name. -/
  | entry (parent : Place) (name : Text) (slashed : Bool)
  deriving DecidableEq, Repr

namespace Disk

/-- The most bytes of one name. -/
def maxNameLength : Nat := 255

/-- The most bytes of a path. -/
def maxPathLength : Nat := 4095

/-- What stands under `name` in the directory at `parent`. A name longer than `maxNameLength` is not even looked
for. -/
def find (disk : Disk) (parent : Place) (name : Text) : Except DiskFault (Option Node) :=
  if name.utf8Length > maxNameLength then .error .tooLong else .ok (disk.node? (name :: parent))

/-- The directory to which names lead from `place`. A dot stays, and two dots go up, from the root to itself. -/
def walk (disk : Disk) (place : Place) : List Text → Except DiskFault Place
  | [] => .ok place
  | name :: rest =>
    if name = ['.'] then disk.walk place rest
    else if name = ['.', '.'] then disk.walk place.tail rest
    else
      match disk.find place name with
      | .error fault => .error fault
      | .ok none => .error .missing
      | .ok (some node) =>
        if node.isDirectory then disk.walk (name :: place) rest else .error .notDirectory

/-- The names between the slashes of `path`. -/
def names (path : Text) : List Text := (path.splitOn '/').filter (· ≠ [])

/-- What `path` leads to on `disk`. All its names but the last have to lead through directories. -/
def locate (disk : Disk) (path : Text) : Except DiskFault Target :=
  if path.contains '\x00' then .error .nulInPath
  else if path = [] then .error .missing
  else if path.utf8Length > maxPathLength then .error .tooLong
  else
    let start := if Path.isAbsolute path then [] else disk.here
    match (names path).getLast? with
    -- only slashes, so the root
    | none => .ok (.passage start)
    | some name =>
      if name = ['.'] ∨ name = ['.', '.'] then (disk.walk start (names path)).map .passage
      else
        (disk.walk start (names path).dropLast).map
          (.entry · name (path.getLast? == some '/'))

/-- The places whose nodes decide what names lead to from `place`. -/
def placesFrom (place : Place) : List Text → List Place
  | [] => []
  | name :: rest =>
    if name = ['.'] then placesFrom place rest
    else if name = ['.', '.'] then placesFrom place.tail rest
    else (name :: place) :: placesFrom (name :: place) rest

/-- The places whose nodes decide what `path` leads to when relative paths start at `here`. -/
def placesOnWay (here : Place) (path : Text) : List Place :=
  placesFrom (if Path.isAbsolute path then [] else here) (names path)

end Disk

end LabelledEnum
