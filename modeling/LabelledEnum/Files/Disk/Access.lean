import LabelledEnum.Files.Disk.Walk

/-!
# Access to a disk

What can be done with a path: looking at what it names, and changing that.

* `Disk.readBytes`, `Disk.readText`, `Disk.isDirectory`: looking.
* `Disk.write`, `Disk.makeDirectory`, `Disk.remove`: the disk after one change.
* `Disk.makeDirectories`: the disk after all missing directories on a path have been made.
-/

namespace LabelledEnum.Disk

/-! ## Looking -/

/-- The bytes of the file that `path` names on `disk`. -/
def readBytes (disk : Disk) (path : Text) : Except DiskFault ByteArray := do
  match ← disk.locate path with
  | .passage _ => .error .isDirectory
  | .entry parent name slashed =>
    match ← disk.find parent name with
    | none => .error .missing
    | some (.file bytes) => if slashed then .error .notDirectory else .ok bytes
    | some _ => .error .isDirectory

/-- The text of the file that `path` names on `disk`, if its bytes are those of a text. -/
def readText (disk : Disk) (path : Text) : Except DiskFault Text := do
  match Text.decode? (← disk.readBytes path) with
  | some text => .ok text
  | none => .error .notText

/-- Whether `path` names a directory on `disk`. -/
def isDirectory (disk : Disk) (path : Text) : Bool :=
  match disk.locate path with
  | .error _ => false
  | .ok (.passage _) => true
  | .ok (.entry parent name _) =>
    match disk.find parent name with
    | .ok (some node) => node.isDirectory
    | _ => false

/-! ## Changing -/

/-- The disk with the new `node` under `name`, unless the directory at `parent` is sealed. -/
def add (disk : Disk) (parent : Place) (name : Text) (node : Node) : Except DiskFault Disk :=
  if disk.node? parent = some .sealedDirectory then .error .missing
  else .ok (disk.put (name :: parent) node)

/-- The disk after `bytes` have been written to the file that `path` names. A file that is missing is made, and
one that is there gets the bytes instead of its own. -/
def write (disk : Disk) (path : Text) (bytes : ByteArray) : Except DiskFault Disk := do
  match ← disk.locate path with
  | .passage _ => .error .isDirectory
  | .entry parent name slashed =>
    -- slashes at the end ask for a directory, whatever stands there
    if slashed then .error .isDirectory
    else
      match ← disk.find parent name with
      | none => disk.add parent name (.file bytes)
      | some (.file _) => .ok (disk.put (name :: parent) (.file bytes))
      | some _ => .error .isDirectory

/-- The disk with a new directory at `path`, where nothing may stand yet. -/
def makeDirectory (disk : Disk) (path : Text) : Except DiskFault Disk := do
  match ← disk.locate path with
  | .passage _ => .error .occupied
  | .entry parent name _ =>
    match ← disk.find parent name with
    | none => disk.add parent name .directory
    | some _ => .error .occupied

/-- The disk after `makeDirectory` at `path` where no directory was, and what prevented it if there is none
now. -/
def ensureDirectory (disk : Disk) (path : Text) : Disk × Option DiskFault :=
  match disk.makeDirectory path with
  | .ok after => (after, none)
  | .error fault => (disk, if disk.isDirectory path then none else some fault)

/-- The disk after all missing directories on `path` have been made, outermost first, and what prevented it if
one is missing still. Directories made before a fault stay. -/
def makeDirectories (disk : Disk) (path : Text) : Disk × Option DiskFault :=
  if path = [] then (disk, none)
  else
    match disk.makeDirectory path with
    -- only a missing directory on the way is a reason to go up
    | .error .missing =>
      match _ : Path.parent? path with
      | none => (disk, some .missing)
      | some up =>
        match disk.makeDirectories up with
        | (after, some fault) => (after, some fault)
        | (after, none) => after.ensureDirectory path
    | _ => disk.ensureDirectory path
termination_by path.length
decreasing_by exact Path.length_parent?_lt ‹_›

/-- The disk without what `path` names and without everything below it. -/
def remove (disk : Disk) (path : Text) : Except DiskFault Disk := do
  match ← disk.locate path with
  | .passage _ => .error .isDirectory
  | .entry parent name _ =>
    if (← disk.find parent name).isNone then .error .missing
    else .ok { disk with entries := disk.entries.filter (¬(name :: parent) <:+ ·.1) }

end LabelledEnum.Disk
