import LabelledEnum.Text.Basic

/-!
# Disks

A disk is a tree of files and directories together with the directory from which relative paths
start.

* `Disk`, `Place`, `Node`: the tree, a position in it and what stands there.
* `Disk.node?`, `Disk.put`: looking at one place, and changing one.
* `Disk.fresh`: a disk on which nothing has been done.
* `Disk.contents`: everything below the directory from which relative paths start.
* `Disk.node?_put_self`, `Disk.node?_put_of_ne`: a change of one place is seen there and nowhere else.
-/

namespace LabelledEnum

/-- The names from a node up to the root, so the node's own name comes first. The root is the empty
list. -/
abbrev Place := List Text

/-- Whether two values of type `ByteArray` are the same is decided by the core library. -/
instance decidableEqBytes : DecidableEq ByteArray := ByteArray.decEq

/-- What stands at a place. -/
inductive Node where
  /-- A file with its `bytes`. -/
  | file (bytes : ByteArray)
  /-- A directory. What is in it stands in `Disk.entries` under longer places. -/
  | directory
  /-- A directory in which nothing can be made. -/
  | sealedDirectory
  deriving DecidableEq

/-- Whether a path can go on below the node. -/
def Node.isDirectory : Node → Bool
  | file _ => false
  | directory => true
  | sealedDirectory => true

/-- A tree of files and directories. -/
structure Disk where
  /-- The nodes with their places. The root is not listed. -/
  entries : List (Place × Node)
  /-- The directory from which relative paths start. -/
  here : Place
  deriving DecidableEq

namespace Disk

/-- What stands at a place of `disk`, if anything does. The root is always a directory. -/
def node? (disk : Disk) : Place → Option Node
  | [] => some .directory
  | place => disk.entries.lookup place

/-- The disk with `node` at `place`, instead of what was there. -/
def put (disk : Disk) (place : Place) (node : Node) : Disk :=
  { disk with entries := (place, node) :: disk.entries.filter (·.1 ≠ place) }

/-- A disk with an empty directory to work in, and beside it a sealed directory in which the system
shows its processes. -/
def fresh : Disk where
  entries := [(["work"], .directory), (["proc"], .sealedDirectory)]
  here := ["work"]

/-- The `node` that was put at `place` stands there. The root is excluded because it is not listed. -/
theorem node?_put_self {disk : Disk} {place : Place} {node : Node} (h : place ≠ []) :
    (disk.put place node).node? place = some node := by
  cases place with
  | nil => contradiction
  | cons name parent => simp [put, node?]

/-- Putting a node at `place` does not change what stands at an `other` one. -/
theorem node?_put_of_ne {disk : Disk} {place other : Place} {node : Node} (h : other ≠ place) :
    (disk.put place node).node? other = disk.node? other := by
  cases other with
  | nil => rfl
  | cons name parent =>
    have differs : (name :: parent == place) = false := by simpa using h
    simp only [put, node?, List.lookup_cons, differs]
    induction disk.entries with
    | nil => rfl
    | cons entry rest ih =>
      obtain ⟨key, value⟩ := entry
      by_cases same : key = place
      · subst same
        simpa [List.lookup_cons, differs] using ih
      · simp_all [List.lookup_cons]

/-- The names from the place `top` down to the place `place` below it, outermost first. -/
def namesBelow? (top place : Place) : Option (List Text) :=
  if top <:+ place ∧ place ≠ top then some (place.take (place.length - top.length)).reverse else none

/-- Everything below `disk.here`, each node under the names that lead to it. A directory comes before what is in
it, and names are in the order of their code points. -/
def contents (disk : Disk) : List (List Text × Node) :=
  (disk.entries.filterMap fun entry =>
    (namesBelow? disk.here entry.1).map (·, entry.2)).mergeSort fun a b =>
      !b.1.lex a.1 Text.isBefore

end Disk

end LabelledEnum
