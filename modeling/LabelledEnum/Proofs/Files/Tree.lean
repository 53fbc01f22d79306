import LabelledEnum.Proofs.Files.Saving

/-!
# Disks that are trees

On a disk that is a tree, whatever stands at a place stands in a directory. What is done to a disk keeps
it a tree.

* `Disk.IsTree`: the disk is a tree.
* `Disk.hasDirectory_walk`: names that can be walked lead to a directory.
* `Disk.isTree_makeDirectories`, `Disk.isTree_write`, `CodeFile.isTree_save`: changes keep a tree a tree.
-/

namespace LabelledEnum

namespace Disk

variable {disk after : Disk} {path name : Text} {place parent goal : Place}

/-- Whatever stands at a place of `disk` stands in a directory, and relative paths start in a directory. -/
structure IsTree (disk : Disk) : Prop where
  /-- What stands below a place stands in a directory. -/
  hasDirectory_parent : ∀ {name : Text} {parent : Place},
    disk.node? (name :: parent) ≠ none → disk.HasDirectory parent
  /-- Relative paths start in a directory. -/
  hasDirectory_here : disk.HasDirectory disk.here

theorem hasDirectory_root (disk : Disk) : disk.HasDirectory [] := ⟨.directory, rfl, rfl⟩

namespace IsTree

/-- The places above a directory are directories: so is `place`, of which `goal` is a continuation. -/
theorem hasDirectory_of_suffix (tree : disk.IsTree) (above : place <:+ goal)
    (found : disk.HasDirectory goal) : disk.HasDirectory place := by
  -- from the goal up, one directory at a time
  induction goal with
  | nil =>
    rw [List.suffix_nil.1 above]
    exact found
  | cons name parent ih =>
    rcases List.suffix_cons_iff.1 above with rfl | higher
    · exact found
    · obtain ⟨node, stands, -⟩ := found
      exact ih higher (tree.hasDirectory_parent (stands ▸ Option.some_ne_none node))

theorem hasDirectory_startOf (tree : disk.IsTree) (path : Text) :
    disk.HasDirectory (disk.startOf path) := by
  unfold startOf
  split
  · exact hasDirectory_root disk
  · exact tree.hasDirectory_here

/-- The `names` that can be walked from a directory lead to a directory. -/
theorem hasDirectory_walk (tree : disk.IsTree) {names : List Text} (start : disk.HasDirectory place)
    (walked : disk.walk place names = .ok goal) : disk.HasDirectory goal := by
  induction names generalizing place with
  | nil =>
    cases walked
    exact start
  | cons name rest ih =>
    rcases walk_cons_eq_ok_iff.1 walked with ⟨-, walked⟩ | ⟨-, walked⟩ | ⟨-, -, -, found, walked⟩
    · exact ih start walked
    · -- one level up is above the place, so it is a directory of the tree
      exact ih (tree.hasDirectory_of_suffix (List.tail_suffix place) start) walked
    · exact ih found walked

/-- A `path` that ends with a name ends in a directory. -/
theorem hasDirectory_of_locate (tree : disk.IsTree) {slashed : Bool}
    (located : disk.locate path = .ok (.entry parent name slashed)) : disk.HasDirectory parent := by
  obtain ⟨-, -, -, walked, -⟩ := locate_eq_entry_iff.1 located
  exact tree.hasDirectory_walk (tree.hasDirectory_startOf path) walked

/-- A tree stays one when `new` is put into a directory where no directory stood. -/
theorem put (tree : disk.IsTree) {new : Node} (up : disk.HasDirectory parent)
    (noDirectory : ∀ node, disk.node? (name :: parent) = some node → node.isDirectory = false) :
    (disk.put (name :: parent) new).IsTree := by
  have kept : KeepsDirectories disk (disk.put (name :: parent) new) :=
    keepsDirectories_put noDirectory
  refine ⟨fun {other above} stands => ?_, tree.hasDirectory_here.of_keeps kept⟩
  -- the new node stands in a directory, and the other nodes stand where they stood
  by_cases here : other :: above = name :: parent
  · cases here
    exact up.of_keeps kept
  · rw [node?_put_of_ne here] at stands
    exact (tree.hasDirectory_parent stands).of_keeps kept

theorem makeDirectory (tree : disk.IsTree) (made : disk.makeDirectory path = .ok after) :
    after.IsTree := by
  obtain ⟨parent, name, slashed, located, nothing, rfl⟩ := makeDirectory_eq_ok made
  exact tree.put (tree.hasDirectory_of_locate located) (by simp [nothing])

theorem makeDirectories (tree : disk.IsTree) (path : Text) :
    (disk.makeDirectories path).1.IsTree :=
  makeDirectories_induction disk path tree fun _ made tree => tree.makeDirectory made

theorem write (tree : disk.IsTree) {bytes : ByteArray} (written : disk.write path bytes = .ok after) :
    after.IsTree := by
  obtain ⟨parent, name, located, -, stood, rfl⟩ := write_eq_ok written
  refine tree.put (tree.hasDirectory_of_locate located) fun node stands => ?_
  obtain ⟨old, rfl⟩ := stood node stands
  rfl

end IsTree

end Disk

namespace CodeFile

theorem isTree_makeWay (file : CodeFile) {disk : Disk} (tree : disk.IsTree) :
    (file.makeWay disk).1.IsTree := by
  unfold makeWay
  split
  · exact tree
  · exact tree.makeDirectories _

/-- A tree stays one when `file` is saved, whatever comes of it. -/
theorem isTree_save (file : CodeFile) {disk : Disk} (tree : disk.IsTree) (overwrite : Bool) :
    (file.save disk overwrite).disk.IsTree := by
  have way := file.isTree_makeWay tree
  rcases file.save_cases disk overwrite with
    ⟨_, -, saving⟩ | ⟨-, saving⟩ | ⟨-, -, saving⟩ | ⟨operation, -, -, saving⟩
  · rwa [saving]
  · rwa [saving]
  · rwa [saving]
  · rcases file.put_cases disk operation with
      ⟨_, -, put⟩ | ⟨_, -, -, put⟩ | ⟨written, -, done, put⟩
    · rwa [saving, put]
    · rwa [saving, put]
    · rw [saving, put]
      exact way.write done

end CodeFile

end LabelledEnum
