import LabelledEnum.Proofs.Files.Tree

/-!
# Files that saving keeps

Whether a content is replaced is decided by what the path leads to before the directories on the way are
made. Where the path leads nowhere before and to a file afterwards, that file is replaced without a
question.

* `Disk.KeepsFiles`: all files of one disk are on another, with the same bytes.
* `CodeFile.MeetsHidden`: the path leads to a file only after the directories on the way have been made.
* `CodeFile.keepsFiles_save_iff`: exactly then saving without permission replaces a file.
* `CodeFile.dots_of_meetsHidden`: on a tree this takes a path that goes up.
-/

namespace LabelledEnum

namespace Disk

variable {before middle after : Disk}

/-- Every file of the disk `before` is on the disk `after`, with the same bytes. -/
def KeepsFiles (before after : Disk) : Prop :=
  ∀ place bytes, before.node? place = some (.file bytes) → after.node? place = some (.file bytes)

@[refl]
theorem KeepsFiles.refl (disk : Disk) : KeepsFiles disk disk := fun _ _ stands => stands

theorem KeepsFiles.trans (first : KeepsFiles before middle) (second : KeepsFiles middle after) :
    KeepsFiles before after :=
  fun place bytes stands => second place bytes (first place bytes stands)

theorem GainsDirectories.keepsFiles {among : Text → Prop}
    (gained : GainsDirectories among before after) : KeepsFiles before after :=
  fun _ _ => gained.node?_of_some

end Disk

namespace CodeFile

variable {file : CodeFile} {disk : Disk}

/-- The path of `file` leads nowhere on `disk`, and once the directories on the way have been made it leads to a
file with other bytes. -/
def MeetsHidden (file : CodeFile) (disk : Disk) : Prop :=
  disk.readBytes file.path = .error .missing ∧ (file.makeWay disk).2 = none ∧
    ∃ old, (file.makeWay disk).1.readBytes file.path = .ok old ∧ old ≠ Text.encode file.content

/-- A text is found to be missing exactly where `readBytes` finds no file. -/
theorem readText_eq_missing_iff {path : Text} :
    disk.readText path = .error .missing ↔ disk.readBytes path = .error .missing := by
  unfold Disk.readText
  cases disk.readBytes path with
  | error fault => simp [bind, Except.bind]
  | ok bytes =>
    simp only [bind, Except.bind]
    split <;> simp

/-- Writing `bytes` keeps the files exactly if the path leads to no file with other bytes. -/
private theorem keepsFiles_write_iff {path : Text} {bytes : ByteArray} {after : Disk}
    (written : disk.write path bytes = .ok after) :
    Disk.KeepsFiles disk after ↔ ∀ old, disk.readBytes path = .ok old → old = bytes := by
  obtain ⟨parent, name, located, short, -, rfl⟩ := Disk.write_eq_ok written
  have stands : (disk.put (name :: parent) (.file bytes)).node? (name :: parent) =
      some (.file bytes) := Disk.node?_put_self (List.cons_ne_nil _ _)
  constructor
  · intro kept old read
    obtain ⟨parent', name', located', -, stood⟩ := Disk.readBytes_eq_ok_iff.1 read
    rw [located] at located'
    cases located'
    -- the file that was there is at the place that is written
    have := kept _ _ stood
    rw [stands] at this
    cases this
    rfl
  · intro same place old stood
    by_cases here : place = name :: parent
    · subst here
      have read := Disk.readBytes_eq_ok_iff.2 ⟨parent, name, located, short, stood⟩
      rw [same old read, stands]
    · rw [Disk.node?_put_of_ne here, stood]

private theorem save_disk_eq_self (h : file.operation disk ≠ .ok .create) :
    (file.save disk false).disk = disk := by
  rcases file.save_cases disk false with
    ⟨_, -, saving⟩ | ⟨-, saving⟩ | ⟨-, -, saving⟩ | ⟨operation, foretold, permitted, -⟩
  · rw [saving]
  · rw [saving]
  · rw [saving]
  · obtain rfl : operation = .create := by simpa using permitted
    exact absurd foretold h

/-- Saving `file` without permission keeps all files unless the path `MeetsHidden`. -/
theorem keepsFiles_save_iff :
    Disk.KeepsFiles disk (file.save disk false).disk ↔ ¬file.MeetsHidden disk := by
  have create_iff : file.operation disk = .ok .create ↔
      disk.readBytes file.path = .error .missing :=
    operation_eq_create_iff.trans readText_eq_missing_iff
  by_cases foretold : file.operation disk = .ok .create
  · have missing := create_iff.1 foretold
    have saving : file.save disk false = file.put disk .create := by rw [save, foretold]
    have way := file.gainsDirectories_makeWay disk
    rw [saving]
    rcases file.put_cases disk .create with
      ⟨failure, blocked, put⟩ | ⟨fault, made, failed, put⟩ | ⟨written, made, done, put⟩
    · rw [put]
      refine iff_of_true way.keepsFiles ?_
      rintro ⟨_, made, _⟩
      rw [made] at blocked
      cases blocked
    · rw [put]
      refine iff_of_true way.keepsFiles ?_
      rintro ⟨_, _, old, read, _⟩
      -- a hidden file could be written
      obtain ⟨after, done⟩ := Disk.exists_write_of_readBytes read (Text.encode file.content)
      rw [failed] at done
      cases done
    · rw [put]
      -- the files are the same before and after the way is made
      have step : Disk.KeepsFiles disk written ↔ Disk.KeepsFiles (file.makeWay disk).1 written :=
        ⟨fun kept place bytes stands => kept place bytes (way.file_iff.1 stands),
          way.keepsFiles.trans⟩
      rw [step, keepsFiles_write_iff done]
      simp [MeetsHidden, missing, made]
  · -- where something is read, nothing is hidden and nothing is replaced
    refine iff_of_true ?_ fun hidden => foretold (create_iff.2 hidden.1)
    rw [save_disk_eq_self foretold]

/-! ## Paths that meet hidden files -/

/-- A walk along `names` that never go up leads to a place below. -/
private theorem suffix_of_walk {place goal : Place} {names : List Text} (noDots : ['.', '.'] ∉ names)
    (walked : disk.walk place names = .ok goal) : place <:+ goal := by
  induction names generalizing place with
  | nil =>
    cases walked
    exact List.suffix_rfl
  | cons name rest ih =>
    have later : ['.', '.'] ∉ rest := fun member => noDots (List.mem_cons_of_mem _ member)
    rcases Disk.walk_cons_eq_ok_iff.1 walked with
      ⟨-, walked⟩ | ⟨dots, -⟩ | ⟨-, -, -, -, walked⟩
    · exact ih later walked
    · exact absurd (dots ▸ List.mem_cons_self) noDots
    · exact (List.suffix_cons ..).trans (ih later walked)

/-- A walk along `names` that never go up and lead to a place on some disk leads to it on each tree that has a
directory there. -/
private theorem walk_of_walk {other : Disk} (tree : disk.IsTree) {place goal : Place}
    {names : List Text} (noDots : ['.', '.'] ∉ names) (walked : other.walk place names = .ok goal)
    (there : disk.HasDirectory goal) : disk.walk place names = .ok goal := by
  induction names generalizing place with
  | nil => exact walked
  | cons name rest ih =>
    have later : ['.', '.'] ∉ rest := fun member => noDots (List.mem_cons_of_mem _ member)
    rw [Disk.walk_cons_eq_ok_iff] at walked ⊢
    rcases walked with ⟨dot, walked⟩ | ⟨dots, -⟩ | ⟨noDot, noDots', short, -, walked⟩
    · exact .inl ⟨dot, ih later walked⟩
    · exact absurd (dots ▸ List.mem_cons_self) noDots
    · -- the directory is above the goal, so the tree had it before
      have found := tree.hasDirectory_of_suffix (suffix_of_walk later walked) there
      exact .inr (.inr ⟨noDot, noDots', short, found, ih later walked⟩)

/-- On a tree, only a path that goes up somewhere meets a hidden file, so `..` is one of its names. -/
theorem dots_of_meetsHidden (tree : disk.IsTree) (hidden : file.MeetsHidden disk) :
    ['.', '.'] ∈ Disk.names file.path := by
  refine Decidable.byContradiction fun noDots => ?_
  obtain ⟨missing, -, old, read, -⟩ := hidden
  have way := file.gainsDirectories_makeWay disk
  obtain ⟨parent, name, located, short, stands⟩ := Disk.readBytes_eq_ok_iff.1 read
  -- the file was there before the way was made, in a directory that was there
  have stood := way.file_iff.1 stands
  obtain ⟨admitted, last, noDots', walked, slashed⟩ := Disk.locate_eq_entry_iff.1 located
  have there : disk.HasDirectory parent :=
    tree.hasDirectory_parent (stood ▸ Option.some_ne_none _)
  have start : (file.makeWay disk).1.startOf file.path = disk.startOf file.path := by
    rw [Disk.startOf, Disk.startOf, way.here_eq]
  rw [start] at walked
  -- without going up the path leads there at once, so it was not missing
  have walked' := walk_of_walk tree
    (fun member => noDots (List.dropLast_subset _ member)) walked there
  have located' := Disk.locate_eq_entry_iff.2 ⟨admitted, last, noDots', walked', slashed⟩
  have read' := Disk.readBytes_eq_ok_iff.2 ⟨parent, name, located', short, stood⟩
  rw [missing] at read'
  cases read'

end CodeFile

end LabelledEnum
