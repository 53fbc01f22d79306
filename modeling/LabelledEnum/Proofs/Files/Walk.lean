import LabelledEnum.Files.Disk.Access
import LabelledEnum.Proofs.Result

/-!
# Places that paths name

What a path names depends on the directories of the disk alone, so a disk with more directories, or with
other files, still has the place that it names.

* `Disk.walk_cons_eq_ok_iff`, `Disk.walk_append_eq_ok_iff`, `Disk.locate_eq_ok_iff`: all that a step of a
  walk, a walk in two parts and a path can come to.
* `Disk.placeOf`: the place that a path names.
* `Disk.HasDirectory`: a place holds a directory.
* `Disk.KeepsDirectories`: one disk has all directories of another.
* `Disk.KeepsDirectories.walk`, `Disk.KeepsDirectories.locate`, `Disk.KeepsDirectories.placeOf`: names
  and paths that lead somewhere on a disk lead to the same place on a disk that keeps its directories.
* `Disk.keepsDirectories_put`: a change of a place that holds no directory keeps the directories.
-/

namespace LabelledEnum

/-- The place to which a target leads. -/
def Target.place : Target → Place
  | .passage place => place
  | .entry parent name _ => name :: parent

namespace Disk

variable {before middle after disk : Disk} {path name : Text} {place parent goal : Place}
  {target : Target}

/-! ## Steps of a walk -/

/-- A directory stands at `place`, sealed or not. -/
def HasDirectory (disk : Disk) (place : Place) : Prop :=
  ∃ node, disk.node? place = some node ∧ node.isDirectory = true

/-- Looking for `name` gives what stands there, if the name is not too long. -/
theorem find_eq_ok_iff {node : Option Node} :
    disk.find parent name = .ok node ↔
      name.utf8Length ≤ maxNameLength ∧ disk.node? (name :: parent) = node := by
  unfold find
  split
  · next long => simp [Nat.not_le_of_lt long]
  · next short => simp [Nat.le_of_not_lt short]

/-- A walk from `place` goes on there at a dot, one level up at two dots, and otherwise into a directory. -/
theorem walk_cons_eq_ok_iff {rest : List Text} :
    disk.walk place (name :: rest) = .ok goal ↔
      name = ['.'] ∧ disk.walk place rest = .ok goal ∨
      name = ['.', '.'] ∧ disk.walk place.tail rest = .ok goal ∨
      (name ≠ ['.'] ∧ name ≠ ['.', '.'] ∧ name.utf8Length ≤ maxNameLength ∧
        disk.HasDirectory (name :: place) ∧ disk.walk (name :: place) rest = .ok goal) := by
  rw [walk]
  by_cases dot : name = ['.']
  · simp [dot]
  · by_cases dots : name = ['.', '.']
    · simp [dots]
    · simp only [dot, dots, ne_eq, if_false, false_and, false_or, not_false_eq_true, true_and]
      constructor
      · intro walked
        split at walked
        · cases walked
        · cases walked
        · next node found =>
          obtain ⟨short, stands⟩ := find_eq_ok_iff.1 found
          split at walked
          · -- no other node can be walked through
            next directory => exact ⟨short, ⟨node, stands, directory⟩, walked⟩
          · cases walked
      · rintro ⟨short, ⟨node, stands, directory⟩, walked⟩
        rw [find_eq_ok_iff.2 ⟨short, stands⟩]
        exact (if_pos directory).trans walked

/-- A walk along `front` and then `back` is a walk along the first names, and from there along the others. -/
theorem walk_append_eq_ok_iff {front back : List Text} :
    disk.walk place (front ++ back) = .ok goal ↔
      ∃ middle, disk.walk place front = .ok middle ∧ disk.walk middle back = .ok goal := by
  induction front generalizing place with
  | nil => simp [walk]
  | cons name rest ih =>
    simp only [List.cons_append, walk_cons_eq_ok_iff, ih]
    grind

/-! ## What a path leads to -/

/-- The place that `path` names, whatever stands there. -/
def placeOf (disk : Disk) (path : Text) : Except DiskFault Place :=
  (disk.locate path).map Target.place

/-- Where `path` leads to a target, it names the place of that target. -/
theorem placeOf_of_locate (h : disk.locate path = .ok target) :
    disk.placeOf path = .ok target.place := by
  rw [placeOf, h]
  rfl

/-- The place from which `path` is followed. -/
def startOf (disk : Disk) (path : Text) : Place := if Path.isAbsolute path then [] else disk.here

/-- The text `path` is neither too long nor empty and has no null character. -/
def Admits (path : Text) : Prop :=
  '\x00' ∉ path ∧ path ≠ [] ∧ path.utf8Length ≤ maxPathLength

/-- With `locate`, a path leads to the root if it has no names, on through all names if the last one is dots,
and otherwise through all names but the last. -/
theorem locate_eq_ok_iff :
    disk.locate path = .ok target ↔ Admits path ∧
      ((names path).getLast? = none ∧ target = .passage (disk.startOf path) ∨
      (∃ name goal, (names path).getLast? = some name ∧ (name = ['.'] ∨ name = ['.', '.']) ∧
        disk.walk (disk.startOf path) (names path) = .ok goal ∧ target = .passage goal) ∨
      ∃ name parent, (names path).getLast? = some name ∧ ¬(name = ['.'] ∨ name = ['.', '.']) ∧
        disk.walk (disk.startOf path) (names path).dropLast = .ok parent ∧
        target = .entry parent name (path.getLast? == some '/')) := by
  unfold locate Admits startOf
  split
  · next nul => simp_all
  · next noNul =>
    split
    · -- a path that is not admitted leads nowhere, on both sides
      next empty => simp [empty]
    · next nonempty =>
      split
      · next long => simp [Nat.not_le_of_lt long]
      · next short =>
        rw [and_iff_right ⟨by simpa using noNul, nonempty, Nat.le_of_not_lt short⟩]
        dsimp only
        cases last : (names path).getLast? with
        | none =>
          constructor
          · rintro ⟨⟩
            exact .inl ⟨rfl, rfl⟩
          · rintro (⟨-, rfl⟩ | ⟨_, _, other, -⟩ | ⟨_, _, other, -⟩)
            · rfl
            · cases other
            · cases other
        | some final =>
          dsimp only
          split
          · next dots =>
            rw [Except.map_eq_ok_iff]
            constructor
            · rintro ⟨goal, walked, rfl⟩
              exact .inr (.inl ⟨final, goal, rfl, dots, walked, rfl⟩)
            · rintro (⟨other, -⟩ | ⟨_, goal, -, -, walked, rfl⟩ | ⟨_, _, same, noDots, -⟩)
              · cases other
              · exact ⟨goal, walked, rfl⟩
              · cases same
                exact absurd dots noDots
          · next noDots =>
            rw [Except.map_eq_ok_iff]
            constructor
            · rintro ⟨parent, walked, rfl⟩
              exact .inr (.inr ⟨final, parent, rfl, noDots, walked, rfl⟩)
            · rintro (⟨other, -⟩ | ⟨_, _, same, dots, -⟩ | ⟨_, parent, same, -, walked, rfl⟩)
              · cases other
              · cases same
                exact absurd dots noDots
              · cases same
                exact ⟨parent, walked, rfl⟩

/-- With `locate`, a path ends with a name when its last name is no dots and the names before it can be
walked. -/
theorem locate_eq_entry_iff {slashed : Bool} :
    disk.locate path = .ok (.entry parent name slashed) ↔ Admits path ∧
      (names path).getLast? = some name ∧ ¬(name = ['.'] ∨ name = ['.', '.']) ∧
      disk.walk (disk.startOf path) (names path).dropLast = .ok parent ∧
      (path.getLast? == some '/') = slashed := by
  rw [locate_eq_ok_iff]
  refine and_congr_right fun _ => ?_
  constructor
  · rintro (⟨-, other⟩ | ⟨_, _, -, -, -, other⟩ | ⟨_, _, last, noDots, walked, same⟩)
    · cases other
    · cases other
    · cases same
      exact ⟨last, noDots, walked, rfl⟩
  · rintro ⟨last, noDots, walked, rfl⟩
    exact .inr (.inr ⟨name, parent, last, noDots, walked, rfl⟩)

/-! ## Disks with the same directories -/

/-- Every directory of the disk `before` is one of the disk `after`, and relative paths start from the
same place. -/
structure KeepsDirectories (before after : Disk) : Prop where
  /-- Relative paths start from the same place. -/
  here_eq : after.here = before.here
  /-- A directory stays as it is. -/
  node?_eq : ∀ {place : Place} {node : Node}, before.node? place = some node →
    node.isDirectory = true → after.node? place = some node

theorem HasDirectory.of_keeps (found : before.HasDirectory place)
    (kept : KeepsDirectories before after) : after.HasDirectory place := by
  obtain ⟨node, stands, directory⟩ := found
  exact ⟨node, kept.node?_eq stands directory, directory⟩

namespace KeepsDirectories

@[refl]
theorem refl (disk : Disk) : KeepsDirectories disk disk := ⟨rfl, fun found _ => found⟩

theorem trans (first : KeepsDirectories before middle) (second : KeepsDirectories middle after) :
    KeepsDirectories before after where
  here_eq := second.here_eq.trans first.here_eq
  node?_eq found directory := second.node?_eq (first.node?_eq found directory) directory

/-- The `names` lead to the same place as long as the directories are kept. -/
theorem walk (kept : KeepsDirectories before after) {names : List Text}
    (walked : before.walk place names = .ok goal) : after.walk place names = .ok goal := by
  induction names generalizing place with
  | nil => exact walked
  | cons name rest ih =>
    rw [walk_cons_eq_ok_iff] at walked ⊢
    rcases walked with ⟨dot, walked⟩ | ⟨dots, walked⟩ | ⟨noDot, noDots, short, found, walked⟩
    · exact .inl ⟨dot, ih walked⟩
    · exact .inr (.inl ⟨dots, ih walked⟩)
    · -- only a directory lets the walk go on, and that one is kept
      exact .inr (.inr ⟨noDot, noDots, short, found.of_keeps kept, ih walked⟩)

/-- A `path` that leads somewhere leads there as long as the directories are kept. -/
theorem locate (kept : KeepsDirectories before after) (located : before.locate path = .ok target) :
    after.locate path = .ok target := by
  have start : after.startOf path = before.startOf path := by
    rw [startOf, startOf, kept.here_eq]
  rw [locate_eq_ok_iff] at located ⊢
  rw [start]
  obtain ⟨admitted, root | ⟨name, goal, last, dots, walked, same⟩ |
    ⟨name, parent, last, noDots, walked, same⟩⟩ := located
  · exact ⟨admitted, .inl root⟩
  · exact ⟨admitted, .inr (.inl ⟨name, goal, last, dots, kept.walk walked, same⟩)⟩
  · exact ⟨admitted, .inr (.inr ⟨name, parent, last, noDots, kept.walk walked, same⟩)⟩

/-- A `path` names the same place as long as the directories are kept. -/
theorem placeOf (kept : KeepsDirectories before after) (named : before.placeOf path = .ok place) :
    after.placeOf path = .ok place := by
  obtain ⟨target, located, rfl⟩ := Except.map_eq_ok_iff.1 named
  exact placeOf_of_locate (kept.locate located)

end KeepsDirectories

/-- Putting `new` where no directory stands keeps the directories. -/
theorem keepsDirectories_put {new : Node}
    (noDirectory : ∀ node, disk.node? (name :: parent) = some node → node.isDirectory = false) :
    KeepsDirectories disk (disk.put (name :: parent) new) where
  here_eq := rfl
  node?_eq {place node} found directory := by
    have other : place ≠ name :: parent := by
      rintro rfl
      simp [noDirectory node found] at directory
    rw [node?_put_of_ne other]
    exact found

end Disk

end LabelledEnum
