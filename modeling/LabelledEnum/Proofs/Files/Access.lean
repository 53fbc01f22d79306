import LabelledEnum.Proofs.Files.Path
import LabelledEnum.Proofs.Files.Walk
import LabelledEnum.Proofs.Text.Bytes

/-!
# What reading and changing a disk comes to

Each operation is described once by what stands at which place, before and after.

* `Disk.readBytes_eq_ok_iff`, `Disk.readText_eq_ok_iff`: when a path can be read.
* `Disk.write_eq_ok`, `Disk.readBytes_of_write`: what writing a file changes, and that it can be read.
* `Disk.isDirectory_of_isAbove`, `Disk.makeDirectories_of_isDirectory`: above a path that leads somewhere the
  directories are there, and nothing is made where they are.
* `Disk.GainsDirectories`: a disk has got directories that some paths name, and nothing else.
* `Disk.makeDirectories_induction`: what making one directory keeps, making all on a path keeps.
* `Disk.gainsDirectories_makeDirectories`: making the directories on a path makes only directories that
  are named by the path and by paths above it.
-/

namespace LabelledEnum.Disk

variable {before middle after disk : Disk} {path name : Text} {place parent : Place} {bytes : ByteArray}

/-! ## Reading -/

/-- With `readBytes`, a path can be read exactly when it ends with the name of a file and no slash comes after
that. -/
theorem readBytes_eq_ok_iff :
    disk.readBytes path = .ok bytes ↔
      ∃ parent name, disk.locate path = .ok (.entry parent name false) ∧
        name.utf8Length ≤ maxNameLength ∧ disk.node? (name :: parent) = some (.file bytes) := by
  unfold readBytes
  constructor
  · -- each step of reading but the last leaves one way on
    intro read
    obtain ⟨target, located, read⟩ := Except.bind_eq_ok_iff.1 read
    cases target with
    | passage place => cases read
    | entry parent name slashed =>
      obtain ⟨node, found, read⟩ := Except.bind_eq_ok_iff.1 read
      obtain ⟨short, stands⟩ := find_eq_ok_iff.1 found
      split at read
      · cases read
      · next old =>
        cases slashed with
        | true => cases read
        | false =>
          cases read
          exact ⟨parent, name, located, short, stands⟩
      · cases read
  · rintro ⟨parent, name, located, short, stands⟩
    have found : disk.find parent name = .ok (some (.file bytes)) :=
      find_eq_ok_iff.2 ⟨short, stands⟩
    refine Except.bind_eq_ok_iff.2 ⟨_, located, Except.bind_eq_ok_iff.2 ⟨_, found, ?_⟩⟩
    rfl

/-- The `text` of a file is what its bytes decode to. -/
theorem readText_eq_ok_iff {text : Text} :
    disk.readText path = .ok text ↔ disk.readBytes path = .ok (Text.encode text) := by
  unfold readText
  rw [Except.bind_eq_ok_iff]
  constructor
  · rintro ⟨bytes, read, decoded⟩
    split at decoded
    · next found =>
      cases decoded
      rw [read, Text.decode?_eq_some_iff.1 found]
    · cases decoded
  · intro read
    refine ⟨_, read, ?_⟩
    rw [Text.decode?_encode]

/-! ## Writing -/

/-- A `node` can be added exactly where the directory is not sealed, and stands there afterwards. -/
theorem add_eq_ok_iff {node : Node} :
    disk.add parent name node = .ok after ↔
      disk.node? parent ≠ some .sealedDirectory ∧ disk.put (name :: parent) node = after := by
  unfold add
  split
  · next closed => simp [closed]
  · next opened => simp [opened]

/-- What writing to a `path` that can be written changes: at one place, where nothing but a file stood, a file
with `bytes` stands. -/
theorem write_eq_ok (written : disk.write path bytes = .ok after) :
    ∃ parent name, disk.locate path = .ok (.entry parent name false) ∧
      name.utf8Length ≤ maxNameLength ∧
      (∀ node, disk.node? (name :: parent) = some node → ∃ old, node = .file old) ∧
      after = disk.put (name :: parent) (.file bytes) := by
  unfold write at written
  obtain ⟨target, located, written⟩ := Except.bind_eq_ok_iff.1 written
  cases target with
  | passage place => cases written
  | entry parent name slashed =>
    cases slashed with
    | true => cases written
    | false =>
      obtain ⟨node, found, written⟩ := Except.bind_eq_ok_iff.1 written
      obtain ⟨short, stands⟩ := find_eq_ok_iff.1 found
      refine ⟨parent, name, located, short, ?_⟩
      rw [stands]
      -- a new name takes a node as its entry, an old one has to be a file
      split at written
      · obtain ⟨-, rfl⟩ := add_eq_ok_iff.1 written
        exact ⟨fun _ nothing => (Option.not_mem_none _ nothing).elim, rfl⟩
      · next old =>
        cases written
        exact ⟨fun _ same => ⟨old, (Option.some.inj same).symm⟩, rfl⟩
      · cases written

/-- A file that can be read can be written, whatever `bytes` it is to hold. -/
theorem exists_write_of_readBytes {old : ByteArray} (read : disk.readBytes path = .ok old)
    (bytes : ByteArray) : ∃ after, disk.write path bytes = .ok after := by
  obtain ⟨parent, name, located, short, stands⟩ := readBytes_eq_ok_iff.1 read
  have found : disk.find parent name = .ok (some (.file old)) := find_eq_ok_iff.2 ⟨short, stands⟩
  refine ⟨disk.put (name :: parent) (.file bytes), ?_⟩
  refine Except.bind_eq_ok_iff.2 ⟨_, located, Except.bind_eq_ok_iff.2 ⟨_, found, ?_⟩⟩
  rfl

/-- Writing to `path` changes no directory. -/
theorem keepsDirectories_of_write (written : disk.write path bytes = .ok after) :
    KeepsDirectories disk after := by
  obtain ⟨parent, name, -, -, stood, rfl⟩ := write_eq_ok written
  refine keepsDirectories_put fun node stands => ?_
  obtain ⟨old, rfl⟩ := stood node stands
  rfl

/-- What has been written to `path` is read from it. -/
theorem readBytes_of_write (written : disk.write path bytes = .ok after) :
    after.readBytes path = .ok bytes := by
  have kept := keepsDirectories_of_write written
  -- the path is followed as before, since writing keeps the directories
  obtain ⟨parent, name, located, short, -, rfl⟩ := write_eq_ok written
  exact readBytes_eq_ok_iff.2
    ⟨parent, name, kept.locate located, short, node?_put_self (List.cons_ne_nil _ _)⟩

/-! ## Directories that are there -/

/-- With `isDirectory`, a path names a directory if it ends on its way, and else if a directory stands under its
last name. -/
theorem isDirectory_eq_true_iff :
    disk.isDirectory path = true ↔
      (∃ place, disk.locate path = .ok (.passage place)) ∨
      ∃ parent name slashed, disk.locate path = .ok (.entry parent name slashed) ∧
        name.utf8Length ≤ maxNameLength ∧ disk.HasDirectory (name :: parent) := by
  unfold isDirectory
  cases located : disk.locate path with
  | error fault => simp
  | ok target =>
    cases target with
    | passage place => simp
    | entry parent name slashed =>
      constructor
      · intro there
        dsimp only at there
        split at there
        · next node found =>
          obtain ⟨short, stands⟩ := find_eq_ok_iff.1 found
          exact .inr ⟨parent, name, slashed, rfl, short, node, stands, there⟩
        · cases there
      · rintro (⟨_, other⟩ | ⟨_, _, _, same, short, node, stands, directory⟩)
        · cases other
        · cases same
          dsimp only
          rw [find_eq_ok_iff.2 ⟨short, stands⟩]
          exact directory

/-- The paths `up` above one that ends with a name lead through directories that are there. -/
theorem isDirectory_of_isAbove {up : Text} {slashed : Bool} (above : Path.IsAbove up path)
    (filled : up ≠ []) (located : disk.locate path = .ok (.entry parent name slashed)) :
    disk.isDirectory up = true := by
  obtain ⟨⟨noNul, -, short⟩, -, -, walked, -⟩ := locate_eq_entry_iff.1 located
  have admitted : Admits up := ⟨fun nul => noNul (above.text_isPrefix.subset nul), filled,
    Nat.le_trans (Text.utf8Length_le_of_isInfix above.text_isPrefix.isInfix) short⟩
  have start : disk.startOf up = disk.startOf path := by
    obtain ⟨c, front, rfl⟩ := List.exists_cons_of_ne_nil filled
    obtain ⟨back, rfl⟩ := above.text_isPrefix
    rfl
  -- the names of the path above are the first ones that are walked
  obtain ⟨others, names_eq⟩ := above.names_isPrefix
  have more : others ≠ [] := by
    rintro rfl
    rw [List.append_nil] at names_eq
    exact absurd above.length_lt (names_eq ▸ Nat.lt_irrefl _)
  rw [← names_eq, List.dropLast_append_of_ne_nil more, ← start] at walked
  obtain ⟨middle, walked, -⟩ := walk_append_eq_ok_iff.1 walked
  rw [isDirectory_eq_true_iff]
  cases last : (names up).getLast? with
  | none => exact .inl ⟨_, locate_eq_ok_iff.2 ⟨admitted, .inl ⟨last, rfl⟩⟩⟩
  | some final =>
    by_cases dots : final = ['.'] ∨ final = ['.', '.']
    · exact .inl ⟨middle, locate_eq_ok_iff.2
        ⟨admitted, .inr (.inl ⟨final, middle, last, dots, walked, rfl⟩)⟩⟩
    · obtain ⟨front, spelt⟩ := List.getLast?_eq_some_iff.1 last
      have front_eq : (names up).dropLast = front := by rw [spelt, List.dropLast_concat]
      rw [spelt] at walked
      obtain ⟨above, walked, step⟩ := walk_append_eq_ok_iff.1 walked
      -- a last name that is no dots was walked into as a directory
      rcases walk_cons_eq_ok_iff.1 step with ⟨dot, -⟩ | ⟨two, -⟩ | ⟨-, -, fits, found, -⟩
      · exact absurd (.inl dot) dots
      · exact absurd (.inr two) dots
      · exact .inr ⟨above, final, _, locate_eq_entry_iff.2
          ⟨admitted, last, dots, by rwa [front_eq], rfl⟩, fits, found⟩

/-- Where the directory is there, `makeDirectories` makes none on its path. -/
theorem makeDirectories_of_isDirectory (there : disk.isDirectory path = true) :
    disk.makeDirectories path = (disk, none) := by
  have occupied : disk.makeDirectory path = .error .occupied := by
    unfold makeDirectory
    rcases isDirectory_eq_true_iff.1 there with
      ⟨place, located⟩ | ⟨parent, name, slashed, located, short, node, stands, -⟩
    · rw [located]
      rfl
    · have found : disk.find parent name = .ok (some node) := find_eq_ok_iff.2 ⟨short, stands⟩
      rw [located]
      simp only [bind, Except.bind, found]
  have ensured : disk.ensureDirectory path = (disk, none) := by
    rw [ensureDirectory, occupied, there]
    rfl
  rw [makeDirectories, occupied]
  split
  · rfl
  · exact ensured

/-! ## Making directories -/

/-- The disk `after` is the disk `before` with more directories, each where nothing stood and named by a path of
which `among` holds. -/
structure GainsDirectories (among : Text → Prop) (before after : Disk) : Prop where
  /-- Relative paths start from the same place. -/
  here_eq : after.here = before.here
  /-- A place holds what it held, or a directory that a path names of which `among` holds. -/
  node?_eq : ∀ place, after.node? place = before.node? place ∨
    before.node? place = none ∧ after.node? place = some .directory ∧
      ∃ path, among path ∧ after.placeOf path = .ok place

namespace GainsDirectories

variable {among wider : Text → Prop}

theorem refl (among : Text → Prop) (disk : Disk) : GainsDirectories among disk disk :=
  ⟨rfl, fun _ => .inl rfl⟩

/-- If `wider` holds of more paths, these name at least the same directories. -/
theorem mono (gained : GainsDirectories among before after) (h : ∀ path, among path → wider path) :
    GainsDirectories wider before after where
  here_eq := gained.here_eq
  node?_eq place := by
    rcases gained.node?_eq place with same | ⟨nothing, made, path, member, named⟩
    · exact .inl same
    · exact .inr ⟨nothing, made, path, h path member, named⟩

theorem node?_of_some (gained : GainsDirectories among before after) {node : Node}
    (stands : before.node? place = some node) : after.node? place = some node := by
  rcases gained.node?_eq place with same | ⟨nothing, -⟩
  · rw [same, stands]
  · rw [nothing] at stands
    cases stands

/-- At each `place`, the same files stand with the same `bytes`. -/
theorem file_iff (gained : GainsDirectories among before after) :
    after.node? place = some (.file bytes) ↔ before.node? place = some (.file bytes) := by
  constructor
  · intro stands
    rcases gained.node?_eq place with same | ⟨-, made, -⟩
    · rw [← same, stands]
    · rw [made] at stands
      cases stands
  · exact gained.node?_of_some

theorem keepsDirectories (gained : GainsDirectories among before after) :
    KeepsDirectories before after :=
  ⟨gained.here_eq, fun stands _ => gained.node?_of_some stands⟩

theorem trans (first : GainsDirectories among before middle)
    (second : GainsDirectories among middle after) : GainsDirectories among before after where
  here_eq := second.here_eq.trans first.here_eq
  node?_eq place := by
    rcases first.node?_eq place with same | ⟨nothing, made, path, member, named⟩
    · rw [← same]
      exact second.node?_eq place
    · -- a directory made first is still there, under the same path
      exact .inr ⟨nothing, second.node?_of_some made, path, member,
        second.keepsDirectories.placeOf named⟩

end GainsDirectories

/-- Where `makeDirectory` succeeds, nothing stood under the last name of `path`, and a directory stands there
afterwards. -/
theorem makeDirectory_eq_ok (made : disk.makeDirectory path = .ok after) :
    ∃ parent name slashed, disk.locate path = .ok (.entry parent name slashed) ∧
      disk.node? (name :: parent) = none ∧ after = disk.put (name :: parent) .directory := by
  unfold makeDirectory at made
  obtain ⟨target, located, made⟩ := Except.bind_eq_ok_iff.1 made
  cases target with
  | passage place => cases made
  | entry parent name slashed =>
    obtain ⟨node, found, made⟩ := Except.bind_eq_ok_iff.1 made
    obtain ⟨-, stands⟩ := find_eq_ok_iff.1 found
    split at made
    · obtain ⟨-, rfl⟩ := add_eq_ok_iff.1 made
      exact ⟨parent, name, slashed, located, stands, rfl⟩
    · cases made

/-- Making a directory adds the one that `path` names. -/
theorem gainsDirectories_makeDirectory (made : disk.makeDirectory path = .ok after) :
    GainsDirectories (· = path) disk after := by
  obtain ⟨parent, name, slashed, located, nothing, rfl⟩ := makeDirectory_eq_ok made
  -- nothing stood at the place, so no directory is lost there
  have kept : KeepsDirectories disk (disk.put (name :: parent) .directory) :=
    keepsDirectories_put (by simp [nothing])
  refine ⟨rfl, fun place => ?_⟩
  by_cases here : place = name :: parent
  · subst here
    exact .inr ⟨nothing, node?_put_self (List.cons_ne_nil _ _), path, rfl,
      placeOf_of_locate (kept.locate located)⟩
  · exact .inl (node?_put_of_ne here)

/-- What `holds` of a disk and stays when a directory is made at `path` or above it, holds after the directories
on the path have been made, also when that ends with a fault. -/
theorem makeDirectories_induction {holds : Disk → Prop} (disk : Disk) (path : Text)
    (start : holds disk)
    (step : ∀ {disk after : Disk} {up : Text}, up = path ∨ Path.IsAbove up path →
      disk.makeDirectory up = .ok after → holds disk → holds after) :
    holds (disk.makeDirectories path).1 := by
  -- the recursion is on the parent path, and the directory at the path itself comes last
  have last : ∀ disk : Disk, holds disk → holds (disk.ensureDirectory path).1 := by
    intro disk before
    unfold ensureDirectory
    split
    · next made => exact step (.inl rfl) made before
    · exact before
  rw [makeDirectories]
  split
  · exact start
  · split
    · split
      · exact start
      · next up parent =>
        -- the directories on the way to the parent come first
        have above := Path.isAbove_of_parent? parent
        have way : holds (disk.makeDirectories up).1 := by
          refine makeDirectories_induction disk up start fun among made before => ?_
          rcases among with rfl | higher
          · exact step (.inr above) made before
          · exact step (.inr (higher.trans above)) made before
        split
        · next stopped => simpa [stopped] using way
        · next after done =>
          rw [done] at way
          exact last after way
    · exact last disk start
termination_by path.length
decreasing_by exact Path.length_parent?_lt ‹_›

/-- Making the directories on `path` adds only directories that are named by it and by paths above it. -/
theorem gainsDirectories_makeDirectories (disk : Disk) (path : Text) :
    GainsDirectories (fun up => up = path ∨ Path.IsAbove up path) disk
      (disk.makeDirectories path).1 := by
  refine makeDirectories_induction disk path (.refl _ disk) fun among made gained => ?_
  refine gained.trans ((gainsDirectories_makeDirectory made).mono ?_)
  rintro _ rfl
  exact among

end LabelledEnum.Disk
