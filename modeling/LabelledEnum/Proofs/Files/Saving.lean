import LabelledEnum.Files.CodeFile
import LabelledEnum.Proofs.Files.Access

/-!
# What saving a file does to a disk

Saving reads, decides, makes the directories on the way and writes, and it can end after each of these
steps.

* `CodeFile.operation_eq_unchanged_iff`, `CodeFile.operation_eq_create_iff`,
  `CodeFile.operation_eq_overwrite_iff`: what is decided by what can be read.
* `CodeFile.save_cases`, `CodeFile.put_cases`: the ways in which saving can end.
* `CodeFile.Saved`, `CodeFile.Refused`: all that a saving that succeeds, and one that fails, does.
* `CodeFile.saved_or_refused`: every saving is one of the two.
-/

namespace LabelledEnum.CodeFile

variable {file : CodeFile} {disk : Disk} {overwrite : Bool} {operation : Operation}

/-! ## The decision -/

/-- A `text` is found exactly where it can be read. -/
theorem existing?_eq_some_iff {text : Text} :
    file.existing? disk = .ok (some text) ↔ disk.readText file.path = .ok text := by
  unfold existing?
  split
  · next found => simp [found]
  · next missing => simp [missing]
  · next fault _ failed => simp [failed]

/-- Nothing is found exactly where a name on `file.path` leads nowhere. Every other fault is reported. -/
theorem existing?_eq_none_iff :
    file.existing? disk = .ok none ↔ disk.readText file.path = .error .missing := by
  unfold existing?
  split
  · next found => simp [found]
  · next missing => simp [missing]
  · next fault different failed => simpa [failed] using different

/-- The decision is `unchanged` exactly if the content has been found. -/
theorem operationOn_eq_unchanged_iff {found : Option Text} :
    file.operationOn found = .unchanged ↔ found = some file.content := by
  cases found with
  | none => simp [operationOn]
  | some text => by_cases same : text = file.content <;> simp [operationOn, same]

/-- The decision is `create` exactly if nothing has been found. -/
theorem operationOn_eq_create_iff {found : Option Text} :
    file.operationOn found = .create ↔ found = none := by
  cases found with
  | none => simp [operationOn]
  | some text => by_cases same : text = file.content <;> simp [operationOn, same]

/-- The decision is `overwrite` exactly if another text than the content has been found. -/
theorem operationOn_eq_overwrite_iff {found : Option Text} :
    file.operationOn found = .overwrite ↔ ∃ text, found = some text ∧ text ≠ file.content := by
  cases found with
  | none => simp [operationOn]
  | some text => by_cases same : text = file.content <;> simp [operationOn, same]

/-- For `file`, nothing is to be done exactly where the content can be read. -/
theorem operation_eq_unchanged_iff :
    file.operation disk = .ok .unchanged ↔ disk.readText file.path = .ok file.content := by
  rw [operation, Except.map_eq_ok_iff, ← existing?_eq_some_iff]
  simp only [operationOn_eq_unchanged_iff, exists_eq_right]

/-- For `file`, `create` is to be done exactly where a name on the path leads nowhere. -/
theorem operation_eq_create_iff :
    file.operation disk = .ok .create ↔ disk.readText file.path = .error .missing := by
  rw [operation, Except.map_eq_ok_iff, ← existing?_eq_none_iff]
  simp only [operationOn_eq_create_iff, exists_eq_right]

/-- For `file`, `overwrite` is to be done exactly where another content can be read. -/
theorem operation_eq_overwrite_iff :
    file.operation disk = .ok .overwrite ↔
      ∃ text, disk.readText file.path = .ok text ∧ text ≠ file.content := by
  simp only [operation, Except.map_eq_ok_iff, ← existing?_eq_some_iff, operationOn_eq_overwrite_iff]
  constructor
  · rintro ⟨_, existing, text, rfl, other⟩
    exact ⟨text, existing, other⟩
  · rintro ⟨text, existing, other⟩
    exact ⟨_, existing, text, rfl, other⟩

/-- No decision is made exactly where the path of `file` cannot be read, and for the same reason. -/
theorem operation_eq_error_iff {failure : Failure} :
    file.operation disk = .error failure ↔ file.existing? disk = .error failure :=
  Except.map_eq_error_iff

/-- Where the content of `file` can be read, there is no diff. -/
theorem diff?_eq_none (read : disk.readText file.path = .ok file.content) :
    file.diff? disk = .ok none := by
  rw [diff?, existing?_eq_some_iff.2 read]
  simp [Except.map, lineDiff?]

/-! ## The ways in which saving can end -/

/-- Making the way adds only directories named by paths above `file.path`. -/
theorem gainsDirectories_makeWay (file : CodeFile) (disk : Disk) :
    Disk.GainsDirectories (Path.IsAbove · file.path) disk (file.makeWay disk).1 := by
  unfold makeWay
  split
  · exact .refl _ disk
  · next up parent =>
    have above := Path.isAbove_of_parent? parent
    refine (Disk.gainsDirectories_makeDirectories disk up).mono fun top among => ?_
    rcases among with rfl | higher
    · exact above
    · exact higher.trans above

/-- What `put` does ends when the way cannot be made, when the file cannot be written, or when it has been
written. -/
theorem put_cases (file : CodeFile) (disk : Disk) (operation : Operation) :
    (∃ failure, (file.makeWay disk).2 = some failure ∧
      file.put disk operation = ⟨(file.makeWay disk).1, .error failure, []⟩) ∨
    (∃ fault, (file.makeWay disk).2 = none ∧
      (file.makeWay disk).1.write file.path (Text.encode file.content) = .error fault ∧
      file.put disk operation = ⟨(file.makeWay disk).1, .error (.disk file.path fault), []⟩) ∨
    ∃ written, (file.makeWay disk).2 = none ∧
      (file.makeWay disk).1.write file.path (Text.encode file.content) = .ok written ∧
      file.put disk operation = ⟨written, .ok operation, [.wrote file.path operation]⟩ := by
  unfold put
  split
  · next way failure blocked => exact .inl ⟨failure, by simp [blocked]⟩
  · next way made =>
    split
    · next fault failed => exact .inr (.inl ⟨fault, by simp [made, failed]⟩)
    · next written done => exact .inr (.inr ⟨written, by simp [made, done]⟩)

/-- What `save` does ends when the path cannot be read, when the content is there already, when another content
is there and may not be replaced, and else as `put` ends. -/
theorem save_cases (file : CodeFile) (disk : Disk) (overwrite : Bool) :
    (∃ failure, file.operation disk = .error failure ∧
      file.save disk overwrite = ⟨disk, .error failure, []⟩) ∨
    (file.operation disk = .ok .unchanged ∧
      file.save disk overwrite = ⟨disk, .ok .unchanged, [.skipped file.path]⟩) ∨
    (file.operation disk = .ok .overwrite ∧ overwrite = false ∧
      file.save disk overwrite = ⟨disk, .error (.wouldOverwrite file.path), []⟩) ∨
    ∃ operation, file.operation disk = .ok operation ∧
      (operation = .create ∨ operation = .overwrite ∧ overwrite = true) ∧
      file.save disk overwrite = file.put disk operation := by
  unfold save
  split
  · next failure unread => exact .inl ⟨failure, unread, rfl⟩
  · next same => exact .inr (.inl ⟨same, rfl⟩)
  · next other =>
    cases overwrite with
    | false => exact .inr (.inr (.inl ⟨other, rfl, rfl⟩))
    | true => exact .inr (.inr (.inr ⟨.overwrite, other, .inr ⟨rfl, rfl⟩, rfl⟩))
  · next missing => exact .inr (.inr (.inr ⟨.create, missing, .inl rfl, rfl⟩))

/-! ## Success and failure -/

/-- A `saving` of `file` that succeeds with `operation`, from the disk `before`. -/
structure Saved (file : CodeFile) (before : Disk) (saving : Saving) (operation : Operation) :
    Prop where
  /-- What was done is the `operation` that the preview says. -/
  foretold : file.operation before = .ok operation
  /-- The path leads to the content. -/
  content : saving.disk.readBytes file.path = .ok (Text.encode file.content)
  /-- Relative paths start from the same place. -/
  here_eq : saving.disk.here = before.here
  /-- A place holds what it held, or it is that of the file and held nothing or a file, or it held nothing
  and holds a directory named by a path above the file. -/
  node?_eq : ∀ place, saving.disk.node? place = before.node? place ∨
    (saving.disk.placeOf file.path = .ok place ∧
      saving.disk.node? place = some (.file (Text.encode file.content)) ∧
      (before.node? place = none ∨ ∃ old, before.node? place = some (.file old))) ∨
    before.node? place = none ∧ saving.disk.node? place = some .directory ∧
      ∃ up, Path.IsAbove up file.path ∧ saving.disk.placeOf up = .ok place
  /-- What was done was nothing only if the disk is the one `before`. -/
  disk_eq : operation = .unchanged → saving.disk = before
  /-- Nothing is left to be done. -/
  operation_after : file.operation saving.disk = .ok .unchanged
  /-- No difference is left to be shown. -/
  diff?_after : file.diff? saving.disk = .ok none
  /-- Saving the file again, with or without `overwrite`, leaves the disk alone. -/
  save_after : ∀ overwrite,
    file.save saving.disk overwrite = ⟨saving.disk, .ok .unchanged, [.skipped file.path]⟩
  /-- There is one event, which says what was done. -/
  log_eq : saving.log =
    [if operation = .unchanged then .skipped file.path else .wrote file.path operation]
  /-- A file that was written is a result, and one that was left alone is a step of the work. -/
  level_eq : saving.log.map Event.level = [if operation = .unchanged then .debug else .info]

/-- A `saving` of `file` that fails with `failure`, from the disk `before`. -/
structure Refused (file : CodeFile) (before : Disk) (overwrite : Bool) (saving : Saving)
    (failure : Failure) : Prop where
  /-- The path cannot be read, another content may not be replaced, the directories on the way cannot be
  made, or the file cannot be written. -/
  cause : file.existing? before = .error failure ∨
    (file.operation before = .ok .overwrite ∧ overwrite = false ∧
      failure = .wouldOverwrite file.path) ∨
    (file.makeWay before).2 = some failure ∨
    ∃ fault, (file.makeWay before).2 = none ∧ failure = .disk file.path fault ∧
      (file.makeWay before).1.write file.path (Text.encode file.content) = .error fault
  /-- All that can be new is directories named by paths above `file.path`. -/
  gains : Disk.GainsDirectories (Path.IsAbove · file.path) before saving.disk
  /-- The files are those that were there, with their bytes. -/
  files_eq : ∀ place bytes,
    saving.disk.node? place = some (.file bytes) ↔ before.node? place = some (.file bytes)
  /-- Nothing is new if the path cannot be read or another content may not be replaced. -/
  disk_eq : file.existing? before = .error failure ∨ failure = .wouldOverwrite file.path →
    saving.disk = before
  /-- There is no event. -/
  log_eq : saving.log = []

/-- Once the path of `file` leads to the content, nothing is left to be done. -/
private theorem settled (read : disk.readBytes file.path = .ok (Text.encode file.content)) :
    file.operation disk = .ok .unchanged ∧ file.diff? disk = .ok none ∧
      ∀ overwrite, file.save disk overwrite = ⟨disk, .ok .unchanged, [.skipped file.path]⟩ := by
  have text := Disk.readText_eq_ok_iff.2 read
  have same := operation_eq_unchanged_iff.2 text
  refine ⟨same, diff?_eq_none text, fun overwrite => ?_⟩
  rw [save, same]

private theorem saved_of_unchanged (same : file.operation disk = .ok .unchanged) :
    Saved file disk ⟨disk, .ok .unchanged, [.skipped file.path]⟩ .unchanged := by
  have read := Disk.readText_eq_ok_iff.1 (operation_eq_unchanged_iff.1 same)
  obtain ⟨operation_after, diff?_after, save_after⟩ := settled read
  exact {
    foretold := same
    content := read
    here_eq := rfl
    node?_eq := fun place => .inl rfl
    disk_eq := fun _ => rfl
    operation_after
    diff?_after
    save_after
    log_eq := rfl
    level_eq := rfl }

private theorem saved_of_write {written : Disk} (foretold : file.operation disk = .ok operation)
    (changes : operation ≠ .unchanged)
    (done : (file.makeWay disk).1.write file.path (Text.encode file.content) = .ok written) :
    Saved file disk ⟨written, .ok operation, [.wrote file.path operation]⟩ operation := by
  have way := gainsDirectories_makeWay file disk
  have read := Disk.readBytes_of_write done
  obtain ⟨operation_after, diff?_after, save_after⟩ := settled read
  have kept := Disk.keepsDirectories_of_write done
  obtain ⟨parent, name, located, -, stood, rfl⟩ := Disk.write_eq_ok done
  refine {
    foretold
    content := read
    here_eq := way.here_eq
    node?_eq := fun place => ?_
    disk_eq := fun same => absurd same changes
    operation_after
    diff?_after
    save_after
    log_eq := by simp [changes]
    level_eq := by simp [changes, Event.level] }
  -- only the place of the file and those of the way can have changed
  by_cases here : place = name :: parent
  · subst here
    refine .inr (.inl ⟨Disk.placeOf_of_locate (kept.locate located),
      Disk.node?_put_self (List.cons_ne_nil _ _), ?_⟩)
    cases stands : disk.node? (name :: parent) with
    | none => exact .inl rfl
    | some node =>
      obtain ⟨old, rfl⟩ := stood node (way.node?_of_some stands)
      exact .inr ⟨old, rfl⟩
  · simp only [Disk.node?_put_of_ne here]
    rcases way.node?_eq place with same | ⟨nothing, made, up, above, named⟩
    · exact .inl same
    · exact .inr (.inr ⟨nothing, made, up, above, kept.placeOf named⟩)

private theorem failure_of_makeWay {failure : Failure} (h : (file.makeWay disk).2 = some failure) :
    ∃ up fault, failure = .disk up fault := by
  unfold makeWay at h
  split at h
  · cases h
  · next up _ =>
    obtain ⟨fault, -, same⟩ := Option.map_eq_some_iff.1 h
    exact ⟨up, fault, same.symm⟩

private theorem refused_of_early {failure : Failure}
    (cause : file.existing? disk = .error failure ∨
      (file.operation disk = .ok .overwrite ∧ overwrite = false ∧
        failure = .wouldOverwrite file.path)) :
    Refused file disk overwrite ⟨disk, .error failure, []⟩ failure where
  cause := cause.imp_right .inl
  gains := .refl _ disk
  files_eq _ _ := Iff.rfl
  disk_eq _ := rfl
  log_eq := rfl

private theorem refused_of_late {path : Text} {fault : DiskFault}
    (foretold : file.operation disk = .ok operation)
    (cause : (file.makeWay disk).2 = some (.disk path fault) ∨
      ∃ last, (file.makeWay disk).2 = none ∧ Failure.disk path fault = .disk file.path last ∧
        (file.makeWay disk).1.write file.path (Text.encode file.content) = .error last) :
    Refused file disk overwrite ⟨(file.makeWay disk).1, .error (.disk path fault), []⟩
      (.disk path fault) where
  cause := .inr (.inr cause)
  gains := gainsDirectories_makeWay file disk
  files_eq _ _ := (gainsDirectories_makeWay file disk).file_iff
  disk_eq early := by
    -- the path was read, and a fault of the disk is no refusal
    rcases early with unread | refusal
    · rw [← operation_eq_error_iff, foretold] at unread
      cases unread
    · cases refusal
  log_eq := rfl

/-- Every saving of `file` on `disk` succeeds, and then the file and directories on the way to it are all that
is new, or it fails, and then such directories are. -/
theorem saved_or_refused (file : CodeFile) (disk : Disk) (overwrite : Bool) :
    match (file.save disk overwrite).result with
    | .ok operation => Saved file disk (file.save disk overwrite) operation
    | .error failure => Refused file disk overwrite (file.save disk overwrite) failure := by
  rcases file.save_cases disk overwrite with
    ⟨failure, unread, saving⟩ | ⟨same, saving⟩ | ⟨other, denied, saving⟩ |
      ⟨operation, foretold, permitted, saving⟩
  · rw [saving]
    exact refused_of_early (.inl (operation_eq_error_iff.1 unread))
  · rw [saving]
    exact saved_of_unchanged same
  · rw [saving]
    exact refused_of_early (.inr ⟨other, denied, rfl⟩)
  · -- the file is to be written, which can fail on the way or at the end
    rcases file.put_cases disk operation with
      ⟨failure, blocked, put⟩ | ⟨fault, made, failed, put⟩ | ⟨written, made, done, put⟩
    · rw [saving, put]
      obtain ⟨up, fault, rfl⟩ := failure_of_makeWay blocked
      exact refused_of_late foretold (.inl blocked)
    · rw [saving, put]
      exact refused_of_late foretold (.inr ⟨fault, made, rfl, failed⟩)
    · rw [saving, put]
      refine saved_of_write foretold ?_ done
      rcases permitted with rfl | ⟨rfl, -⟩ <;> intro same <;> cases same

end LabelledEnum.CodeFile
