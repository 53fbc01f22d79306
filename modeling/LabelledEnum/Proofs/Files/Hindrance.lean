import LabelledEnum.Proofs.Files.Saving

/-!
# What the result of saving says

* `CodeFile.Hindrance`: why a file that could be compared with the disk cannot be saved.
* `CodeFile.of_result_eq_ok`: saving that succeeds does what the comparison says, and then the path leads
  to the content.
* `CodeFile.of_result_eq_error`: saving that fails finds nothing to compare with or meets a hindrance, and
  keeps the files.
-/

namespace LabelledEnum.CodeFile

variable {file : CodeFile} {disk : Disk} {overwrite : Bool} {operation : Operation} {failure : Failure}

/-- Why `file` cannot be saved, although it can be compared with what is on `disk`. -/
inductive Hindrance (file : CodeFile) (disk : Disk) (overwrite : Bool) : Failure → Prop
  /-- Another content is there, and `overwrite` does not allow to replace it. -/
  | denied (other : file.operation disk = .ok .overwrite) (denied : overwrite = false) :
      Hindrance file disk overwrite (.wouldOverwrite file.path)
  /-- A directory on the way cannot be made, because of `failure`. -/
  | way {failure : Failure} (blocked : (file.makeWay disk).2 = some failure) :
      Hindrance file disk overwrite failure
  /-- At the end of the way the file cannot be written, because of `fault`. -/
  | content {fault : DiskFault} (made : (file.makeWay disk).2 = none)
      (failed : (file.makeWay disk).1.write file.path (Text.encode file.content) = .error fault) :
      Hindrance file disk overwrite (.disk file.path fault)

/-- A saving that succeeds with `operation` has done what was foretold, and the path leads to the content. -/
theorem of_result_eq_ok (saved : (file.save disk overwrite).result = .ok operation) :
    file.operation disk = .ok operation ∧
      (file.save disk overwrite).disk.readBytes file.path = .ok (Text.encode file.content) := by
  -- only a file that is left alone and one that has been written are ends in a success
  rcases file.save_cases disk overwrite with
    ⟨failure, -, saving⟩ | ⟨same, saving⟩ | ⟨-, -, saving⟩ | ⟨planned, foretold, -, saving⟩
  · rw [saving] at saved
    cases saved
  · -- what was read before is still there
    rw [saving] at saved ⊢
    cases saved
    exact ⟨same, Disk.readText_eq_ok_iff.1 (operation_eq_unchanged_iff.1 same)⟩
  · rw [saving] at saved
    cases saved
  · rcases file.put_cases disk planned with
      ⟨failure, -, put⟩ | ⟨fault, -, -, put⟩ | ⟨written, -, done, put⟩
    · rw [saving, put] at saved
      cases saved
    · rw [saving, put] at saved
      cases saved
    · rw [saving, put] at saved ⊢
      cases saved
      exact ⟨foretold, Disk.readBytes_of_write done⟩

/-- A saving that fails with `failure` failed already in the comparison, or meets a `Hindrance`. In both cases
the files are those that were there. -/
theorem of_result_eq_error (failed : (file.save disk overwrite).result = .error failure) :
    (file.operation disk = .error failure ∨
      ∃ operation, file.operation disk = .ok operation ∧ file.Hindrance disk overwrite failure) ∧
    ∀ place bytes, (file.save disk overwrite).disk.node? place = some (.file bytes) ↔
      disk.node? place = some (.file bytes) := by
  -- on the way to the file only directories are made
  have way := gainsDirectories_makeWay file disk
  rcases file.save_cases disk overwrite with
    ⟨reason, unread, saving⟩ | ⟨-, saving⟩ | ⟨other, denied, saving⟩ |
      ⟨planned, foretold, -, saving⟩
  · rw [saving] at failed ⊢
    cases failed
    exact ⟨.inl unread, fun _ _ => Iff.rfl⟩
  · rw [saving] at failed
    cases failed
  · rw [saving] at failed ⊢
    cases failed
    exact ⟨.inr ⟨_, other, .denied other denied⟩, fun _ _ => Iff.rfl⟩
  · rcases file.put_cases disk planned with
      ⟨reason, blocked, put⟩ | ⟨fault, made, refused, put⟩ | ⟨written, -, -, put⟩
    · rw [saving, put] at failed ⊢
      cases failed
      exact ⟨.inr ⟨planned, foretold, .way blocked⟩, fun _ _ => way.file_iff⟩
    · rw [saving, put] at failed ⊢
      cases failed
      exact ⟨.inr ⟨planned, foretold, .content made refused⟩, fun _ _ => way.file_iff⟩
    · rw [saving, put] at failed
      cases failed

/-- When the path of `file` cannot be read, saving fails for the same reason. -/
theorem save_eq_of_existing? (unread : file.existing? disk = .error failure) :
    file.save disk overwrite = ⟨disk, .error failure, []⟩ := by
  rw [save, operation_eq_error_iff.2 unread]

end LabelledEnum.CodeFile
