import LabelledEnum.Proofs.Files.Diff
import LabelledEnum.Proofs.Files.Saving
import LabelledEnum.Proofs.Source.EnumClass

/-!
# What a preview shows

Before a file is saved it can be asked what saving would come to and which lines would change. Both are
decided by what can be read at the path, the one by the whole text and the other line by line.

* `Diff.IsMarked`, `Diff.exists_isMarked_iff`: whether a diff shows any line.
* `CodeFile.operation_and_diff_agree`: both fail in the same way, and there is a diff unless nothing is to be
  done.
* `CodeFile.overwrite_shown_iff`: where a text is to be replaced, the diff shows a line exactly if the lines
  of the text are others than those of the content.
* `CodeFile.not_every_overwrite_shown`: texts that differ in how their lines end.
-/

namespace LabelledEnum

namespace Diff

variable {olds news : List Text}

/-! ## Marked lines -/

/-- The `line` of a diff begins as one that shows a line of one of the texts. -/
def IsMarked (line : Text) : Prop := line.head? = some '-' ∨ line.head? = some '+'

/-- The line that shows `change` begins with its sign and digits behind spaces. -/
theorem Change.isMarked_text (change : Change) : IsMarked change.text := by
  obtain ⟨side, number, line⟩ := change
  cases side
  · exact .inl rfl
  · exact .inr rfl

/-- A diff has a line that `IsMarked` exactly if the lines `olds` and `news` are not the same. -/
theorem exists_isMarked_iff (whole : ∀ line ∈ olds ++ news, '\n' ∉ line) :
    (∃ line ∈ (ofLines 1 olds news).splitOn '\n', IsMarked line) ↔ olds ≠ news := by
  rw [splitOn_ofLines whole, Ne, ← changes_eq_nil_iff]
  constructor
  · rintro ⟨line, member, marked⟩ none
    -- the text after the last line feed is empty
    rw [none, List.map_nil, List.nil_append, List.mem_singleton] at member
    subst member
    rcases marked with marked | marked <;> cases marked
  · intro some
    obtain ⟨change, rest, listed⟩ := List.exists_cons_of_ne_nil some
    refine ⟨change.text, ?_, change.isMarked_text⟩
    rw [listed]
    exact List.mem_append_left _ List.mem_cons_self

end Diff

namespace CodeFile

variable {file : CodeFile} {disk : Disk}

/-! ## The decision and the diff -/

/-- The diff of `file` is that of its content and what was read, where a missing file counts as empty. -/
theorem diff?_eq_ok_iff {diff : Option Text} :
    file.diff? disk = .ok diff ↔
      ∃ existing, file.existing? disk = .ok existing ∧
        lineDiff? (existing.getD []) file.content = diff :=
  Except.map_eq_ok_iff

/-- Only what prevents reading the path of `file` prevents the diff. -/
theorem diff?_eq_error_iff {failure : Failure} :
    file.diff? disk = .error failure ↔ file.existing? disk = .error failure :=
  Except.map_eq_error_iff

/-- A class is never rendered as the empty text, and for a file whose content is not empty `operation` and
`diff?` both fail in the same way, or there is no diff exactly if nothing is to be done. If the file is to be
made, the diff consists of the lines of the content, each behind a plus sign and its number. -/
theorem operation_and_diff_agree :
    (∀ (style : Style) (request : CheckedRequest) (constants : List Constant),
        EnumClass.source style request constants ≠ []) ∧
      ∀ (file : CodeFile) (disk : Disk), file.content ≠ [] →
        (∃ failure, file.operation disk = .error failure ∧ file.diff? disk = .error failure) ∨
        ∃ operation diff, file.operation disk = .ok operation ∧ file.diff? disk = .ok diff ∧
          (diff = none ↔ operation = .unchanged) ∧
          (operation = .create → ∃ text, diff = some text ∧
            text.splitOn '\n' = (file.content.lines.mapIdx fun place line =>
              '+' :: ((Text.ofNat (place + 1)).alignRight 4 ++ " | " ++ line)) ++ [[]]) := by
  refine ⟨EnumClass.source_ne_nil, fun file disk filled => ?_⟩
  cases existing : file.existing? disk with
  | error failure =>
    exact .inl ⟨failure, operation_eq_error_iff.2 existing, diff?_eq_error_iff.2 existing⟩
  | ok found =>
    refine .inr ⟨_, _, Except.map_eq_ok_iff.2 ⟨found, existing, rfl⟩,
      diff?_eq_ok_iff.2 ⟨found, existing, rfl⟩, ?_, fun create => ?_⟩
    · rw [lineDiff?_eq_none_iff, operationOn_eq_unchanged_iff]
      cases found with
      -- a missing file counts as an empty text, and the content is not empty
      | none => exact iff_of_false filled.symm (Option.some_ne_none _).symm
      | some text => exact Option.some_inj.symm
    · obtain rfl := operationOn_eq_create_iff.1 create
      have whole : ∀ line ∈ [] ++ file.content.lines, '\n' ∉ line :=
        fun line member => Text.newline_notMem_of_mem_lines member
      refine ⟨_, lineDiff?_of_ne filled.symm, ?_⟩
      rw [Option.getD_none, show Text.lines [] = [] from rfl, Diff.splitOn_ofLines whole, Diff.changes,
        Diff.map_text_changesFrom_nil]
      simp only [Nat.add_comm 1]
      rfl

/-- The diff of a file that is to be made has its lines with their numbers, without the carriage return at the
end of one and with an empty one among them. -/
theorem operation_and_diff_agree_on_missing :
    let file : CodeFile := ⟨"models/Plan.php", "<?php\r\n\nclass Plan"⟩
    file.content ≠ [] ∧ file.operation .fresh = .ok .create ∧
      ∃ text, file.diff? .fresh = .ok (some text) ∧ text.splitOn '\n' =
        ["+   1 | <?php".toList, "+   2 | ".toList, "+   3 | class Plan".toList, []] := by
  intro file
  have filled : file.content ≠ [] := by decide
  have create : file.operation .fresh = .ok .create := by decide +kernel
  refine ⟨filled, create, ?_⟩
  rcases operation_and_diff_agree.2 file .fresh filled with
    ⟨failure, failed, -⟩ | ⟨operation, diff, decided, shown, -, made⟩
  · cases create.symm.trans failed
  · cases create.symm.trans decided
    obtain ⟨text, rfl, lines⟩ := made rfl
    exact ⟨text, shown, lines⟩

/-! ## Replaced texts -/

/-- Where a text is to be replaced by `file` there is a diff, and it shows a line exactly if the lines of the
text are others than those of the content. -/
theorem overwrite_shown_iff (foretold : file.operation disk = .ok .overwrite) :
    ∃ text diff, disk.readText file.path = .ok text ∧ file.diff? disk = .ok (some diff) ∧
      ((∃ line ∈ diff.splitOn '\n', Diff.IsMarked line) ↔ text.lines ≠ file.content.lines) := by
  obtain ⟨text, read, other⟩ := operation_eq_overwrite_iff.1 foretold
  refine ⟨text, _, read, ?_, Diff.exists_isMarked_iff fun _ => Diff.newline_notMem_of_mem_lines⟩
  exact diff?_eq_ok_iff.2 ⟨some text, existing?_eq_some_iff.2 read, lineDiff?_of_ne other⟩

/-- A line that has been added by hand is shown. -/
theorem overwrite_shown_iff_edited :
    let file : CodeFile := ⟨"Plan.php", "<?php\n"⟩
    let disk := Disk.fresh.put ["Plan.php", "work"] (.file (Text.encode "<?php\n// edited\n"))
    file.operation disk = .ok .overwrite ∧
      ∃ diff, file.diff? disk = .ok (some diff) ∧ ∃ line ∈ diff.splitOn '\n', Diff.IsMarked line := by
  intro file disk
  have foretold : file.operation disk = .ok .overwrite := by decide +kernel
  obtain ⟨text, diff, read, shown, marked⟩ := overwrite_shown_iff foretold
  have stands : disk.readText file.path = .ok ("<?php\n// edited\n" : Text) := by decide +kernel
  cases read.symm.trans stands
  exact ⟨foretold, diff, shown, marked.2 (by decide)⟩

/-- Where the text on the disk differs from the content only in how its lines end, it is to be replaced and
the diff shows nothing. -/
theorem not_every_overwrite_shown :
    ¬∀ (file : CodeFile) (disk : Disk), file.operation disk = .ok .overwrite →
      ∃ diff, file.diff? disk = .ok (some diff) ∧
        ∃ line ∈ diff.splitOn '\n', Diff.IsMarked line := by
  intro every
  obtain ⟨diff, shown, line, member, marked⟩ := every ⟨"Plan.php", "<?php\n"⟩
    (Disk.fresh.put ["Plan.php", "work"] (.file (Text.encode "<?php\r\n"))) (by decide +kernel)
  have empty : CodeFile.diff? ⟨"Plan.php", "<?php\n"⟩
      (Disk.fresh.put ["Plan.php", "work"] (.file (Text.encode "<?php\r\n"))) =
        .ok (some []) := by decide +kernel
  cases shown.symm.trans empty
  rw [List.splitOn_nil, List.mem_singleton] at member
  subst member
  rcases marked with marked | marked <;> cases marked

end CodeFile

end LabelledEnum
