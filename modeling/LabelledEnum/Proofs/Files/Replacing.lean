import LabelledEnum.Proofs.Files.Saving

/-!
# What saving with permission replaces

A file on the disk can hold any bytes, and the content of a code file is a text. They are compared as texts, so
a file whose bytes are no text can be neither compared nor replaced.

* `CodeFile.makeWay_of_readBytes`: on the way to a file that is there, nothing has to be made.
* `CodeFile.Replaces`: a file on the disk gives way to a code file.
* `CodeFile.replaces_iff_text`: it does exactly if its bytes are a text.
* `CodeFile.not_every_file_replaced`: bytes that are no text stay, whatever is permitted.
-/

namespace LabelledEnum.CodeFile

variable {file : CodeFile} {disk : Disk} {bytes : ByteArray}

/-- The file on `disk` that holds `bytes` gives way to the code file. -/
structure Replaces (file : CodeFile) (disk : Disk) (bytes : ByteArray) : Prop where
  /-- Bytes of the content are left alone, and other bytes are to be replaced. -/
  foretold : file.operation disk =
    .ok (if bytes = Text.encode file.content then .unchanged else .overwrite)
  /-- Saving with permission does just that. -/
  result_eq : (file.save disk true).result = file.operation disk
  /-- Then the path leads to the bytes of the content. -/
  content : (file.save disk true).disk.readBytes file.path = .ok (Text.encode file.content)

/-! ## Bytes of a text -/

/-- The directories on the way to a file that can be read at `file.path` are there, too. -/
theorem makeWay_of_readBytes (read : disk.readBytes file.path = .ok bytes) :
    file.makeWay disk = (disk, none) := by
  obtain ⟨parent, name, located, -, -⟩ := Disk.readBytes_eq_ok_iff.1 read
  unfold makeWay
  split
  · rfl
  · next up above =>
    have nothing : disk.makeDirectories up = (disk, none) := by
      by_cases filled : up = []
      · rw [filled, Disk.makeDirectories]
        exact if_pos rfl
      · exact Disk.makeDirectories_of_isDirectory
          (Disk.isDirectory_of_isAbove (Path.isAbove_of_parent? above) filled located)
    rw [nothing]
    rfl

/-- A `text` on the disk is compared with the content byte by byte. -/
theorem operation_of_readBytes {text : Text}
    (read : disk.readBytes file.path = .ok (Text.encode text)) :
    file.operation disk =
      .ok (if Text.encode text = Text.encode file.content then .unchanged else .overwrite) := by
  have readable : disk.readText file.path = .ok text := Disk.readText_eq_ok_iff.2 read
  split
  · next same =>
    rw [Text.encode_inj.1 same] at readable
    exact operation_eq_unchanged_iff.2 readable
  · next other =>
    exact operation_eq_overwrite_iff.2
      ⟨text, readable, fun same => other (congrArg Text.encode same)⟩

/-- With permission, another text on `disk` is replaced, since its file can be written. -/
theorem save_of_overwrite (foretold : file.operation disk = .ok .overwrite) :
    ∃ written, file.save disk true =
        ⟨written, .ok .overwrite, [.wrote file.path .overwrite]⟩ ∧
      written.readBytes file.path = .ok (Text.encode file.content) := by
  obtain ⟨text, readable, -⟩ := operation_eq_overwrite_iff.1 foretold
  have read := Disk.readText_eq_ok_iff.1 readable
  obtain ⟨written, done⟩ := Disk.exists_write_of_readBytes read (Text.encode file.content)
  refine ⟨written, ?_, Disk.readBytes_of_write done⟩
  rw [save, foretold]
  simp only [if_true, put, makeWay_of_readBytes read, done]

/-- A `text` on the disk gives way to the code file, whether or not it is the content. -/
theorem replaces_of_text {text : Text} (read : disk.readBytes file.path = .ok (Text.encode text)) :
    file.Replaces disk (Text.encode text) := by
  have foretold := operation_of_readBytes read
  by_cases same : Text.encode text = Text.encode file.content
  · rw [if_pos same] at foretold
    have saving : file.save disk true = ⟨disk, .ok .unchanged, [.skipped file.path]⟩ := by
      rw [save, foretold]
    exact {
      foretold := by rw [foretold, if_pos same]
      result_eq := by rw [saving, foretold]
      content := by rw [saving, read, same] }
  · rw [if_neg same] at foretold
    obtain ⟨written, saving, content⟩ := save_of_overwrite foretold
    exact {
      foretold := by rw [foretold, if_neg same]
      result_eq := by rw [saving, foretold]
      content := by rw [saving, content] }

/-! ## Other bytes -/

/-- Where `bytes` are no text, they cannot be compared with the content. -/
theorem existing?_of_no_text (read : disk.readBytes file.path = .ok bytes)
    (noText : ¬∃ text, bytes = Text.encode text) :
    file.existing? disk = .error (.disk file.path .notText) := by
  have undecoded : Text.decode? bytes = none := by
    rw [Option.eq_none_iff_forall_ne_some]
    exact fun text found => noText ⟨text, Text.decode?_eq_some_iff.1 found⟩
  have unreadable : disk.readText file.path = .error .notText := by
    simp only [Disk.readText, read, bind, Except.bind, undecoded]
  rw [existing?, unreadable]

/-- A file on `disk` gives way to a code file exactly if its `bytes` are a text. Otherwise the comparison fails,
and so does saving, with permission or without: the disk stays as it is and nothing is reported. -/
theorem replaces_iff_text (read : disk.readBytes file.path = .ok bytes) :
    (file.Replaces disk bytes ↔ ∃ text, bytes = Text.encode text) ∧
      ((¬∃ text, bytes = Text.encode text) →
        file.operation disk = .error (.disk file.path .notText) ∧
          ∀ overwrite, file.save disk overwrite =
            ⟨disk, .error (.disk file.path .notText), []⟩) := by
  have refused : (¬∃ text, bytes = Text.encode text) →
      file.operation disk = .error (.disk file.path .notText) := fun noText =>
    operation_eq_error_iff.2 (existing?_of_no_text read noText)
  constructor
  · constructor
    · intro replaced
      by_contra noText
      cases (refused noText).symm.trans replaced.foretold
    · rintro ⟨text, rfl⟩
      exact replaces_of_text read
  · intro noText
    refine ⟨refused noText, fun overwrite => ?_⟩
    rw [save, refused noText]

/-- A text with a mark of its byte order and other line ends is replaced, along a path that turns back. -/
theorem replaces_iff_text_marked :
    let file : CodeFile := ⟨"./../work//Plan.php", "<?php\n"⟩
    let bytes := Text.encode "\ufeff<?php\r\n"
    let disk := Disk.fresh.put ["Plan.php", "work"] (.file bytes)
    disk.readBytes file.path = .ok bytes ∧ file.Replaces disk bytes := by
  intro file bytes disk
  have read : disk.readBytes file.path = .ok bytes := by decide +kernel
  exact ⟨read, (replaces_iff_text read).1.2 ⟨_, rfl⟩⟩

/-- A file with a byte that begins no character is not replaced. -/
theorem not_every_file_replaced :
    ¬∀ (file : CodeFile) (disk : Disk) (bytes : ByteArray),
      disk.readBytes file.path = .ok bytes → file.Replaces disk bytes := by
  intro every
  have replaced := every ⟨"Plan.php", "<?php\n"⟩
    (Disk.fresh.put ["Plan.php", "work"] (.file ⟨#[0xff, 0x0a]⟩)) ⟨#[0xff, 0x0a]⟩ (by decide +kernel)
  have refused : CodeFile.operation ⟨"Plan.php", "<?php\n"⟩
      (Disk.fresh.put ["Plan.php", "work"] (.file ⟨#[0xff, 0x0a]⟩)) =
        .error (.disk "Plan.php" .notText) := by decide +kernel
  cases refused.symm.trans replaced.foretold

end LabelledEnum.CodeFile
