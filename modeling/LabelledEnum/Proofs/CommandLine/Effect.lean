import LabelledEnum.Proofs.CommandLine.Endings

/-!
# What the program does to a disk

All that a run of the program does to the disk is saving one file, and most runs do not come to that.

* `GenerateOptions.deliveredFile?`, `GenerateOptions.savedFile?`, `savedFile?`:
  the file that is saved, if it comes to that.
* `permits`: whether another content may be replaced.
* `GenerateOptions.disk_run`, `disk_run`: the disk after the command and after the program.
-/

namespace LabelledEnum.CommandLine

/-- The file that is saved once the class has its place for `file`: none in a dry run or if the preview
fails. -/
def GenerateOptions.deliveredFile? (options : GenerateOptions) (disk : Disk) (file : CodeFile) :
    Option CodeFile :=
  match options.preview disk file with
  | .error _ => none
  | .ok _ => if options.dryRun then none else some file

/-- The file that making the class saves: none if the request of `options` is rejected, if the class is only
printed, or if it has no place. -/
def GenerateOptions.savedFile? (options : GenerateOptions) (disk : Disk) : Option CodeFile :=
  match options.request.check with
  | .error _ => none
  | .ok request =>
    if options.stdout then none
    else
      match (⟨request, options.style⟩ : Generation).file options.layout with
      | .error _ => none
      | .ok file => options.deliveredFile? disk file

/-- The file that the program saves on `disk` when it is run with the `words` of a command line. -/
def savedFile? (words : List Text) (disk : Disk) : Option CodeFile :=
  match Invocation.parse words with
  | .ok (.generate options) => options.savedFile? disk
  | _ => none

/-- Whether `words` permit the program to replace another content. -/
def permits (words : List Text) : Bool :=
  match Invocation.parse words with
  | .ok (.generate options) => options.overwrite
  | _ => false

/-- The disk after the file, if there is one, has been saved on `disk`. -/
def afterSaving (disk : Disk) (overwrite : Bool) : Option CodeFile → Disk
  | none => disk
  | some file => (file.save disk overwrite).disk

/-- Where the options have a `target`, the file to be saved is the one that is delivered. -/
theorem GenerateOptions.savedFile?_eq {options : GenerateOptions} {request : CheckedRequest}
    {file : CodeFile} (target : options.Targets request file) (stdout : options.stdout = false)
    (disk : Disk) : options.savedFile? disk = options.deliveredFile? disk file := by
  simp only [savedFile?, target.check_eq, target.file_eq, stdout]
  rfl

/-- Making the class does nothing to the disk but save the file of `savedFile?`. -/
theorem GenerateOptions.disk_run (options : GenerateOptions) (disk : Disk) :
    (options.run disk).disk = afterSaving disk options.overwrite (options.savedFile? disk) := by
  obtain ⟨outcome, ends⟩ := exists_ends options disk
  rw [ends.run_eq]
  -- the last two ways of ending come after saving, and all others are without it
  cases ends with
  | rejected check => simp only [savedFile?, check]; rfl
  | printed check stdout => simp only [savedFile?, check, stdout]; rfl
  | unplaced check stdout place => simp only [savedFile?, check, stdout, place]; rfl
  | incomparable target stdout preview =>
    rw [savedFile?_eq target stdout, deliveredFile?, preview]
    rfl
  | undecided target stdout preview dryRun _ =>
    rw [savedFile?_eq target stdout, deliveredFile?, preview, dryRun]
    rfl
  | foretold target stdout preview dryRun _ =>
    rw [savedFile?_eq target stdout, deliveredFile?, preview, dryRun]
    rfl
  | unsaved target stdout preview dryRun _ =>
    rw [savedFile?_eq target stdout, deliveredFile?, preview, dryRun]
    rfl
  | saved target stdout preview dryRun _ =>
    rw [savedFile?_eq target stdout, deliveredFile?, preview, dryRun]
    rfl

/-- A run of the program does nothing to `disk` but save the file of `savedFile?`. -/
theorem disk_run (wording : Wording) (words : List Text) (disk : Disk) :
    (run wording words disk).disk =
      afterSaving disk (permits words) (savedFile? words disk) := by
  unfold run savedFile? permits
  cases Invocation.parse words with
  | error stop => cases stop <;> rfl
  | ok invocation =>
    cases invocation with
    | idle => rfl
    | generate options => exact options.disk_run disk
    | normalize options => rfl

end LabelledEnum.CommandLine
