import LabelledEnum.CommandLine.Run
import LabelledEnum.Proofs.Files.Saving

/-!
# The ways in which making a class can end

* `GenerateOptions.Targets`: the options are about a file.
* `GenerateOptions.Ends`: the ways in which making a class can end.
* `GenerateOptions.Ends.run_eq`, `GenerateOptions.exists_ends`: the command ends in one of them, and each says what it
  comes to.
* `run_eq_of_parse`: the program runs the command that it is told.
* `run_eq_of_execute`: with only so much room, the program comes to the same outcome or to none.
-/

namespace LabelledEnum.CommandLine

namespace GenerateOptions

/-- The checked `request` is that of `options`, whose layout gives it `file`. -/
structure Targets (options : GenerateOptions) (request : CheckedRequest) (file : CodeFile) :
    Prop where
  /-- The request of `options` passes the check. -/
  check_eq : options.request.check = .ok request
  /-- The layout has a place for the class. -/
  file_eq : (⟨request, options.style⟩ : Generation).file options.layout = .ok file

/-- What is reported until `file` has its place. -/
def targetLog (options : GenerateOptions) (request : CheckedRequest) (file : CodeFile) : List Event :=
  (⟨request, options.style⟩ : Generation).log options.layout ++ locationLog file

/-- The ways in which making a class can end on a disk, each with its outcome: `options.run` comes to one of
them. -/
inductive Ends (options : GenerateOptions) (disk : Disk) : Outcome → Prop
  /-- The request is rejected. -/
  | rejected {rejection : Rejection} (check : options.request.check = .error rejection) :
      Ends options disk (.reject disk (rejection.report ++ "\n"))
  /-- The class is printed. -/
  | printed {request : CheckedRequest} (check : options.request.check = .ok request)
      (stdout : options.stdout = true) :
      Ends options disk (.succeed disk (⟨request, options.style⟩ : Generation).source
        (⟨request, options.style⟩ : Generation).constantsLog)
  /-- There is no place for the class. -/
  | unplaced {request : CheckedRequest} {failure : Failure}
      (check : options.request.check = .ok request) (stdout : options.stdout = false)
      (place : (⟨request, options.style⟩ : Generation).file options.layout = .error failure) :
      Ends options disk (.fail disk "" failure (⟨request, options.style⟩ : Generation).constantsLog)
  /-- It cannot be shown how the file would change. -/
  | incomparable {request : CheckedRequest} {file : CodeFile} {failure : Failure}
      (target : options.Targets request file) (stdout : options.stdout = false)
      (preview : options.preview disk file = .error failure) :
      Ends options disk (.fail disk "" failure (options.targetLog request file))
  /-- In a dry run, it cannot be told what saving the file would come to. -/
  | undecided {request : CheckedRequest} {file : CodeFile} {printed : Text} {failure : Failure}
      (target : options.Targets request file) (stdout : options.stdout = false)
      (preview : options.preview disk file = .ok printed) (dryRun : options.dryRun = true)
      (operation : file.operation disk = .error failure) :
      Ends options disk (.fail disk printed failure (options.targetLog request file))
  /-- In a dry run, it is told what saving the file would come to. -/
  | foretold {request : CheckedRequest} {file : CodeFile} {printed : Text} {operation : Operation}
      (target : options.Targets request file) (stdout : options.stdout = false)
      (preview : options.preview disk file = .ok printed) (dryRun : options.dryRun = true)
      (foretold : file.operation disk = .ok operation) :
      Ends options disk (.succeed disk (printed ++ operationLine operation file.path)
        (options.targetLog request file))
  /-- The file cannot be saved. -/
  | unsaved {request : CheckedRequest} {file : CodeFile} {printed : Text} {failure : Failure}
      (target : options.Targets request file) (stdout : options.stdout = false)
      (preview : options.preview disk file = .ok printed) (dryRun : options.dryRun = false)
      (result : (file.save disk options.overwrite).result = .error failure) :
      Ends options disk (.fail (file.save disk options.overwrite).disk printed failure
        (options.targetLog request file ++ (file.save disk options.overwrite).log))
  /-- The file has been saved. -/
  | saved {request : CheckedRequest} {file : CodeFile} {printed : Text} {operation : Operation}
      (target : options.Targets request file) (stdout : options.stdout = false)
      (preview : options.preview disk file = .ok printed) (dryRun : options.dryRun = false)
      (result : (file.save disk options.overwrite).result = .ok operation) :
      Ends options disk (.succeed (file.save disk options.overwrite).disk
        (printed ++ operationLine operation file.path ++ Generation.successMessage ++ "\n")
        (options.targetLog request file ++ (file.save disk options.overwrite).log))

variable {options : GenerateOptions} {disk : Disk} {request : CheckedRequest} {file : CodeFile}
  {outcome : Outcome}

/-- Once the class has its place, the command goes on to `deliver` the file. -/
theorem run_eq_deliver (target : options.Targets request file) (stdout : options.stdout = false) :
    options.run disk = options.deliver disk file (options.targetLog request file) := by
  simp only [run, produce, target.check_eq, target.file_eq, stdout]
  rfl

/-- A way of ending says what `options.run` comes to. -/
theorem Ends.run_eq (ends : options.Ends disk outcome) : options.run disk = outcome := by
  cases ends with
  | rejected check => rw [run, check]
  | printed check stdout =>
    rw [run, check]
    exact if_pos stdout
  | unplaced check stdout place =>
    simp only [run, produce, check, place, stdout]
    rfl
  | incomparable target stdout preview => rw [run_eq_deliver target stdout, deliver, preview]
  | undecided target stdout preview dryRun operation =>
    rw [run_eq_deliver target stdout, deliver, preview]
    simp only [dryRun, foretell, operation]
    rfl
  | foretold target stdout preview dryRun operation =>
    rw [run_eq_deliver target stdout, deliver, preview]
    simp only [dryRun, foretell, operation]
    rfl
  | unsaved target stdout preview dryRun result =>
    rw [run_eq_deliver target stdout, deliver, preview]
    simp only [dryRun, save, result]
    rfl
  | saved target stdout preview dryRun result =>
    rw [run_eq_deliver target stdout, deliver, preview]
    simp only [dryRun, save, result]
    rfl

/-- There is no way of ending but those of `Ends`. -/
theorem exists_ends (options : GenerateOptions) (disk : Disk) : ∃ outcome, options.Ends disk outcome := by
  -- each step of the command can end it, and only the one after it needs to be looked at
  cases check : options.request.check with
  | error rejection => exact ⟨_, .rejected check⟩
  | ok request =>
    cases stdout : options.stdout with
    | true => exact ⟨_, .printed check stdout⟩
    | false =>
      cases place : (⟨request, options.style⟩ : Generation).file options.layout with
      | error failure => exact ⟨_, .unplaced check stdout place⟩
      | ok file =>
        have target : options.Targets request file := ⟨check, place⟩
        cases preview : options.preview disk file with
        | error failure => exact ⟨_, .incomparable target stdout preview⟩
        | ok printed =>
          cases dryRun : options.dryRun with
          | true =>
            cases decided : file.operation disk with
            | error failure => exact ⟨_, .undecided target stdout preview dryRun decided⟩
            | ok operation => exact ⟨_, .foretold target stdout preview dryRun decided⟩
          | false =>
            cases result : (file.save disk options.overwrite).result with
            | error failure => exact ⟨_, .unsaved target stdout preview dryRun result⟩
            | ok operation => exact ⟨_, .saved target stdout preview dryRun result⟩

end GenerateOptions

/-- A command line that tells to make a class runs that command with its `options`. -/
theorem run_eq_of_parse {words : List Text} {options : GenerateOptions}
    (told : Invocation.parse words = .ok (.generate options)) (wording : Wording) (disk : Disk) :
    run wording words disk = options.run disk := by
  rw [run, told]
  rfl

/-- What the program comes to where a text has only so much `room` is what it comes to at all. -/
theorem run_eq_of_execute {room : Nat} {wording : Wording} {words : List Text} {disk : Disk}
    {outcome : Outcome} (executed : execute room wording words disk = some outcome) :
    run wording words disk = outcome := by
  unfold execute at executed
  unfold run
  split at executed
  · exact Option.some.inj executed
  · split at executed
    · cases executed
    · exact Option.some.inj executed

end LabelledEnum.CommandLine
