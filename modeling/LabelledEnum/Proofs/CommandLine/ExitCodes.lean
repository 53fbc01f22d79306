import LabelledEnum.Proofs.CommandLine.Endings
import LabelledEnum.Proofs.Files.Hindrance

/-!
# Exit codes

How the program exits says what it was told, what went wrong and what it can have done to the disk.

* `Outcome.Tells`: a run tells why it failed, and leaves the files alone.
* `GenerateOptions.Fails`, `GenerateOptions.Fails.tells`: a step of making the class fails, and then so does
  the command.
* `GenerateOptions.exit_run_eq_failure_iff`, `GenerateOptions.exit_run_eq_usage_iff`: how the command exits.
* `Unusable`, `Breaks`: the program is told nothing it can do, or a step of what it does fails.
* `Accounts`, `run_accounts`: how the program exits, prints and leaves the disk in each case.
-/

namespace LabelledEnum.CommandLine

variable {options : GenerateOptions} {disk : Disk} {file : CodeFile} {failure : Failure}

/-! ## Exits -/

/-- Different exits have different numbers, so `Exit.code` tells which one it was. -/
theorem Exit.code_inj {a b : Exit} : a.code = b.code ↔ a = b := by
  cases a <;> cases b <;> decide

theorem Exit.code_cases (exit : Exit) : exit.code = 0 ∨ exit.code = 1 ∨ exit.code = 2 := by
  cases exit <;> decide

namespace Outcome

/-- The `outcome` is that of a run which began on `disk` and failed for the reason `failure`: it tells the
reason, and the files are left alone. -/
structure Tells (outcome : Outcome) (disk : Disk) (failure : Failure) : Prop where
  /-- The run fails. -/
  exit_eq : outcome.exit = .failure
  /-- It tells why. -/
  stderr_eq : outcome.stderr = "Error: " ++ failure.message ++ "\n"
  /-- The files are those that were there, with their bytes. -/
  files_eq : ∀ place bytes,
    outcome.disk.node? place = some (.file bytes) ↔ disk.node? place = some (.file bytes)

/-- An outcome that `fail` makes tells the failure, whatever has been `printed`. -/
theorem tells_fail (printed : Text) (log : List Event) :
    (fail disk printed failure log).Tells disk failure :=
  ⟨rfl, rfl, fun _ _ => Iff.rfl⟩

end Outcome

/-! ## Making a class -/

namespace GenerateOptions

/-- A step of making the class of a checked request ends with `failure` when the class is not just printed. -/
inductive Fails (options : GenerateOptions) (disk : Disk) (failure : Failure) : Prop
  /-- The layout has no place for the class of `request`. -/
  | resolving {request : CheckedRequest} (check : options.request.check = .ok request)
      (stdout : options.stdout = false)
      (place : (⟨request, options.style⟩ : Generation).file options.layout = .error failure)
  /-- The changes that are asked for by `options.diff` cannot be told. -/
  | comparing {request : CheckedRequest} {file : CodeFile} (target : options.Targets request file)
      (stdout : options.stdout = false) (asked : options.diff = true)
      (diff : file.diff? disk = .error failure)
  /-- In a dry run, it cannot be told what saving `file` would come to. -/
  | deciding {request : CheckedRequest} {file : CodeFile} (target : options.Targets request file)
      (stdout : options.stdout = false) (dryRun : options.dryRun = true)
      (operation : file.operation disk = .error failure)
  /-- Saving `file` fails. -/
  | saving {request : CheckedRequest} {file : CodeFile} (target : options.Targets request file)
      (stdout : options.stdout = false) (dryRun : options.dryRun = false)
      (result : (file.save disk options.overwrite).result = .error failure)

/-- A preview fails only where the diff does, which `options.diff` asks for. -/
theorem preview_eq_error_iff :
    options.preview disk file = .error failure ↔
      options.diff = true ∧ file.diff? disk = .error failure := by
  unfold preview
  split
  · next asked => simp [asked, Except.map_eq_error_iff]
  · next unasked => simp [unasked]

/-- The preview fails only if the path of `file` cannot be read. -/
theorem existing?_of_preview (failed : options.preview disk file = .error failure) :
    file.existing? disk = .error failure :=
  Except.map_eq_error_iff.1 (preview_eq_error_iff.1 failed).2

/-- When a step of making the class fails, so does `options.run`, and for that reason. -/
theorem Fails.tells (fails : options.Fails disk failure) : (options.run disk).Tells disk failure := by
  -- a preview that fails before the step does so for the same reason, as both read the path
  cases fails with
  | resolving check stdout place =>
    rw [Ends.run_eq (.unplaced check stdout place)]
    exact Outcome.tells_fail _ _
  | comparing target stdout asked diff =>
    rw [Ends.run_eq (.incomparable target stdout (preview_eq_error_iff.2 ⟨asked, diff⟩))]
    exact Outcome.tells_fail _ _
  | @deciding request file target stdout dryRun operation =>
    cases preview : options.preview disk file with
    | ok printed =>
      rw [Ends.run_eq (.undecided target stdout preview dryRun operation)]
      exact Outcome.tells_fail _ _
    | error early =>
      rw [CodeFile.operation_eq_error_iff, existing?_of_preview preview] at operation
      cases operation
      rw [Ends.run_eq (.incomparable target stdout preview)]
      exact Outcome.tells_fail _ _
  | @saving request file target stdout dryRun result =>
    cases preview : options.preview disk file with
    | ok printed =>
      rw [Ends.run_eq (.unsaved target stdout preview dryRun result)]
      exact ⟨rfl, rfl, (CodeFile.of_result_eq_error result).2⟩
    | error early =>
      rw [CodeFile.save_eq_of_existing? (existing?_of_preview preview)] at result
      cases result
      rw [Ends.run_eq (.incomparable target stdout preview)]
      exact Outcome.tells_fail _ _

/-- With `options.run`, the command fails exactly when a step of making the class fails. -/
theorem exit_run_eq_failure_iff :
    (options.run disk).exit = .failure ↔ ∃ failure, options.Fails disk failure := by
  constructor
  · intro failed
    obtain ⟨outcome, ends⟩ := exists_ends options disk
    rw [ends.run_eq] at failed
    -- each way of ending in a failure names the step that failed
    cases ends with
    | unplaced check stdout place => exact ⟨_, .resolving check stdout place⟩
    | incomparable target stdout preview =>
      obtain ⟨asked, diff⟩ := preview_eq_error_iff.1 preview
      exact ⟨_, .comparing target stdout asked diff⟩
    | undecided target stdout _ dryRun operation =>
      exact ⟨_, .deciding target stdout dryRun operation⟩
    | unsaved target stdout _ dryRun result => exact ⟨_, .saving target stdout dryRun result⟩
    | _ => cases failed
  · rintro ⟨failure, fails⟩
    exact fails.tells.exit_eq

/-- With `options.run`, the command rejects its use exactly when the request is rejected. -/
theorem exit_run_eq_usage_iff :
    (options.run disk).exit = .usage ↔ ∃ rejection, options.request.check = .error rejection := by
  constructor
  · intro refused
    obtain ⟨outcome, ends⟩ := exists_ends options disk
    rw [ends.run_eq] at refused
    cases ends with
    | rejected check => exact ⟨_, check⟩
    | _ => cases refused
  · rintro ⟨rejection, check⟩
    rw [Ends.run_eq (.rejected check)]
    rfl

/-- When `options.run` rejects its use, nothing is printed and nothing done. -/
theorem of_exit_run_eq_usage (refused : (options.run disk).exit = .usage) :
    (options.run disk).stdout = [] ∧ (options.run disk).disk = disk := by
  obtain ⟨rejection, check⟩ := exit_run_eq_usage_iff.1 refused
  rw [Ends.run_eq (.rejected check)]
  exact ⟨rfl, rfl⟩

/-- When `options.run` succeeds, it prints no error, and only a command that neither prints the class nor is a
dry run changes the disk. -/
theorem of_exit_run_eq_success (success : (options.run disk).exit = .success) :
    (options.run disk).stderr = [] ∧
      ((options.run disk).disk = disk ∨ options.stdout = false ∧ options.dryRun = false) := by
  obtain ⟨outcome, ends⟩ := exists_ends options disk
  rw [ends.run_eq] at success ⊢
  cases ends with
  | printed _ _ => exact ⟨rfl, .inl rfl⟩
  | foretold _ _ _ _ _ => exact ⟨rfl, .inl rfl⟩
  | saved _ stdout _ dryRun _ => exact ⟨rfl, .inr ⟨stdout, dryRun⟩⟩
  | _ => cases success

end GenerateOptions

/-! ## The program -/

/-- The program is told nothing that it can do: its arguments are rejected, there is no command, or the
request for a class is rejected. -/
inductive Unusable : Except Stop Invocation → Prop
  /-- The arguments are rejected for the reason `reason`. -/
  | misuse (reason : Misuse) : Unusable (.error (.misuse reason))
  /-- There is no command. -/
  | idle : Unusable (.ok .idle)
  /-- The request that `options` make for a class is rejected. -/
  | rejected {options : GenerateOptions} {rejection : Rejection}
      (check : options.request.check = .error rejection) : Unusable (.ok (.generate options))

/-- The program is told to make a class, and a step of that ends with `failure`. -/
inductive Breaks (disk : Disk) (failure : Failure) : Except Stop Invocation → Prop
  /-- The step is one of the command with `options`. -/
  | generate {options : GenerateOptions} (fails : options.Fails disk failure) :
      Breaks disk failure (.ok (.generate options))

/-- How the program that is `told` something on `disk` exits, prints and leaves the disk: with `outcome`. -/
structure Accounts (told : Except Stop Invocation) (disk : Disk) (outcome : Outcome) : Prop where
  /-- There are three exit codes. -/
  code_eq : outcome.exit.code = 0 ∨ outcome.exit.code = 1 ∨ outcome.exit.code = 2
  /-- One is for what the program cannot do. -/
  usage_iff : outcome.exit.code = 2 ↔ Unusable told
  /-- Then nothing is printed as a result, and nothing done. -/
  of_usage : outcome.exit.code = 2 → outcome.stdout = [] ∧ outcome.disk = disk
  /-- One is for failures. -/
  failure_iff : outcome.exit.code = 1 ↔ ∃ failure, Breaks disk failure told
  /-- Then the program tells the failure and leaves the files alone. -/
  of_failure : ∀ failure, Breaks disk failure told → outcome.Tells disk failure
  /-- One is for success. Then there is no error, and the disk is the same unless a class was to be saved. -/
  of_success : outcome.exit.code = 0 → outcome.stderr = [] ∧ (outcome.disk = disk ∨
    ∃ options, told = .ok (.generate options) ∧ options.stdout = false ∧ options.dryRun = false)

/-- An outcome that rejects what the program is `told` accounts for something `Unusable`. -/
theorem accounts_reject {told : Except Stop Invocation} (unusable : Unusable told)
    (sound : ∀ failure, ¬Breaks disk failure told) (stderr : Text) :
    Accounts told disk (.reject disk stderr) where
  code_eq := Exit.code_cases _
  usage_iff := iff_of_true rfl unusable
  of_usage _ := ⟨rfl, rfl⟩
  failure_iff := iff_of_false nofun fun ⟨failure, breaks⟩ => sound failure breaks
  of_failure failure breaks := absurd breaks (sound failure)
  of_success := nofun

/-- An outcome that only shows something accounts for what is neither `Unusable` nor about a class. -/
theorem accounts_succeed {told : Except Stop Invocation} (usable : ¬Unusable told)
    (sound : ∀ failure, ¬Breaks disk failure told) (stdout : Text) :
    Accounts told disk (.succeed disk stdout []) where
  code_eq := Exit.code_cases _
  usage_iff := iff_of_false nofun usable
  of_usage := nofun
  failure_iff := iff_of_false nofun fun ⟨failure, breaks⟩ => sound failure breaks
  of_failure failure breaks := absurd breaks (sound failure)
  of_success _ := ⟨rfl, .inl rfl⟩

/-- The outcome of making a class accounts for the command with these `options`. -/
theorem accounts_generate (options : GenerateOptions) (disk : Disk) :
    Accounts (.ok (.generate options)) disk (options.run disk) where
  code_eq := Exit.code_cases _
  usage_iff := by
    refine (Exit.code_inj (b := .usage)).trans (GenerateOptions.exit_run_eq_usage_iff.trans ?_)
    exact ⟨fun ⟨_, check⟩ => .rejected check, fun | .rejected check => ⟨_, check⟩⟩
  of_usage refused := GenerateOptions.of_exit_run_eq_usage ((Exit.code_inj (b := .usage)).1 refused)
  failure_iff := by
    refine (Exit.code_inj (b := .failure)).trans (GenerateOptions.exit_run_eq_failure_iff.trans ?_)
    exact ⟨fun ⟨_, fails⟩ => ⟨_, .generate fails⟩, fun | ⟨_, .generate fails⟩ => ⟨_, fails⟩⟩
  of_failure := fun _ (.generate fails) => fails.tells
  of_success success := by
    obtain ⟨stderr, kept⟩ :=
      GenerateOptions.of_exit_run_eq_success ((Exit.code_inj (b := .success)).1 success)
    exact ⟨stderr, kept.imp_right fun saved => ⟨options, rfl, saved⟩⟩

/-- The program accounts for whatever it is told by `words`, on every disk. -/
theorem run_accounts (wording : Wording) (words : List Text) (disk : Disk) :
    Accounts (Invocation.parse words) disk (run wording words disk) := by
  unfold run
  cases Invocation.parse words with
  | error stop =>
    cases stop with
    | version => exact accounts_succeed (by nofun) (by nofun) _
    | help => exact accounts_succeed (by nofun) (by nofun) _
    | misuse reason => exact accounts_reject (.misuse reason) (by nofun) _
  | ok invocation =>
    cases invocation with
    | idle => exact accounts_reject .idle (by nofun) _
    | generate options => exact accounts_generate options disk
    | normalize options => exact accounts_succeed (by nofun) (by nofun) _

end LabelledEnum.CommandLine
