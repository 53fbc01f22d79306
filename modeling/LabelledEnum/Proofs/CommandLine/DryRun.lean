import LabelledEnum.CommandLine.Help
import LabelledEnum.Proofs.CommandLine.Endings
import LabelledEnum.Proofs.CommandLine.Switches
import LabelledEnum.Proofs.Files.Hindrance

/-!
# What a dry run foretells

A dry run decides by comparing the file with what is on the disk, and the run itself by saving the file. The
two agree until the file is to be written.

* `GenerateOptions.Foretells`: all that a dry run foretells about the run.
* `GenerateOptions.foretells_run`: a dry run of the command foretells the command.
* `dryRun_foretells`: adding the switch to a command line makes it a dry run.
-/

namespace LabelledEnum.CommandLine

namespace GenerateOptions

/-- The run `dry` changes nothing and foretells the run `real`. -/
structure Foretells (options : GenerateOptions) (disk : Disk) (dry real : Outcome) : Prop where
  /-- The dry run leaves `disk` as it is. -/
  disk_eq : dry.disk = disk
  /-- When the run `real` succeeds, the dry run did and printed all but the last line. -/
  of_success : real.exit = .success →
    dry.exit = .success ∧ real.stdout = dry.stdout ++ (Generation.successMessage ++ "\n")
  /-- When the dry run does not succeed, the run `real` does the same. -/
  of_not_success : dry.exit ≠ .success →
    real.exit = dry.exit ∧ real.stdout = dry.stdout ∧ real.stderr = dry.stderr
  /-- Otherwise the run `real` fails because the file could be compared with what is on the disk and cannot be
  saved, and it prints what the dry run printed without the line on the file. -/
  of_hindrance : dry.exit = .success → real.exit ≠ .success →
    real.exit = .failure ∧ ∃ request file operation failure,
      options.Targets request file ∧ file.operation disk = .ok operation ∧
        file.Hindrance disk options.overwrite failure ∧
        dry.stdout = real.stdout ++ operationLine operation file.path ∧
        real.stderr = "Error: " ++ failure.message ++ "\n"

variable {options : GenerateOptions} {disk : Disk} {dry real : Outcome}

/-- A run `dry` that does not succeed foretells a run that does the same. -/
theorem Foretells.of_same (kept : dry.disk = disk) (stopped : dry.exit ≠ .success)
    (exit : real.exit = dry.exit) (stdout : real.stdout = dry.stdout)
    (stderr : real.stderr = dry.stderr) : options.Foretells disk dry real where
  disk_eq := kept
  of_success success := absurd (exit.symm.trans success) stopped
  of_not_success _ := ⟨exit, stdout, stderr⟩
  of_hindrance success := absurd success stopped

/-- To see what the dry run foretells, it is enough to know in which way it `Ends`. -/
theorem Foretells.of_ends (ends : (options.apply (.switch .dryRun)).Ends disk dry)
    (foretells : options.Foretells disk dry real) :
    options.Foretells disk ((options.apply (.switch .dryRun)).run disk) real := by
  rwa [ends.run_eq]

/-- The dry run of `options` foretells the run of the same options without that switch. -/
theorem foretells_run (stdout : options.stdout = false) (dryRun : options.dryRun = false) :
    options.Foretells disk ((options.apply (.switch .dryRun)).run disk) (options.run disk) := by
  have targets : ∀ {request file}, options.Targets request file →
      (options.apply (.switch .dryRun)).Targets request file :=
    fun target => ⟨target.check_eq, target.file_eq⟩
  obtain ⟨outcome, ends⟩ := exists_ends options disk
  rw [ends.run_eq]
  -- the dry run takes the same way as the run until it is about to save the file
  cases ends with
  | rejected check => exact .of_ends (.rejected check) (.of_same rfl nofun rfl rfl rfl)
  | printed _ printed =>
    rw [stdout] at printed
    cases printed
  | unplaced check _ place =>
    exact .of_ends (.unplaced check stdout place) (.of_same rfl nofun rfl rfl rfl)
  | incomparable target _ preview =>
    exact .of_ends (.incomparable (targets target) stdout preview) (.of_same rfl nofun rfl rfl rfl)
  | undecided _ _ _ dry =>
    rw [dryRun] at dry
    cases dry
  | foretold _ _ _ dry =>
    rw [dryRun] at dry
    cases dry
  | @unsaved request file printed failure target _ preview _ result =>
    -- saving reads the path first, as the dry run does, and what comes later is a hindrance
    rcases (CodeFile.of_result_eq_error result).1 with unread | ⟨operation, foretold, hindrance⟩
    · exact .of_ends (.undecided (targets target) stdout preview rfl unread)
        (.of_same rfl nofun rfl rfl rfl)
    · refine .of_ends (.foretold (targets target) stdout preview rfl foretold) ?_
      exact {
        disk_eq := rfl
        of_success := nofun
        of_not_success := fun stopped => absurd rfl stopped
        of_hindrance := fun _ _ =>
          ⟨rfl, request, file, operation, failure, target, foretold, hindrance, rfl, rfl⟩ }
  | saved target _ preview _ result =>
    have foretold := (CodeFile.of_result_eq_ok result).1
    refine .of_ends (.foretold (targets target) stdout preview rfl foretold) ?_
    exact {
      disk_eq := rfl
      of_success := fun _ => ⟨rfl, List.append_assoc _ _ _⟩
      of_not_success := fun stopped => absurd rfl stopped
      of_hindrance := fun _ failed => absurd rfl failed }

end GenerateOptions

variable {words : List Text} {options : GenerateOptions}

/-- A command line that is accepted without the switches for printing the class and for a dry run is accepted
with `Switch.dryRun`, and wherever that is added to its `words`, the run foretells the other one. -/
theorem dryRun_foretells (wording : Wording) (disk : Disk)
    (told : Invocation.parse words = .ok (.generate options)) (stdout : options.stdout = false)
    (dryRun : options.dryRun = false) :
    (∃ dryWords, Invocation.Adds .dryRun words dryWords) ∧
      ∀ dryWords, Invocation.Adds .dryRun words dryWords →
        options.Foretells disk (run wording dryWords disk) (run wording words disk) := by
  have member : Switch.dryRun ∈ Command.generate.switches := by decide
  refine ⟨Invocation.exists_adds member told dryRun, fun dryWords added => ?_⟩
  rw [run_eq_of_parse told, run_eq_of_parse (added.parse_eq member told)]
  exact GenerateOptions.foretells_run stdout dryRun

/-- Where another content is in the way, the dry run tells that it would be replaced, and the run refuses to
replace it. -/
theorem dryRun_foretells_refusal :
    let words : List Text := ["generate", "order-item", "--values", "new, paid", "--namespace="]
    let dryWords : List Text :=
      ["generate", "order-item", "--dry-run", "--values", "new, paid", "--namespace="]
    let disk := Disk.fresh.put ["OrderItem.php", "work"] (.file (Text.encode "<?php\n"))
    let options : GenerateOptions :=
      { classId := "order-item", values := "new, paid", inNamespace := "" }
    options.Foretells disk (run .standard dryWords disk) (run .standard words disk) ∧
      (run .standard dryWords disk).stdout = ("[overwrite] ./OrderItem.php\n" : Text) ∧
      (run .standard words disk).exit = .failure := by
  intro words dryWords disk options
  have told : Invocation.parse words = .ok (.generate options) := by rfl
  have added : Invocation.Adds .dryRun words dryWords :=
    ⟨⟨["generate", "order-item"], ["--values", "new, paid", "--namespace="], rfl, rfl⟩, _, rfl⟩
  refine ⟨(dryRun_foretells .standard disk told rfl rfl).2 dryWords added, ?_, ?_⟩
  · decide +kernel
  · decide +kernel

end LabelledEnum.CommandLine
