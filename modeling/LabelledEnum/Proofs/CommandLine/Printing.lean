import LabelledEnum.CommandLine.Help
import LabelledEnum.Proofs.CommandLine.Endings
import LabelledEnum.Proofs.CommandLine.Switches
import LabelledEnum.Proofs.Files.Hindrance
import LabelledEnum.Proofs.Request
import LabelledEnum.Proofs.Source.Room

/-!
# What is printed and what is saved

A class that is printed is the text that a run would save, and it depends on the request and the style
alone. It is printed if there is room for it. The indentation that is asked for can be too wide for that.

* `GenerateOptions.run_printed`: the command prints the source of the class.
* `GenerateOptions.breaksDown_of_stdout`: it breaks down if there is no room for the source.
* `GenerateOptions.Stores`, `GenerateOptions.stores_of_exit_eq_success`: the command that succeeds has stored
  the source of the class and says so.
* `execute_eq_of_parse`: the program executes the command that it is told.
* `savingWords`, `parse_savingWords`: a command line without the switches that keep it from saving.
* `printed_is_stored`: what is printed depends on nothing else and is what is stored without them.
* `not_every_class_printed`: a class that is not printed.
-/

namespace LabelledEnum

/-- What a layout places is the `source` of the class. -/
theorem Generation.content_of_file_eq_ok {generation : Generation} {layout : Layout} {file : CodeFile}
    (placed : generation.file layout = .ok file) : file.content = generation.source := by
  obtain ⟨path, -, rfl⟩ := Except.map_eq_ok_iff.1 placed
  rfl

namespace CommandLine

variable {options : GenerateOptions} {words : List Text} {disk : Disk} {request : CheckedRequest}

namespace GenerateOptions

/-- The source of the class that `options` ask for, once their request has been checked. -/
def source (options : GenerateOptions) (request : CheckedRequest) : Text :=
  (⟨request, options.style⟩ : Generation).source

/-- No word that sets a switch is the class id of `options` that pass the check. -/
theorem classId_ne_word (check : options.request.check = .ok request) (option : Switch) :
    options.classId ≠ option.word := by
  intro same
  obtain ⟨-, -, parsed, -⟩ := Request.check_eq_ok_iff.1 check
  change ClassId.parseUnreserved options.classId.trim = _ at parsed
  rw [same] at parsed
  -- a class id begins with a letter
  cases option <;> cases parsed

/-- What the command with these `options` prints is the source of the class. -/
theorem run_printed (check : options.request.check = .ok request) (stdout : options.stdout = true) :
    (options.run disk).exit = .success ∧ (options.run disk).disk = disk ∧
      (options.run disk).stdout = options.source request ∧ (options.run disk).stderr = [] := by
  rw [Ends.run_eq (.printed check stdout)]
  exact ⟨rfl, rfl, rfl, rfl⟩

/-- If there is no `room` for the source of a class that is to be printed, the command breaks down, whatever the
other options are. -/
theorem breaksDown_of_stdout (check : options.request.check = .ok request) (stdout : options.stdout = true)
    (room : Nat) :
    options.breaksDown room = decide (room < (options.source request).utf8Length) := by
  have written : (⟨request, options.style⟩ : Generation).source? room =
      if (options.source request).utf8Length ≤ room then some (options.source request) else none :=
    EnumClass.source?_eq ..
  simp only [breaksDown, check, stdout, written]
  by_cases fits : (options.source request).utf8Length ≤ room
  · rw [if_pos fits, decide_eq_false (Nat.not_lt.2 fits)]
    rfl
  · rw [if_neg fits, decide_eq_true (Nat.not_le.1 fits)]
    rfl

/-- The run with `outcome` says what it did with the file that `options` are about, and the file holds `text`
afterwards. -/
def Stores (options : GenerateOptions) (request : CheckedRequest) (disk : Disk) (text : Text)
    (outcome : Outcome) : Prop :=
  ∃ file printed operation, options.Targets request file ∧ options.preview disk file = .ok printed ∧
    file.operation disk = .ok operation ∧
    outcome.stdout = printed ++ operationLine operation file.path ++ Generation.successMessage ++ "\n" ∧
    outcome.disk.readBytes file.path = .ok (Text.encode text)

/-- When the command that neither prints the class nor is a dry run succeeds, it `Stores` the source of the
class. -/
theorem stores_of_exit_eq_success (check : options.request.check = .ok request)
    (stdout : options.stdout = false) (dryRun : options.dryRun = false)
    (success : (options.run disk).exit = .success) :
    options.Stores request disk (options.source request) (options.run disk) := by
  obtain ⟨outcome, ends⟩ := exists_ends options disk
  rw [ends.run_eq] at success ⊢
  -- the options exclude all ways of ending in a success but one
  cases ends with
  | printed _ printed =>
    rw [stdout] at printed
    cases printed
  | foretold _ _ _ dry =>
    rw [dryRun] at dry
    cases dry
  | @saved checked file printed operation target _ preview _ result =>
    obtain rfl : request = checked := by
      rw [target.check_eq] at check
      cases check
      rfl
    obtain ⟨foretold, content⟩ := CodeFile.of_result_eq_ok result
    rw [Generation.content_of_file_eq_ok target.file_eq] at content
    exact ⟨file, printed, operation, target, preview, foretold, rfl, content⟩
  | _ => cases success

end GenerateOptions

/-- A command line that tells to make a class executes that command, unless it breaks down for want of `room`. -/
theorem execute_eq_of_parse (told : Invocation.parse words = .ok (.generate options)) (room : Nat)
    (wording : Wording) (disk : Disk) :
    execute room wording words disk =
      if options.breaksDown room then none else some (options.run disk) := by
  rw [execute, told]
  rfl

/-- The `words` of a command line without those that set the switches for printing the class and for a dry
run. -/
def savingWords (words : List Text) : List Text :=
  (words.erase Switch.stdout.word).erase Switch.dryRun.word

/-- As `savingWords`, a command line tells the same but these switches. -/
theorem parse_savingWords (told : Invocation.parse words = .ok (.generate options))
    (check : options.request.check = .ok request) :
    Invocation.parse (savingWords words) =
      .ok (.generate { options with stdout := false, dryRun := false }) := by
  have printed :=
    Invocation.parse_erase (by decide) told (GenerateOptions.classId_ne_word check .stdout)
  exact Invocation.parse_erase (by decide) printed (GenerateOptions.classId_ne_word check .dryRun)

/-- A command line whose `options` print the class of their `request` does so if there is `room` for the source of the
class, and otherwise it breaks down: on every disk and with every other directory, aliases and switches for a dry
run, a preview and replacing, and what is printed is always the same. As `savingWords`, without the switches for
printing and for a dry run, the command line is accepted too, and if it succeeds, it has stored that source. -/
theorem printed_is_stored (room : Nat) (wording : Wording)
    (told : Invocation.parse words = .ok (.generate options)) (stdout : options.stdout = true)
    (check : options.request.check = .ok request) :
    (∀ otherWords outDir aliases dryRun diff overwrite disk,
      Invocation.parse otherWords =
        .ok (.generate { options with outDir, aliases, dryRun, diff, overwrite }) →
      ((options.source request).utf8Length ≤ room →
        ∃ outcome, execute room wording otherWords disk = some outcome ∧ outcome.exit = .success ∧
          outcome.disk = disk ∧ outcome.stdout = options.source request ∧ outcome.stderr = []) ∧
      (room < (options.source request).utf8Length → execute room wording otherWords disk = none)) ∧
    Invocation.parse (savingWords words) =
      .ok (.generate { options with stdout := false, dryRun := false }) ∧
    ∀ disk outcome, execute room wording (savingWords words) disk = some outcome →
      outcome.exit = .success →
      { options with stdout := false, dryRun := false }.Stores request disk (options.source request)
        outcome := by
  have saving := parse_savingWords told check
  refine ⟨?_, saving, ?_⟩
  · intro otherWords outDir aliases dryRun diff overwrite disk alike
    -- the request and the style are those of the other options
    have same : { options with outDir, aliases, dryRun, diff, overwrite }.request.check = .ok request :=
      check
    rw [execute_eq_of_parse alike, GenerateOptions.breaksDown_of_stdout same stdout]
    constructor
    · intro fits
      have whole := decide_eq_false (Nat.not_lt.2 fits)
      exact ⟨_, if_neg (ne_true_of_eq_false whole), GenerateOptions.run_printed same stdout⟩
    · intro exceeds
      exact if_pos (decide_eq_true exceeds)
  · intro disk outcome executed success
    have ran := run_eq_of_execute executed
    rw [run_eq_of_parse saving] at ran
    cases ran
    exact GenerateOptions.stores_of_exit_eq_success check rfl rfl success

/-- A class is printed although no alias stands for its namespace, and elsewhere the same text replaces what a
file holds. -/
theorem printed_is_stored_elsewhere :
    let words : List Text := ["generate", "--stdout", "order-item", "--values", "new, paid",
      "--namespace=", "--dry-run", "--overwrite"]
    let otherWords : List Text := ["generate", "order-item", "--values", "new, paid",
      "--namespace=", "--alias", "app=src", "--stdout"]
    let disk := Disk.fresh.put ["OrderItem.php", "work"] (.file (Text.encode "<?php\n"))
    ∃ text printed saved, execute Text.maxRoom .standard otherWords .fresh = some printed ∧
      printed.exit = .success ∧ printed.stdout = text ∧
      execute Text.maxRoom .standard (savingWords words) disk = some saved ∧ saved.exit = .success ∧
      saved.disk.readBytes "./OrderItem.php" = .ok (Text.encode text) := by
  intro words otherWords disk
  let options : GenerateOptions :=
    { classId := "order-item"
      values := "new, paid"
      inNamespace := ""
      stdout := true
      dryRun := true
      overwrite := true }
  let request : CheckedRequest :=
    { classId := ⟨"order-item", by decide⟩
      values := "new, paid"
      inNamespace := ⟨[]⟩
      author := ""
      description := "This is the CEnumerable class for"
      start := 0
      sort := false }
  have told : Invocation.parse words = .ok (.generate options) := by rfl
  have check : options.request.check = .ok request := by rfl
  obtain ⟨printed, saving, stored⟩ := printed_is_stored Text.maxRoom .standard told rfl check
  have told' : Invocation.parse otherWords = .ok (.generate { options with
      outDir := "."
      aliases := [⟨"app", "src"⟩]
      dryRun := false
      diff := false
      overwrite := false }) := by rfl
  have fits : (options.source request).utf8Length ≤ Text.maxRoom := by decide +kernel
  obtain ⟨shown, executed, success, -, stdout, -⟩ := (printed otherWords _ _ _ _ _ .fresh told').1 fits
  have whole : { options with stdout := false, dryRun := false }.breaksDown Text.maxRoom = false := by
    decide +kernel
  have executed' := execute_eq_of_parse saving Text.maxRoom .standard disk
  rw [whole] at executed'
  have success' : ({ options with stdout := false, dryRun := false }.run disk).exit = .success := by
    decide +kernel
  obtain ⟨file, -, -, target, -, -, -, content⟩ := stored disk _ executed' success'
  obtain ⟨path, placed, rfl⟩ := Except.map_eq_ok_iff.1 target.file_eq
  have expected : (⟨request, options.style⟩ : Generation).path options.layout =
      .ok "./OrderItem.php" := by rfl
  cases expected.symm.trans placed
  exact ⟨_, _, _, executed, success, stdout, executed', success', content⟩

/-- No text has room for an indentation of `2 ^ 64 - 1` spaces, although `--indent` accepts that many. -/
theorem not_every_class_printed :
    ¬ ∀ (words : List Text) (options : GenerateOptions) (request : CheckedRequest) (disk : Disk),
      Invocation.parse words = .ok (.generate options) → options.stdout = true →
      options.request.check = .ok request →
      ∃ outcome, execute Text.maxRoom .standard words disk = some outcome ∧ outcome.exit = .success := by
  intro always
  let words : List Text := ["generate", "plan", "--values", "a", "--stdout", "--indent",
    "18446744073709551615"]
  let options : GenerateOptions :=
    { classId := "plan"
      values := "a"
      indent := 18446744073709551615
      stdout := true }
  let request : CheckedRequest :=
    { classId := ⟨"plan", by decide⟩
      values := "a"
      inNamespace := ⟨["app", "models", "enumerables"]⟩
      author := ""
      description := "This is the CEnumerable class for"
      start := 0
      sort := false }
  have told : Invocation.parse words = .ok (.generate options) := by rfl
  have check : options.request.check = .ok request := by rfl
  have exceeds : Text.maxRoom < (options.source request).utf8Length :=
    Nat.lt_of_lt_of_le (by decide) (EnumClass.indentWidth_le_utf8Length_source options.style request _)
  obtain ⟨outcome, executed, -⟩ := always words options request .fresh told rfl check
  rw [execute_eq_of_parse told, GenerateOptions.breaksDown_of_stdout check rfl, decide_eq_true exceeds]
    at executed
  cases executed

end CommandLine

end LabelledEnum
