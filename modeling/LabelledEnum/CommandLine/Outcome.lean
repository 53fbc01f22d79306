import LabelledEnum.Event
import LabelledEnum.Files.Disk.Basic
import LabelledEnum.Files.Failure

/-!
# Outcomes

What a run of the program comes to.

* `Exit`: how the program exits, with its `code`.
* `Outcome`: the exit, what is printed, the disk afterwards and what is reported.
* `Outcome.succeed`, `Outcome.fail`, `Outcome.reject`: the three kinds of outcome.
-/

namespace LabelledEnum.CommandLine

/-- How the program exits. -/
inductive Exit where
  /-- It did what it was told. -/
  | success
  /-- The class could not be placed or saved. -/
  | failure
  /-- It was told nothing it could do. -/
  | usage
  deriving DecidableEq, Repr

/-- The number for the exit, which the program returns to the system. -/
def Exit.code : Exit → Nat
  | success => 0
  | failure => 1
  | usage => 2

/-- What a run comes to: what is seen of it, and the disk that it leaves. -/
structure Outcome where
  /-- How the program exits. -/
  exit : Exit
  /-- What is printed as the result. -/
  stdout : Text
  /-- What is printed on errors. -/
  stderr : Text
  /-- The disk afterwards. -/
  disk : Disk
  /-- What is reported on the way. -/
  log : List Event

namespace Outcome

/-- The run succeeds with `stdout` printed and leaves `disk`. -/
def succeed (disk : Disk) (stdout : Text) (log : List Event) : Outcome :=
  ⟨.success, stdout, "", disk, log⟩

/-- The run fails with `failure` after `stdout` has been printed, and leaves `disk`. -/
def fail (disk : Disk) (stdout : Text) (failure : Failure) (log : List Event) : Outcome :=
  ⟨.failure, stdout, "Error: " ++ failure.message ++ "\n", disk, log⟩

/-- The run cannot begin, and `stderr` says why. It leaves `disk`. -/
def reject (disk : Disk) (stderr : Text) : Outcome := ⟨.usage, "", stderr, disk, []⟩

end Outcome

end LabelledEnum.CommandLine
