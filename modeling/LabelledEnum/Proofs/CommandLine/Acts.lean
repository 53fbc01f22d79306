import LabelledEnum.CommandLine.Help
import LabelledEnum.Proofs.CommandLine.Effect
import LabelledEnum.Proofs.Files.Keeping

/-!
# Runs without permission to replace

A run is a sequence of savings and of runs of the program, none of which may replace another content.

* `Act`, `Act.perform`, `afterActs`: what is done in a run, and the disk after it.
* `Act.MeetsHidden`: the act saves a file whose path leads to a file only once directories have been made.
* `filesKept_iff`: exactly then a file loses its bytes, which on a tree takes a path that goes up.
* `not_filesKept`: it happens.
-/

namespace LabelledEnum

open CommandLine

/-- Something done without permission to replace another content. -/
inductive Act where
  /-- The `file` is saved. -/
  | save (file : CodeFile)
  /-- The program is run with the `words` of a command line, which do not permit to replace another content. -/
  | invoke (words : List Text) (denied : permits words = false)

namespace Act

/-- The disk after the act, which begins on `disk`. -/
def perform (wording : Wording) (disk : Disk) : Act → Disk
  | save file => (file.save disk false).disk
  | invoke words _ => (run wording words disk).disk

/-- The file that the act saves on `disk`, if it comes to that. -/
def savedFile? (disk : Disk) : Act → Option CodeFile
  | save file => some file
  | invoke words _ => CommandLine.savedFile? words disk

/-- The `act` saves a file whose path leads nowhere on `disk`, and to a file with other bytes once the
directories on the way have been made. -/
def MeetsHidden (act : Act) (disk : Disk) : Prop :=
  ∃ file, act.savedFile? disk = some file ∧ file.MeetsHidden disk

variable {wording : Wording} {disk : Disk} {act : Act}

/-- All that `act` does to the disk is saving its file, as `afterSaving` has it. -/
theorem perform_eq : act.perform wording disk = afterSaving disk false (act.savedFile? disk) := by
  cases act with
  | save file => rfl
  | invoke words denied =>
    rw [perform, disk_run, denied]
    rfl

/-- By `act`, all files are kept unless it meets a hidden one. -/
theorem keepsFiles_perform_iff :
    Disk.KeepsFiles disk (act.perform wording disk) ↔ ¬act.MeetsHidden disk := by
  rw [perform_eq, MeetsHidden]
  cases act.savedFile? disk with
  | none => exact iff_of_true (.refl disk) (by simp)
  | some file =>
    rw [afterSaving, CodeFile.keepsFiles_save_iff]
    simp

theorem isTree_perform (tree : disk.IsTree) : (act.perform wording disk).IsTree := by
  rw [perform_eq]
  cases act.savedFile? disk with
  | none => exact tree
  | some file => exact file.isTree_save tree false

/-- On a tree, `act` meets a hidden file only if it saves to a path that goes up somewhere. -/
theorem dots_of_meetsHidden (tree : disk.IsTree) (hidden : act.MeetsHidden disk) :
    ∃ file, act.savedFile? disk = some file ∧ ['.', '.'] ∈ Disk.names file.path := by
  obtain ⟨file, saved, hidden⟩ := hidden
  exact ⟨file, saved, CodeFile.dots_of_meetsHidden tree hidden⟩

end Act

/-- The disk after `acts` in order, the first of which begins on `disk`. -/
def afterActs (wording : Wording) (disk : Disk) (acts : List Act) : Disk :=
  acts.foldl (fun disk act => act.perform wording disk) disk

variable {wording : Wording} {disk : Disk}

/-- Acts in `next` begin on the disk that those in `past` have left. -/
theorem afterActs_append (past next : List Act) :
    afterActs wording disk (past ++ next) = afterActs wording (afterActs wording disk past) next := by
  simp [afterActs]

/-- A run of `acts` that begins on a tree ends on a tree. -/
theorem isTree_afterActs (tree : disk.IsTree) (acts : List Act) :
    (afterActs wording disk acts).IsTree := by
  induction acts generalizing disk with
  | nil => exact tree
  | cons act rest ih => exact ih (Act.isTree_perform tree)

/-- A run in which no act `MeetsHidden` keeps all files. -/
theorem keepsFiles_afterActs {acts : List Act}
    (h : ∀ past act, past ++ [act] <+: acts → ¬act.MeetsHidden (afterActs wording disk past)) :
    Disk.KeepsFiles disk (afterActs wording disk acts) := by
  induction acts generalizing disk with
  | nil => exact .refl disk
  | cons act rest ih =>
    -- the first act is one after no acts, and the rest of the run starts where it ends
    have first : Disk.KeepsFiles disk (act.perform wording disk) :=
      Act.keepsFiles_perform_iff.2 (h [] act (by simp))
    refine first.trans (ih fun past next part => ?_)
    exact h (act :: past) next (by simpa using part)

/-- Every file that is there at some point of a run of `acts` keeps its bytes from then on exactly if no act of
the run `MeetsHidden`, and on a tree such an act saves to a path that goes up somewhere. -/
theorem filesKept_iff (wording : Wording) (disk : Disk) (acts : List Act) :
    ((∀ past next, past ++ next <+: acts →
        Disk.KeepsFiles (afterActs wording disk past) (afterActs wording disk (past ++ next))) ↔
      ∀ past act, past ++ [act] <+: acts → ¬act.MeetsHidden (afterActs wording disk past)) ∧
    (disk.IsTree → ∀ past act, past ++ [act] <+: acts →
      act.MeetsHidden (afterActs wording disk past) →
      ∃ file, act.savedFile? (afterActs wording disk past) = some file ∧
        ['.', '.'] ∈ Disk.names file.path) := by
  refine ⟨⟨fun kept past act part => ?_, fun safe past next part => ?_⟩, ?_⟩
  · -- a run of one act more shows what that act keeps
    have step := kept past [act] part
    rw [afterActs_append] at step
    exact Act.keepsFiles_perform_iff.1 step
  · -- from a point of the run on, the acts are those of the rest, each with the whole past before it
    rw [afterActs_append]
    refine keepsFiles_afterActs fun done act later => ?_
    rw [← afterActs_append]
    refine safe (past ++ done) act ?_
    rw [List.append_assoc]
    exact ((List.prefix_append_right_inj past).2 later).trans part
  · intro tree past act _ hidden
    exact Act.dots_of_meetsHidden (isTree_afterActs tree past) hidden

/-- Saving to `x/../f` without permission replaces the content of `f` where there is no `x`. -/
theorem not_filesKept :
    ¬∀ past next, past ++ next <+: [Act.save ⟨"x/../f", "<?php\n"⟩] →
      Disk.KeepsFiles
        (afterActs .standard
          (Disk.fresh.put ["f", "work"] (.file (Text.encode "hand written\n"))) past)
        (afterActs .standard
          (Disk.fresh.put ["f", "work"] (.file (Text.encode "hand written\n"))) (past ++ next)) := by
  intro kept
  -- the directory x is made on the way, and then the path leads to f
  have still := kept [] _ List.prefix_rfl ["f", "work"] (Text.encode "hand written\n")
    (by decide +kernel)
  revert still
  decide +kernel

end LabelledEnum
