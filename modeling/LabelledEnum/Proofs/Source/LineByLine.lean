import LabelledEnum.Proofs.Source.Page
import Mathlib.Data.List.TakeWhile

/-!
# A page line by line

A page keeps its text, a level and whether its line has begun. What operations write can be said without it: cut
at the operations that end a line, they fall into groups, and each group makes one line.

* `Page.written`, `Page.levelAfter`: what operations write, and the level of indentation that they lead to.
* `Page.lineOf`, `Page.linesFrom`: the line that a group of operations makes, and the lines that groups make one
  after the other.
* `Page.Shows`: the page shows a text and the line of a group, which has not been ended.
* `Page.Shows.step`, `Page.Shows.newline`: what one operation makes of such a page.
* `Page.text_run_line_by_line`: the text that operations write.
-/

namespace LabelledEnum

/-- Only the beginning of `text` decides whether it is indented. -/
theorem Text.indent_append {text : Text} (filled : text ≠ []) (spaces : Nat) (more : Text) :
    (text ++ more).indent spaces = text.indent spaces ++ more := by
  rw [indent, indent, if_neg filled, if_neg (List.append_ne_nil_of_left_ne_nil filled more),
    List.append_assoc]

namespace Page

/-- The texts that `ops` write, one after the other. -/
def written (ops : List Op) : Text := ops.flatMap Op.written

/-- The level of indentation to which `ops` lead from `level`. -/
def levelAfter (level : Nat) (ops : List Op) : Nat := ops.foldl Op.levelAfter level

/-- The operations in `ops` before the first one that writes something. -/
def opening (ops : List Op) : List Op := ops.takeWhile (·.written = [])

/-- The line that `group` makes from `level` on: what it writes, behind the indentation of the level at which it
begins to write. -/
def lineOf (width level : Nat) (group : List Op) : Text :=
  (written group).indent (levelAfter level (opening group) * width)

/-- The lines that groups of operations make, each from the level to which the groups before it lead, the first
from `level`. -/
def linesFrom (width level : Nat) : List (List Op) → List Text
  | [] => []
  | group :: rest => lineOf width level group :: linesFrom width (levelAfter level group) rest

variable {width level : Nat} {group : List Op} {op : Op} {page : Page} {earlier : Text}

/-! ## A group and one more operation -/

theorem written_concat (group : List Op) (op : Op) :
    written (group ++ [op]) = written group ++ op.written := by
  simp [written]

theorem levelAfter_concat (level : Nat) (group : List Op) (op : Op) :
    levelAfter level (group ++ [op]) = op.levelAfter (levelAfter level group) := by
  simp [levelAfter]

/-- Nothing is written by `group` exactly if none of its operations writes anything. -/
theorem written_eq_nil_iff :
    written group = [] ↔ ∀ op ∈ group, decide (op.written = []) = true := by
  simp [written, List.flatMap_eq_nil_iff]

/-- The first operation `op` that writes something ends the opening. -/
theorem opening_concat (silent : written group = []) (spoken : op.written ≠ []) :
    opening (group ++ [op]) = group := by
  rw [opening, List.takeWhile_append_of_pos (written_eq_nil_iff.1 silent),
    List.takeWhile_cons_of_neg (by simpa using spoken), List.append_nil]

/-- What comes after that operation, in `more`, does not change the opening. -/
theorem opening_append (begun : written group ≠ []) (more : List Op) :
    opening (group ++ more) = opening group := by
  unfold opening
  rw [List.takeWhile_append, if_neg]
  intro whole
  have all := (List.takeWhile_prefix _).eq_of_length whole
  exact begun (written_eq_nil_iff.2 (List.takeWhile_eq_self_iff.1 all))

/-- The first text of a line stands behind the indentation that `group` has reached there. Every other text just
follows. -/
theorem lineOf_concat (width level : Nat) (group : List Op) (op : Op) :
    lineOf width level (group ++ [op]) =
      lineOf width level group ++
        if written group = [] then op.written.indent (levelAfter level group * width)
        else op.written := by
  unfold lineOf
  rw [written_concat]
  by_cases silent : written group = []
  · rw [silent, if_pos rfl, Text.indent_nil, List.nil_append, List.nil_append]
    by_cases nothing : op.written = []
    · rw [nothing, Text.indent_nil, Text.indent_nil]
    · rw [opening_concat silent nothing]
  · rw [opening_append silent, Text.indent_append silent, if_neg silent]

/-! ## A page and one more operation -/

/-- The `page` shows the text `earlier` and, after it, the line that `group` makes, which has not been ended. -/
structure Shows (page : Page) (width level : Nat) (earlier : Text) (group : List Op) : Prop where
  /-- The line stands after the earlier text. -/
  text : page.text = earlier ++ lineOf width level group
  /-- The line has begun when something has been written on it. -/
  atLineStart : page.atLineStart = true ↔ written group = []
  /-- The level is the one that the group leads to. -/
  level : page.level = levelAfter level group
  /-- The width of a level is the given one. -/
  width : page.width = width

/-- An operation `op` that does not end the line adds to it what it adds to the line of the group. -/
theorem Shows.step (shown : page.Shows width level earlier group) (inside : op ≠ .newline) :
    (page.step op).Shows width level earlier (group ++ [op]) := by
  obtain ⟨wide, deep, start, text⟩ := step_eq_of_ne_newline inside page
  exact {
    text := by
      simp only [text, shown.text, shown.atLineStart, shown.level, shown.width, lineOf_concat,
        List.append_assoc]
    atLineStart := by rw [start, shown.atLineStart, written_concat, List.append_eq_nil_iff]
    level := by rw [deep, shown.level, levelAfter_concat]
    width := wide.trans shown.width }

/-- After the end of a line the next one begins at the level that `group` leads to. -/
theorem Shows.newline (shown : page.Shows width level earlier group) :
    (page.step .newline).Shows width (levelAfter level group)
      (earlier ++ lineOf width level group ++ ['\n']) [] where
  text := by
    rw [text_step_newline, shown.text]
    exact (List.append_nil _).symm
  atLineStart := iff_of_true rfl rfl
  level := shown.level
  width := shown.width

/-! ## A run -/

private theorem linesFrom_ne_nil {groups : List (List Op)} (filled : groups ≠ []) :
    linesFrom width level groups ≠ [] := by
  obtain ⟨first, rest, rfl⟩ := List.exists_cons_of_ne_nil filled
  exact List.cons_ne_nil _ _

private theorem modifyHead_nil_append (groups : List (List Op)) :
    groups.modifyHead ([] ++ ·) = groups :=
  congrFun List.modifyHead_id groups

/-- The operations `ops` go on with the line that a page shows, up to the first that ends it, and then make
lines of their own. -/
theorem Shows.text_run (shown : page.Shows width level earlier group) (ops : List Op) :
    (page.run ops).text =
      earlier ++ List.intercalate ['\n']
        (linesFrom width level ((ops.splitOn .newline).modifyHead (group ++ ·))) := by
  induction ops generalizing page level earlier group with
  | nil => simpa [run, linesFrom] using shown.text
  | cons op rest ih =>
    rw [run, List.foldl_cons, ← run, List.splitOn_cons_eq_if_modifyHead]
    by_cases ends : op = .newline
    · -- the group is complete, and a new one begins after its line
      subst ends
      rw [ih shown.newline, modifyHead_nil_append, if_pos (beq_self_eq_true _),
        List.modifyHead_cons, List.append_nil, linesFrom,
        List.intercalate_cons_of_ne_nil (linesFrom_ne_nil (List.splitOn_ne_nil _ _))]
      simp only [List.append_assoc]
    · -- the operation joins the group
      rw [ih (shown.step ends), if_neg (by simpa using ends), List.modifyHead_modifyHead]
      simp only [Function.comp_def, List.append_assoc, List.singleton_append]

/-- A level changed within a line counts from the next line on, a line feed in a text does not begin one, and
going out from the outermost level has no effect. -/
example :
    (run { width := 2 } ([.dedent, .indent, .write [], .indent, .write "a\nb", .indent] ++
      line " = 1;" ++ [.newline, .write "c", .newline] ++ List.replicate 4 .dedent ++
      line "d")).text = ("    a\nb = 1;\n\n      c\nd\n" : Text) := by
  decide

end Page

end LabelledEnum
