import LabelledEnum.Proofs.Text.Lines
import LabelledEnum.Source.Page

/-!
# The lines that operations write

What operations on a page write depends on the page only through its indentation, as long as they begin and
end between two lines.

* `Text.indent`: a line behind its indentation.
* `Page.Op.written`, `Page.Op.levelAfter`, `Page.step_eq_of_ne_newline`: what one operation does within a line.
* `Page.Writes`: the operations write these lines and leave the indentation as it is.
* `Page.Writes.append`, `Page.Writes.indented`, `Page.writes_line`: how such operations are put together.
-/

namespace LabelledEnum

/-- The `text` behind so many `spaces`, unless it is empty. -/
def Text.indent (spaces : Nat) (text : Text) : Text :=
  if text = [] then [] else List.replicate spaces ' ' ++ text

@[simp]
theorem Text.indent_zero (text : Text) : text.indent 0 = text := by
  unfold indent
  split
  · next empty => exact empty.symm
  · rfl

@[simp]
theorem Text.indent_nil (spaces : Nat) : Text.indent spaces [] = [] := rfl

namespace Page

/-! ## One operation -/

/-- The text that the operation writes, without any indentation. -/
def Op.written : Op → Text
  | .write text => text
  | _ => []

/-- The level of indentation to which the operation leads from `level`. None is further out than the outermost
one. -/
def Op.levelAfter (level : Nat) : Op → Nat
  | .indent => level + 1
  | .dedent => level - 1
  | _ => level

/-- What the operation `op` does to `page` unless it ends the line. -/
theorem step_eq_of_ne_newline {op : Op} (inside : op ≠ .newline) (page : Page) :
    (page.step op).width = page.width ∧
      (page.step op).level = op.levelAfter page.level ∧
      ((page.step op).atLineStart = true ↔ page.atLineStart = true ∧ op.written = []) ∧
      (page.step op).text = page.text ++
        if page.atLineStart then op.written.indent (page.level * page.width) else op.written := by
  cases op with
  | indent => simp [step, Op.written, Op.levelAfter, text]
  | dedent => simp [step, Op.written, Op.levelAfter, text]
  | newline => exact absurd rfl inside
  | write text =>
    cases text with
    | nil => simp [Op.written, Op.levelAfter]
    | cons c rest =>
      cases start : page.atLineStart <;>
        simp [step, start, Op.written, Op.levelAfter, Page.text, Text.indent, indentation]

@[simp]
theorem text_step_newline (page : Page) : (page.step .newline).text = page.text ++ ['\n'] := by
  simp [step, text]

/-! ## Operations between two lines -/

/-- The page `after` is `page` with `lines` after its text, and both are between two lines. -/
structure Extends (page after : Page) (lines : List Text) : Prop where
  /-- The width of a level is the same. -/
  width : after.width = page.width
  /-- The level is the same. -/
  level : after.level = page.level
  /-- Nothing is written on the current line. -/
  atLineStart : after.atLineStart = true
  /-- The lines stand after the text that was there. -/
  text : after.text = page.text ++ Text.unlines lines

/-- On each page between two lines, with levels of this `width` and at this `level`, the operations `ops` write
`lines`. -/
def Writes (width level : Nat) (ops : List Op) (lines : List Text) : Prop :=
  ∀ page : Page, page.width = width → page.level = level → page.atLineStart = true →
    page.Extends (page.run ops) lines

variable {width level : Nat} {ops first second : List Op} {lines before after : List Text}

theorem writes_nil : Writes width level [] [] := fun _ _ _ start =>
  { width := rfl, level := rfl, atLineStart := start, text := (List.append_nil _).symm }

/-- Operations in `first` and then in `second` write their lines one after the other. -/
theorem Writes.append (former : Writes width level first before)
    (latter : Writes width level second after) :
    Writes width level (first ++ second) (before ++ after) := by
  intro page wide deep start
  -- the page between the two runs is between two lines again, with the same indentation
  have once := former page wide deep start
  have twice := latter _ (once.width.trans wide) (once.level.trans deep) once.atLineStart
  rw [run_append]
  exact {
    width := twice.width.trans once.width
    level := twice.level.trans once.level
    atLineStart := twice.atLineStart
    text := by rw [twice.text, once.text, Text.unlines_append, List.append_assoc] }

theorem writes_newline : Writes width level [.newline] [[]] := fun page _ _ _ =>
  { width := rfl, level := rfl, atLineStart := rfl, text := text_step_newline page }

/-- The operations of `line` write the line `content`, indented if it is not empty. -/
theorem writes_line (width level : Nat) (content : Text) :
    Writes width level (line content) [content.indent (level * width)] := by
  rintro page rfl rfl start
  have inside : Op.write content ≠ .newline := nofun
  obtain ⟨wide, deep, -, text⟩ := step_eq_of_ne_newline inside page
  exact {
    width := wide
    level := deep
    atLineStart := rfl
    text := by
      rw [line, run, List.foldl_cons, List.foldl_cons, List.foldl_nil, text_step_newline, text,
        if_pos start, Text.unlines, List.flatMap_singleton, List.append_assoc]
      rfl }

/-- Several lines, with the texts `contents`, are written one after the other. -/
theorem writes_flatMap_line (width level : Nat) (contents : List Text) :
    Writes width level (contents.flatMap line) (contents.map (Text.indent (level * width))) := by
  induction contents with
  | nil => exact writes_nil
  | cons content rest ih => exact (writes_line width level content).append ih

/-- At the outermost level, the lines `contents` are written as they are. -/
theorem writes_outermost (width : Nat) (contents : List Text) :
    Writes width 0 (contents.flatMap line) contents := by
  have written := writes_flatMap_line width 0 contents
  rwa [Nat.zero_mul, funext Text.indent_zero, List.map_id'] at written

/-- What is written one level further in is written by `indented` here. -/
theorem Writes.indented (inner : Writes width (level + 1) ops lines) :
    Writes width level (indented ops) lines := by
  rintro page wide rfl start
  -- going in changes the level alone, and going out changes it back
  have inside := inner (page.step .indent) wide rfl start
  have run : page.run (Page.indented ops) = ((page.step .indent).run ops).step .dedent := by
    unfold Page.indented
    rw [List.cons_append, Page.run, List.foldl_cons, List.foldl_append]
    rfl
  rw [run]
  exact {
    width := inside.width
    level := congrArg (· - 1) inside.level
    atLineStart := inside.atLineStart
    text := inside.text }

theorem Writes.text_run (written : Writes width 0 ops lines) :
    (run { width := width } ops).text = Text.unlines lines :=
  (written { width := width } rfl rfl rfl).text

end Page

end LabelledEnum
