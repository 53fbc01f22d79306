import LabelledEnum.Text.Basic

/-!
# Pages

A page is source text in the making. It keeps track of the indentation, which is written in front of
the first text of a line, so that a line without text stays empty.

* `Page.Op`: what can be done to a page.
* `Page.step`, `Page.run`: the page after one and after several operations.
* `Page.growth`, `Page.run?`: how much longer an operation makes the text, and a run where it has only so much
  room.
* `Page.text`: the text on the page.
* `Page.line`: the operations that write a whole line.
* `Page.step_write_nil`: writing the empty text changes nothing.
-/

namespace LabelledEnum

/-- Source text in the making. Operations of type `Page.Op` make it longer. -/
structure Page where
  /-- The spaces of one level of indentation. -/
  width : Nat
  /-- The current level of indentation. -/
  level : Nat := 0
  /-- Whether nothing has been written on the current line. -/
  atLineStart : Bool := true
  /-- What has been written, the last piece first. Joined in the other order they are `Page.text`. -/
  pieces : List Text := []
  deriving Repr

namespace Page

/-- What can be done to a page. -/
inductive Op where
  /-- Go one level of indentation in. -/
  | indent
  /-- Go one level of indentation out, if there is one. -/
  | dedent
  /-- End the line. -/
  | newline
  /-- Write `text` on the current line. -/
  | write (text : Text)
  deriving DecidableEq, Repr

/-- The text on `page`. -/
def text (page : Page) : Text := page.pieces.reverse.flatten

/-- The spaces that indent the current line of `page`: `width` of them for each `level`. Whether there is room for them
is for `run?` to ask. -/
def indentation (page : Page) : Text := List.replicate (page.level * page.width) ' '

/-- The page after one operation on `page`. Only a text that is not empty opens a line. -/
def step (page : Page) : Op → Page
  | .indent => { page with level := page.level + 1 }
  | .dedent => { page with level := page.level - 1 }
  | .newline => { page with atLineStart := true, pieces := ['\n'] :: page.pieces }
  | .write [] => page
  | .write (c :: rest) =>
    let opened := if page.atLineStart then page.indentation :: page.pieces else page.pieces
    { page with atLineStart := false, pieces := (c :: rest) :: opened }

/-- The page after the operations `ops` on `page`, in order. -/
def run (page : Page) (ops : List Op) : Page := ops.foldl step page

/-- The number of bytes by which the operation makes the text of `page` longer. Before a text that opens a line come
`level * width` spaces. -/
def growth (page : Page) : Op → Nat
  | .newline => 1
  | .write (c :: rest) =>
    (if page.atLineStart then page.level * page.width else 0) + Text.utf8Length (c :: rest)
  | _ => 0

/-- The page after the operations in order as `run` has it, unless one of them makes the text longer than the `room`
that is left for it, in bytes. The text is never laid out to find that out. -/
def run? (room : Nat) (page : Page) : List Op → Option Page
  | [] => some page
  | op :: rest =>
    if page.growth op ≤ room then run? (room - page.growth op) (page.step op) rest else none

/-- Writes `text` and ends the line. -/
def line (text : Text) : List Op := [.write text, .newline]

/-- The operations `ops` one level further in. -/
def indented (ops : List Op) : List Op := .indent :: ops ++ [.dedent]

/-- Writing the empty text leaves `page` as it is. Not even the line is opened. -/
@[simp]
theorem step_write_nil (page : Page) : page.step (.write []) = page := rfl

/-- Running `first` and then `second` on `page` is running both lists as one. -/
theorem run_append (page : Page) (first second : List Op) :
    page.run (first ++ second) = (page.run first).run second := by
  simp [run]

end Page

end LabelledEnum
