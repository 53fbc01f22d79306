import LabelledEnum.Text.Basic

/-!
# Columns

Where the characters of a line stand when the line is shown. A tab reaches to the next tab stop. Control
characters and escape sequences take no room.

* `Cursor`: a place on a line that is shown.
* `Text.columns`: how many columns a text takes at the start of a line.
* `Text.expandTabs`: the text with spaces in place of its tabs.
-/

namespace LabelledEnum

/-- Tab stops are this many columns apart. -/
def tabStop : Nat := 4

/-- The character that opens an escape sequence. -/
def escapeOpening : Char := '\x1b'

/-- The character that closes an escape sequence. -/
def escapeClosing : Char := 'm'

/-- Whether `c` has the Unicode category `Cc`. -/
def isControl (c : Char) : Bool := c.toNat < 0x20 ∨ 0x7F ≤ c.toNat ∧ c.toNat < 0xA0

/-- A place on a line that is shown. Only what stands before it decides how many columns a character takes. -/
structure Cursor where
  /-- The columns to the left of the place. -/
  column : Nat
  /-- Whether the place is inside an escape sequence, between `escapeOpening` and `escapeClosing`. -/
  inEscape : Bool
  deriving DecidableEq, Repr

namespace Cursor

/-- The place before the first character of a line. -/
def start : Cursor := ⟨0, false⟩

/-- The columns that `c` takes when it is shown at `cursor`. A tab goes on to the next `tabStop`. -/
def width (cursor : Cursor) (c : Char) : Nat :=
  if cursor.inEscape then 0
  else if c = '\t' then tabStop - cursor.column % tabStop
  else if isControl c then 0
  else 1

/-- The place after `c` when `c` is shown at `cursor`. -/
def advance (cursor : Cursor) (c : Char) : Cursor where
  column := cursor.column + cursor.width c
  inEscape := if cursor.inEscape then c ≠ escapeClosing else c = escapeOpening

/-- What is shown for `c` at `cursor`: a tab as blank columns, all else as it is. -/
def shown (cursor : Cursor) (c : Char) : Text :=
  if c = '\t' then List.replicate (cursor.width c) ' ' else [c]

end Cursor

namespace Text

/-- The number of columns that `text` takes when its first character is shown at `start`. -/
def columns (text : Text) : Nat := (text.foldl Cursor.advance .start).column

/-- What is shown of a text whose first character stands at `cursor`. -/
def expandTabsFrom (cursor : Cursor) : Text → Text
  | [] => []
  | c :: rest => cursor.shown c ++ expandTabsFrom (cursor.advance c) rest

/-- The `text` with spaces up to the next `tabStop` in place of each tab. A tab inside an escape sequence takes
no columns and is left out. -/
def expandTabs (text : Text) : Text := expandTabsFrom .start text

end Text

end LabelledEnum
