import LabelledEnum.Proofs.Source.EnumClass
import LabelledEnum.Proofs.Text.Bytes

/-!
# Room for a page

A run that is given only so much room counts the bytes of what it writes. It counts all of them, so it comes to
its end exactly if there is room for the text that it leads to.

* `Text.utf8Length_indent`, `Text.utf8Length_le_unlines`: the bytes of an indented line, and those of a line among
  others.
* `Page.utf8Length_text_step`, `Page.utf8Length_text_le_run`: what operations add to the bytes of a page.
* `Page.run?_eq`: the run where the text has only so much room.
* `EnumClass.source?_eq`, `EnumClass.indentWidth_le_utf8Length_source`: the source of a class where it has only so
  much room, and how much it needs at least.
-/

namespace LabelledEnum

namespace Text

/-- A space takes one byte, so `spaces` of them take as many. -/
theorem utf8Length_replicate_space (spaces : Nat) : utf8Length (List.replicate spaces ' ') = spaces := by
  rw [utf8Length_eq_length, List.length_replicate]
  intro c inside
  rw [List.eq_of_mem_replicate inside]
  decide

/-- The indentation of `text` takes a byte for each of its `spaces`, but only a text that is not empty has one. -/
theorem utf8Length_indent (spaces : Nat) (text : Text) :
    (text.indent spaces).utf8Length = (if text = [] then 0 else spaces) + text.utf8Length := by
  unfold indent
  split
  · next empty =>
    rw [empty]
    rfl
  · rw [utf8Length_append, utf8Length_replicate_space]

/-- Each line of `lines` takes its bytes in the text that `unlines` makes of them. -/
theorem utf8Length_le_unlines {line : Text} {lines : List Text} (member : line ∈ lines) :
    line.utf8Length ≤ (unlines lines).utf8Length := by
  obtain ⟨before, after, rfl⟩ := List.append_of_mem member
  exact utf8Length_le_of_isInfix ⟨unlines before, '\n' :: unlines after, by simp [unlines]⟩

end Text

namespace Page

/-- The operation makes the text of `page` longer by the bytes that `growth` counts. -/
theorem utf8Length_text_step (page : Page) (op : Op) :
    (page.step op).text.utf8Length = page.text.utf8Length + page.growth op := by
  cases op with
  | newline =>
    rw [text_step_newline, Text.utf8Length_append]
    rfl
  | indent => rfl
  | dedent => rfl
  | write text =>
    have inside : Op.write text ≠ .newline := nofun
    obtain ⟨-, -, -, written⟩ := step_eq_of_ne_newline inside page
    rw [written, Text.utf8Length_append]
    cases text <;> cases start : page.atLineStart <;>
      simp [growth, start, Op.written, Text.utf8Length_indent]

/-- A run of `page` leaves the bytes that are already there. -/
theorem utf8Length_text_le_run (page : Page) (ops : List Op) :
    page.text.utf8Length ≤ (page.run ops).text.utf8Length := by
  induction ops generalizing page with
  | nil => exact Nat.le_refl _
  | cons op rest ih =>
    have grown := ih (page.step op)
    rw [utf8Length_text_step] at grown
    exact Nat.le_trans (Nat.le_add_right _ _) grown

/-- With `room` for so many more bytes on `page`, `run?` comes to the page that `run` leads to if the text of that page
has room, and to no page if it has not. -/
theorem run?_eq (room : Nat) (page : Page) (ops : List Op) :
    page.run? room ops =
      if (page.run ops).text.utf8Length ≤ page.text.utf8Length + room then some (page.run ops)
      else none := by
  induction ops generalizing room page with
  | nil => exact (if_pos (Nat.le_add_right _ _)).symm
  | cons op rest ih =>
    have grown := utf8Length_text_step page op
    change _ = if ((page.step op).run rest).text.utf8Length ≤ _ then some ((page.step op).run rest) else none
    rw [run?, ih, grown]
    by_cases fits : page.growth op ≤ room
    · rw [if_pos fits, Nat.add_assoc, Nat.add_sub_cancel' fits]
    · -- the text does not get shorter after the operation that has no room
      have kept := utf8Length_text_le_run (page.step op) rest
      rw [if_neg fits, if_neg (by omega)]

end Page

namespace EnumClass

variable (style : Style) (request : CheckedRequest) (constants : List Constant)

/-- `source?` is `source` if there is `room` for all its bytes, and there is no source otherwise. -/
theorem source?_eq (room : Nat) :
    source? room style request constants =
      if (source style request constants).utf8Length ≤ room then some (source style request constants)
      else none := by
  have empty : ({ width := style.indentWidth } : Page).text.utf8Length = 0 := rfl
  rw [source?, Page.run?_eq, empty, Nat.zero_add]
  change Option.map Page.text (if (source style request constants).utf8Length ≤ room then _ else _) = _
  split <;> rfl

/-- The source of a class needs as many bytes as `style.indentWidth` at least, since the table of labels begins with a
line one level in. -/
theorem indentWidth_le_utf8Length_source :
    style.indentWidth ≤ (source style request constants).utf8Length := by
  obtain ⟨opening, listed, filled⟩ : ∃ opening : Text,
      opening.indent style.indentWidth ∈ tableLines style.indentWidth style.listProperty constants ∧
        opening ≠ [] := by
    unfold tableLines
    split
    · exact ⟨_, List.mem_singleton.2 rfl, nofun⟩
    · exact ⟨_, List.mem_cons_self, nofun⟩
  have inside : opening.indent style.indentWidth ∈
      headLines style request ++ openingBrace :: bodyLines style request.start constants := by
    simp [bodyLines, memberLines, listed]
  have bytes := Text.utf8Length_le_unlines inside
  rw [Text.utf8Length_indent, if_neg filled, ← source_eq_unlines] at bytes
  omega

end EnumClass

end LabelledEnum
