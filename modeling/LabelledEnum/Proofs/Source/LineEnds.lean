import LabelledEnum.Proofs.Source.Docblock

/-!
# How the lines of a docblock end

Free text is written without the blanks at the end of each of its lines. So a line of the comment ends with a
blank only where nothing of the free text is left behind a lead, since every lead ends with a space. A line of
the description is then written without its lead, but a line of the author keeps it.

* `Text.trimEnd_ne_nil_of_lines_trim`: the first line of a trimmed text is not blank.
* `Docblock.trimEnd_content`, `Docblock.content_eq_nil_iff`: breaking up marks does not change how a line ends.
* `Docblock.isRagged`, `Docblock.filter_isRagged_lines`: the lines of the comment that end with a blank.
* `Docblock.every_line_trimmed_iff`: there is none exactly if the author has no blank line.
* `Docblock.not_every_line_trimmed`: an author with an empty line.
-/

namespace LabelledEnum

/-- The line `first` of a trimmed text is not blank, since it begins with a character that is not. -/
theorem Text.trimEnd_ne_nil_of_lines_trim {text first : Text} {rest : List Text}
    (cut : Text.lines text.trim = first :: rest) : first.trimEnd ≠ [] := by
  obtain ⟨c, others, begins⟩ : ∃ c others, text.trim = c :: others := by
    refine List.exists_cons_of_ne_nil fun empty => ?_
    rw [empty] at cut
    cases cut
  have unblank : isBlank c = false := isBlank_of_mem_head?_trim (by rw [begins]; rfl)
  rw [begins] at cut
  have inside : c ∈ first := by
    refine mem_of_lines_cons cut ?_ ?_ <;>
      · rintro rfl
        exact absurd unblank (by decide)
  intro blank
  rw [trimEnd_eq_nil_iff.1 blank c inside] at unblank
  cases unblank

namespace Docblock

/-! ## Free text -/

/-- Breaking up marks does not change how `text` ends. -/
theorem getLast?_escape (text : Text) : (escape text).getLast? = text.getLast? := by
  fun_induction escape text with
  | case1 => rfl
  | case2 rest ih => simp only [List.getLast?_cons, ih, Option.getD_some]
  | case3 c rest _ ih => rw [List.getLast?_cons, List.getLast?_cons, ih]

/-- What is written of `line` does not end with a blank. -/
theorem trimEnd_content (line : Text) : (content line).trimEnd = content line := by
  rw [content, Text.trimEnd_eq_self_iff, getLast?_escape, ← Text.trimEnd_eq_self_iff,
    Text.trimEnd_trimEnd]

/-- Nothing is written of `line` exactly if it is blank. -/
theorem content_eq_nil_iff {line : Text} : content line = [] ↔ line.trimEnd = [] := by
  rw [content, ← List.head?_eq_none_iff, head?_escape, List.head?_eq_none_iff]

/-! ## Lines -/

/-- Whether `line` ends with a blank, so that it is longer than its own right trim. -/
def isRagged (line : Text) : Bool := line.trimEnd ≠ line

theorem isRagged_eq_false_iff {line : Text} : isRagged line = false ↔ line.trimEnd = line := by
  simp [isRagged]

/-- Behind a `lead`, which ends with a space, a line is ragged if nothing is written. -/
theorem isRagged_lead_append_content {lead : Text} (listed : lead ∈ leads) (line : Text) :
    isRagged (lead ++ content line) = decide (line.trimEnd = []) := by
  by_cases blank : line.trimEnd = []
  · have spaced : ∀ lead ∈ leads, isRagged lead = true := by decide
    rw [decide_eq_true blank, content_eq_nil_iff.2 blank, List.append_nil]
    exact spaced lead listed
  · have filled : content line ≠ [] := mt content_eq_nil_iff.1 blank
    rw [decide_eq_false blank, isRagged_eq_false_iff, Text.trimEnd_append_eq_self_iff filled]
    exact trimEnd_content line

/-- In the description, a `line` of which nothing is written has no lead. -/
theorem isRagged_descriptionLine (line : Text) : isRagged (descriptionLine line) = false := by
  unfold descriptionLine
  split
  · decide
  · next filled =>
    rw [isRagged_lead_append_content (by simp [leads])]
    exact decide_eq_false (mt content_eq_nil_iff.2 filled)

/-- The line for a line of the author of which nothing is written. -/
def emptyAuthorLine : Text := " *         "

/-- The number of lines of `author`, without the blanks around it, that are blank. -/
def blankAuthorLines (author : Text) : Nat := (Text.lines author.trim).countP (·.trimEnd = [])

/-- Among the lines for `author`, those are ragged that are written for blank lines. -/
theorem filter_isRagged_authorLines (author : Text) :
    (authorLines author).filter isRagged =
      List.replicate (blankAuthorLines author) emptyAuthorLine := by
  unfold authorLines blankAuthorLines
  split
  · next none => rw [none]; rfl
  · next first rest cut =>
    have filled := Text.trimEnd_ne_nil_of_lines_trim cut
    have tagged : isRagged (" * @author " ++ content first) = false := by
      rw [isRagged_lead_append_content (by simp [leads])]
      exact decide_eq_false filled
    have others : (rest.map (" *         " ++ content ·)).filter isRagged =
        (rest.filter (·.trimEnd = [])).map (" *         " ++ content ·) := by
      rw [List.filter_map]
      refine congrArg _ (List.filter_congr fun line _ => ?_)
      exact isRagged_lead_append_content (by simp [leads]) line
    rw [cut, List.countP_cons_of_neg (by simpa using filled),
      List.filter_cons_of_neg (Bool.eq_false_iff.1 tagged), others, List.eq_replicate_iff,
      List.length_map, List.countP_eq_length_filter]
    refine ⟨rfl, fun written member => ?_⟩
    -- all that is left of a blank line is the lead
    obtain ⟨line, kept, rfl⟩ := List.mem_map.1 member
    have blank : line.trimEnd = [] := by simpa using (List.mem_filter.1 kept).2
    rw [content_eq_nil_iff.2 blank]
    rfl

/-- Among the lines of the comment, those are ragged that are written for blank lines of `author`. -/
theorem filter_isRagged_lines (author description : Text) :
    (lines author description).filter isRagged =
      List.replicate (blankAuthorLines author) emptyAuthorLine := by
  have described : (descriptionLines description).filter isRagged = [] := by
    refine List.filter_eq_nil_iff.2 fun written member => ?_
    obtain ⟨line, -, rfl⟩ := List.mem_map.1 member
    simp [isRagged_descriptionLine]
  have opens : isRagged opening = false := by decide
  have closes : isRagged closing = false := by decide
  rw [lines, List.filter_cons_of_neg (Bool.eq_false_iff.1 opens), List.filter_append, List.filter_append,
    filter_isRagged_authorLines, described, List.append_nil, List.filter_singleton, closes]
  exact List.append_nil _

/-! ## The comment -/

/-- Between two lines at the outermost level of `page`, which is where the header of a class has its comment,
every line of the comment that is written is its own right trim exactly if no line of the trimmed `author` is
blank. For each blank one there is one line of the comment that ends with blanks, and there is no other. -/
theorem every_line_trimmed_iff {page : Page} (start : page.atLineStart = true)
    (outermost : page.level = 0) (author description : Text) :
    ∃ comment : Text,
      (page.run ((lines author description).flatMap Page.line)).text = page.text ++ comment ∧
      comment.splitOn '\n' = lines author description ++ [[]] ∧
      ((∀ line ∈ comment.splitOn '\n', Text.trimEnd line = line) ↔
        ∀ line ∈ Text.lines author.trim, line.trimEnd ≠ []) ∧
      (comment.splitOn '\n').filter isRagged =
        List.replicate (blankAuthorLines author) emptyAuthorLine := by
  have cut : (Text.unlines (lines author description)).splitOn '\n' = lines author description ++ [[]] :=
    Text.splitOn_unlines fun line => newline_notMem_of_mem_lines
  have ragged : ((Text.unlines (lines author description)).splitOn '\n').filter isRagged =
      List.replicate (blankAuthorLines author) emptyAuthorLine := by
    rw [cut, List.filter_append, filter_isRagged_lines]
    exact List.append_nil _
  refine ⟨Text.unlines (lines author description),
    (Page.writes_outermost page.width _ page rfl outermost start).text, cut, ?_, ragged⟩
  -- there is no ragged line exactly if the number of blank lines is zero
  calc (∀ line ∈ (Text.unlines (lines author description)).splitOn '\n', Text.trimEnd line = line)
      ↔ ((Text.unlines (lines author description)).splitOn '\n').filter isRagged = [] := by
        simp only [List.filter_eq_nil_iff, Bool.not_eq_true, isRagged_eq_false_iff]
    _ ↔ blankAuthorLines author = 0 := by rw [ragged, List.replicate_eq_nil_iff]
    _ ↔ ∀ line ∈ Text.lines author.trim, line.trimEnd ≠ [] := by
        rw [blankAuthorLines, List.countP_eq_zero]
        simp only [decide_eq_true_eq, ne_eq]

/-- Blanks of all kinds at the ends of lines are not written, and neither is a line of blanks in the
description. -/
theorem every_line_trimmed_iff_amid_blanks :
    let page := Page.run { width := 2 } (Page.line "<?php")
    let author : Text := "\r\n Jo\u3000\t\n*/ Lee \r\n"
    let description : Text := " Plans\u00a0\n\u2003\n\r\nmore*/ "
    page.atLineStart = true ∧ page.level = 0 ∧
      ∃ comment : Text,
        (page.run ((lines author description).flatMap Page.line)).text = page.text ++ comment ∧
        ∀ line ∈ comment.splitOn '\n', Text.trimEnd line = line := by
  intro page author description
  obtain ⟨comment, written, -, trimmed, -⟩ := @every_line_trimmed_iff page rfl rfl author description
  exact ⟨rfl, rfl, comment, written, trimmed.2 (by decide)⟩

/-- The line that is written for an empty line of the author ends with spaces. -/
theorem not_every_line_trimmed :
    ¬∀ author description : Text, ∀ line ∈ lines author description, line.trimEnd = line := by
  intro every
  exact absurd (every "Jane\n\nJoe" "Plans" emptyAuthorLine (by decide)) (by decide)

end Docblock

end LabelledEnum
