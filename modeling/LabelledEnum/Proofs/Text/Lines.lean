import LabelledEnum.Proofs.Text.Split
import LabelledEnum.Text.Lines

/-!
# Texts made of lines

* `Text.unlines`: the text in which each line is ended by a line feed.
* `Text.splitOn_unlines_append`, `Text.splitOn_unlines`: such a text cut at its line feeds.
* `Text.lines_unlines`, `Text.lines_unlines_eq_self`: the lines of such a text.
* `Text.newline_notMem_of_mem_lines`, `Text.mem_of_lines_cons`: a line of any text has no line feed, and the
  first one begins as the text does.
* `Text.afterLast`, `Text.afterLast_unlines`: the lines after the last one that is equal to a given line.
* `Text.lineBeforeLast?`, `Text.lineBeforeLast?_unlines`: the line before that one.
-/

namespace LabelledEnum.Text

/-- The text with the given `lines`, each ended by a line feed. -/
def unlines (lines : List Text) : Text := lines.flatMap (· ++ ['\n'])

theorem unlines_append (first second : List Text) :
    unlines (first ++ second) = unlines first ++ unlines second :=
  List.flatMap_append

/-- A `text` after some lines is cut as the lines and the text are. -/
theorem splitOn_unlines_append (lines : List Text) (text : Text) :
    (unlines lines ++ text).splitOn '\n' = lines.flatMap (·.splitOn '\n') ++ text.splitOn '\n' := by
  induction lines with
  | nil => rfl
  | cons line rest ih =>
    -- the line feed after the first line is where the text is cut first
    have split : unlines (line :: rest) ++ text = line ++ '\n' :: (unlines rest ++ text) := by
      simp [unlines]
    rw [split, List.splitOn_append_cons_self, ih, List.flatMap_cons, List.append_assoc]

theorem flatMap_splitOn {lines : List Text} (whole : ∀ line ∈ lines, '\n' ∉ line) :
    lines.flatMap (·.splitOn '\n') = lines := by
  induction lines with
  | nil => rfl
  | cons line rest ih =>
    rw [List.forall_mem_cons] at whole
    rw [List.flatMap_cons, List.splitOn_eq_singleton whole.1, ih whole.2, List.singleton_append]

/-- A text made of `lines` without line feeds is cut into these lines and an empty text. -/
theorem splitOn_unlines {lines : List Text} (whole : ∀ line ∈ lines, '\n' ∉ line) :
    (unlines lines).splitOn '\n' = lines ++ [[]] := by
  have cut := splitOn_unlines_append lines []
  rwa [List.append_nil, flatMap_splitOn whole, List.splitOn_nil] at cut

private theorem linesOfPieces_concat_nil (pieces : List Text) :
    linesOfPieces (pieces ++ [[]]) = pieces.map dropReturn := by
  induction pieces with
  | nil => rfl
  | cons piece rest ih =>
    -- what follows a piece is never empty, so the piece is not the last one
    obtain ⟨next, others, follows⟩ :=
      List.exists_cons_of_ne_nil (List.append_ne_nil_of_right_ne_nil rest (List.cons_ne_nil [] []))
    rw [List.cons_append, follows, linesOfPieces, ← follows, ih, List.map_cons]

/-- A text made of `lines` has these lines, without a carriage return at their end. -/
theorem lines_unlines {lines : List Text} (whole : ∀ line ∈ lines, '\n' ∉ line) :
    Text.lines (unlines lines) = lines.map dropReturn := by
  rw [Text.lines, splitOn_unlines whole, linesOfPieces_concat_nil]

/-- A text made of `lines` without carriage returns has these lines. -/
theorem lines_unlines_eq_self {lines : List Text}
    (plain : ∀ line ∈ lines, '\n' ∉ line ∧ '\r' ∉ line) : Text.lines (unlines lines) = lines := by
  have unreturned : lines.map dropReturn = lines.map id :=
    List.map_congr_left fun line member =>
      if_neg fun last => (plain line member).2 (List.mem_of_getLast? last)
  rw [lines_unlines fun line member => (plain line member).1, unreturned, List.map_id]

private theorem exists_mem_of_mem_linesOfPieces {pieces : List Text} {line : Text}
    (member : line ∈ linesOfPieces pieces) : ∃ piece ∈ pieces, line ⊆ piece := by
  fun_induction linesOfPieces pieces with
  | case1 => cases member
  | case2 last empty => cases member
  | case3 last filled =>
    exact ⟨last, List.mem_singleton_self last, List.mem_singleton.1 member ▸ List.Subset.refl _⟩
  | case4 piece next rest ih =>
    rcases List.mem_cons.1 member with rfl | member
    · refine ⟨piece, List.mem_cons_self, ?_⟩
      unfold dropReturn
      split
      · exact List.dropLast_subset piece
      · exact List.Subset.refl piece
    · obtain ⟨found, listed, part⟩ := ih member
      exact ⟨found, List.mem_cons_of_mem _ listed, part⟩

/-- A `line` of a text has no line feed. -/
theorem newline_notMem_of_mem_lines {text line : Text} (member : line ∈ Text.lines text) :
    '\n' ∉ line := by
  obtain ⟨piece, cut, part⟩ := exists_mem_of_mem_linesOfPieces member
  exact fun inside => notMem_of_mem_splitOn cut (part inside)

/-- What begins a text that does not begin with the end of a line, the character `c`, stands in its first
line. -/
theorem mem_of_lines_cons {c : Char} {rest first : Text} {others : List Text}
    (cut : Text.lines (c :: rest) = first :: others) (newline : c ≠ '\n') (carriage : c ≠ '\r') :
    c ∈ first := by
  obtain ⟨piece, pieces, split⟩ :=
    List.exists_cons_of_ne_nil (List.splitOnP_ne_nil (· == '\n') rest)
  have begun : (c :: rest).splitOn '\n' = (c :: piece) :: pieces := by
    rw [List.splitOn_eq_splitOnP, List.splitOnP_cons_eq_if_modifyHead, split]
    simp [newline]
  rw [Text.lines, begun] at cut
  cases pieces with
  | nil =>
    obtain ⟨rfl, -⟩ := List.cons.inj cut
    exact List.mem_cons_self
  | cons next more =>
    obtain ⟨rfl, -⟩ := List.cons.inj cut
    -- only a carriage return is taken from the end of a piece
    unfold dropReturn
    split
    · next last =>
      cases piece with
      | nil => exact absurd (Option.some.inj last) carriage
      | cons d more => exact List.mem_cons_self
    · exact List.mem_cons_self

/-- The part of `text` after its last line that is equal to `mark`, or all of it if there is no such line. -/
def afterLast (mark text : Text) : Text :=
  List.intercalate ['\n'] ((text.splitOn '\n').reverse.takeWhile (· ≠ mark)).reverse

/-- The line before the last line of `text` that is equal to `mark`, if there is one. -/
def lineBeforeLast? (mark text : Text) : Option Text :=
  ((text.splitOn '\n').reverse.dropWhile (· ≠ mark)).tail.head?

section

variable {mark : Text} {after : List Text} (before : List Text) (filled : mark ≠ [])
  (whole : ∀ line ∈ mark :: after, '\n' ∉ line) (unmarked : mark ∉ after)
include filled whole unmarked

/-- From the end, the lines after `mark` come first, and then the mark. -/
private theorem span_reverse_splitOn_unlines :
    ((unlines (before ++ mark :: after)).splitOn '\n').reverse.takeWhile (· ≠ mark) =
        (after ++ [[]]).reverse ∧
      ((unlines (before ++ mark :: after)).splitOn '\n').reverse.dropWhile (· ≠ mark) =
        mark :: (before.flatMap (·.splitOn '\n')).reverse := by
  have cut : (unlines (before ++ mark :: after)).splitOn '\n' =
      before.flatMap (·.splitOn '\n') ++ mark :: (after ++ [[]]) := by
    rw [unlines_append, splitOn_unlines_append, splitOn_unlines whole, List.cons_append]
  have unmarked : ∀ line ∈ (after ++ [[]]).reverse, decide (line ≠ mark) = true := by
    intro line member
    rw [List.mem_reverse, List.mem_append, List.mem_singleton] at member
    rw [decide_eq_true_eq]
    rintro rfl
    exact member.elim unmarked filled
  rw [cut, List.reverse_append, List.reverse_cons, List.append_assoc]
  constructor
  · rw [List.takeWhile_append_of_pos unmarked]
    simp
  · rw [List.dropWhile_append_of_pos unmarked]
    simp

/-- After the last line that is equal to `mark` come the lines after it. -/
theorem afterLast_unlines : afterLast mark (unlines (before ++ mark :: after)) = unlines after := by
  obtain ⟨taken, -⟩ := span_reverse_splitOn_unlines before filled whole unmarked
  rw [List.forall_mem_cons] at whole
  unfold afterLast
  rw [taken, List.reverse_reverse, ← splitOn_unlines whole.2, List.intercalate_splitOn]

/-- Before the last line that is equal to `mark` comes `line`. -/
theorem lineBeforeLast?_unlines {line : Text} (single : '\n' ∉ line) :
    lineBeforeLast? mark (unlines (before ++ line :: mark :: after)) = some line := by
  obtain ⟨-, left⟩ := span_reverse_splitOn_unlines (before ++ [line]) filled whole unmarked
  -- the lines before the mark end with the given one
  rw [List.append_assoc, List.singleton_append] at left
  rw [lineBeforeLast?, left, List.flatMap_append, List.flatMap_singleton,
    List.splitOn_eq_singleton single]
  simp

end

end LabelledEnum.Text
