import LabelledEnum.Listing.Table
import LabelledEnum.Proofs.Constant
import LabelledEnum.Proofs.Identifier
import LabelledEnum.Proofs.Result
import LabelledEnum.Proofs.Text.Decimal
import LabelledEnum.Proofs.Text.Lines
import Mathlib.Data.List.Basic

/-!
# Reading a table of constants

* `Listing.rowText`, `Listing.table_eq_unlines`: the line for a row, and the lines of a table.
* `Listing.ofTableLine?`, `Listing.ofTableLine?_rowText`: the row that a line shows.
* `Listing.readTable?`, `Listing.readTable?_table`: the rows of a table.
-/

namespace LabelledEnum.Listing

/-! ## Lines -/

/-- The line of the table for `row`, without its end. -/
def rowText (width : Nat) (row : Row) : Text :=
  row.name.alignLeft width ++ " = " ++ Text.ofInt row.value ++ "  " ++ row.label

/-- The line of the table for `constant` is that for its row. -/
theorem tableLine_eq (width : Nat) (start : Int) (constant : Constant) :
    tableLine width start constant = rowText width (constant.row start) ++ ['\n'] := rfl

/-- A table has one line for each of `constants`. -/
theorem table_eq_unlines (start : Int) (constants : List Constant) :
    table start constants =
      Text.unlines ((rows start constants).map (rowText (nameWidth constants))) := by
  rw [table, Text.unlines, List.flatMap_map, rows, List.flatMap_map]
  exact congrArg (constants.flatMap ·) (funext (tableLine_eq _ start))

/-! ## Reading -/

/-- The row that `line` of a table shows: the name ends with its word characters, and the value with the first
space after it. -/
def ofTableLine? (line : Text) : Option Row := do
  let shown ← ((line.dropWhile isWordChar).dropWhile (· = ' ')).dropPrefix? "= "
  let label ← (shown.dropWhile (· ≠ ' ')).dropPrefix? "  "
  return ⟨line.takeWhile isWordChar, ← Text.readInt? (shown.takeWhile (· ≠ ' ')), label⟩

/-- The line for `row` shows the row, as long as its name has word characters only. -/
theorem ofTableLine?_rowText {row : Row} (words : ∀ c ∈ row.name, isWordChar c = true)
    (width : Nat) : ofTableLine? (rowText width row) = some row := by
  obtain ⟨name, value, label⟩ := row
  have line : rowText width ⟨name, value, label⟩ =
      name ++ (List.replicate (width - name.length + 1) ' ' ++
        ("= " ++ (Text.ofInt value ++ ("  " ++ label)))) := by
    simp [rowText, Text.alignLeft, List.rightpad, List.replicate_succ']
  have spaces : ∀ c ∈ List.replicate (width - name.length + 1) ' ', decide (c = ' ') = true :=
    fun c member => decide_eq_true (List.eq_of_mem_replicate member)
  have digits : ∀ c ∈ Text.ofInt value, decide (c ≠ ' ') = true := by
    intro c member
    rw [decide_eq_true_eq]
    rintro rfl
    exact absurd (Text.mem_ofInt member) (by decide)
  -- each part ends before the first character of the next one
  obtain ⟨named, unnamed⟩ := Text.span_append words
    (show ∀ c ∈ (List.replicate (width - name.length + 1) ' ' ++
      ("= " ++ (Text.ofInt value ++ ("  " ++ label)))).head?, isWordChar c = false by
        rintro c ⟨rfl⟩
        decide)
  obtain ⟨-, padded⟩ := Text.span_append spaces
    (show ∀ c ∈ ("= " ++ (Text.ofInt value ++ ("  " ++ label)) : Text).head?,
      decide (c = ' ') = false by
        rintro c ⟨rfl⟩
        decide)
  obtain ⟨valued, unvalued⟩ := Text.span_append digits
    (show ∀ c ∈ ("  " ++ label : Text).head?, decide (c ≠ ' ') = false by
      rintro c ⟨rfl⟩
      decide)
  rw [line, ofTableLine?, unnamed, padded, Text.dropPrefix?_eq_some_iff.2 rfl, Option.bind_eq_bind,
    Option.bind_some, unvalued, Text.dropPrefix?_eq_some_iff.2 rfl, Option.bind_some, valued, named,
    Text.readInt?_eq_some_iff.2 rfl]
  rfl

/-- The rows that a table `text` shows, if each of its lines shows one. -/
def readTable? (text : Text) : Option (List Row) := (Text.lines text).mapM ofTableLine?

/-- A line of a table is made of the characters of the name, the value and the label of `constant` and of what
stands between them. -/
theorem of_mem_rowText {constant : Constant} (words : ∀ c ∈ constant.identifier, isWordChar c = true)
    {width : Nat} {start : Int} {c : Char} (member : c ∈ rowText width (constant.row start)) :
    isWordChar c = true ∨ c ∈ [' ', '=', '-'] := by
  have gaps : (" = " ++ "  " : Text).all [' ', '=', '-'].contains = true := by decide
  have between : ∀ d ∈ (" = " ++ "  " : Text), d ∈ [' ', '=', '-'] :=
    fun d member => List.contains_iff_mem.1 (List.all_eq_true.1 gaps d member)
  rcases List.mem_append.1 member with member | label
  · rcases List.mem_append.1 member with member | gap
    · rcases List.mem_append.1 member with member | value
      · rcases List.mem_append.1 member with name | equals
        · -- the name is filled up with spaces
          rcases List.mem_append.1 name with name | filling
          · exact .inl (isWordChar_of_mem_constantName words name)
          · rw [List.eq_of_mem_replicate filling]
            decide
        · exact .inr (between c (List.mem_append_left _ equals))
      · rcases Text.mem_ofInt value with digit | rfl
        · exact .inl (by simp [isWordChar, Char.isAlphanum, digit])
        · decide
    · exact .inr (between c (List.mem_append_right _ gap))
  · rcases isAlphanum_of_mem_labelOf words label with plain | rfl
    · exact .inl (by simp [isWordChar, plain])
    · decide

/-- A table shows its `constants`, in their order. -/
theorem readTable?_table (start : Int) {constants : List Constant}
    (words : ∀ constant ∈ constants, ∀ c ∈ constant.identifier, isWordChar c = true) :
    readTable? (table start constants) = some (rows start constants) := by
  have shown : ∀ row ∈ rows start constants,
      ofTableLine? (rowText (nameWidth constants) row) = some (id row) := by
    intro row member
    obtain ⟨constant, listed, rfl⟩ := List.mem_map.1 member
    refine ofTableLine?_rowText (fun c => ?_) _
    exact isWordChar_of_mem_constantName (words constant listed)
  have plain : ∀ line ∈ (rows start constants).map (rowText (nameWidth constants)),
      '\n' ∉ line ∧ '\r' ∉ line := by
    intro line member
    obtain ⟨row, row_mem, rfl⟩ := List.mem_map.1 member
    obtain ⟨constant, listed, rfl⟩ := List.mem_map.1 row_mem
    have word := words constant listed
    exact ⟨fun member => absurd (of_mem_rowText word member) (by decide),
      fun member => absurd (of_mem_rowText word member) (by decide)⟩
  rw [readTable?, table_eq_unlines, Text.lines_unlines_eq_self plain]
  exact (mapM_map_of_some shown).trans (congrArg some (List.map_id _))

end LabelledEnum.Listing
