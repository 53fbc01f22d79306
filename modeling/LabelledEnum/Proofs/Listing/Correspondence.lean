import LabelledEnum.Proofs.Listing.Json
import LabelledEnum.Proofs.Listing.Table
import LabelledEnum.Proofs.Text.Bytes
import LabelledEnum.Proofs.ValueList
import Mathlib.Data.List.Forall2

/-!
# The two listings show the same

JSON holds every constant, whatever its identifier is made of. A table has no escapes, so it can be read back
and its columns are straight because the identifiers of a value list are made of word characters.

* `Listing.Describes`, `Listing.describes_entries`: an object of JSON holds everything about a constant.
* `Listing.longestName`, `Listing.nameWidth_eq`: the name column is as wide as the longest name.
* `Listing.AlignedAt`, `Listing.alignedAt_rowText`: the place of the equals sign in a line of a table.
* `Listing.splitOn_table`: the lines of a table.
* `Listing.listings_correspond`: the lines of a table show what the objects of JSON show, in the same order.
-/

namespace LabelledEnum.Listing

open Json

/-! ## Objects -/

/-- The `object` holds everything about `constant` in an enum whose first value is `start`. -/
structure Describes (start : Int) (object : Object) (constant : Constant) : Prop where
  /-- It has these keys and no others. -/
  keys : object.map Prod.fst = ["identifier", "label", "name", "value"]
  /-- The identifier. -/
  identifier : datumOf? object "identifier" = some (.string constant.identifier)
  /-- The name. -/
  name : datumOf? object "name" = some (.string constant.name)
  /-- The label. -/
  label : datumOf? object "label" = some (.string constant.label)
  /-- The value, which is a number if it fits in 64 bits with sign, and a string of its digits otherwise. -/
  value : ∃ datum, datumOf? object "value" = some datum ∧
    datum.integer? = some (start + constant.ordinal) ∧
    ((∃ n, datum = .number n) ↔
      -9223372036854775808 ≤ start + constant.ordinal ∧ start + constant.ordinal ≤ 9223372036854775807)

/-- A value is shown as a number exactly if `n` fits in 64 bits with sign. -/
theorem isNumber_valueDatum_iff (n : Int) :
    (∃ m, valueDatum n = .number m) ↔ -9223372036854775808 ≤ n ∧ n ≤ 9223372036854775807 := by
  have fits : fitsInt64 n = true ↔ -9223372036854775808 ≤ n ∧ n ≤ 9223372036854775807 := by
    rw [fitsInt64, decide_eq_true_eq]
  rw [← fits, valueDatum]
  split <;> simp [*]

theorem describes_entries (start : Int) (constant : Constant) :
    Describes start (entries start constant) constant := by
  obtain ⟨identifier, name, value, label⟩ := datumOf?_entries start constant
  exact {
    keys := rfl
    identifier
    name
    label
    value := ⟨_, value, integer?_valueDatum _, isNumber_valueDatum_iff _⟩ }

/-! ## Columns -/

/-- The length of the longest name of `constants`. -/
def longestName (constants : List Constant) : Nat :=
  (constants.map (·.name.length)).max?.getD 0

theorem length_name_le_longestName {constants : List Constant} {constant : Constant}
    (member : constant ∈ constants) : constant.name.length ≤ longestName constants := by
  have listed : constant.name.length ∈ constants.map (·.name.length) := List.mem_map_of_mem member
  unfold longestName
  cases longest : (constants.map (·.name.length)).max? with
  | none =>
    rw [List.max?_eq_none_iff.1 longest] at listed
    cases listed
  | some width => exact (List.max?_eq_some_iff.1 longest).2 _ listed

/-- Names of word characters have as many bytes as characters, so `nameWidth` is the length of the longest of
them. -/
theorem nameWidth_eq {constants : List Constant}
    (words : ∀ constant ∈ constants, ∀ c ∈ constant.name, isWordChar c = true) :
    nameWidth constants = longestName constants := by
  have bytes : constants.map (·.name.utf8Length) = constants.map (·.name.length) :=
    List.map_congr_left fun constant member =>
      Text.utf8Length_eq_length fun c inside => toNat_lt_of_isWordChar (words constant member c inside)
  rw [nameWidth, bytes, List.foldl_max, longestName]
  exact Nat.zero_max _

/-- An equals sign between spaces begins in the given `column` of `line`, which has no other one. -/
def AlignedAt (column : Nat) (line : Text) : Prop :=
  ∃ before after, line = before ++ " = " ++ after ∧ before.length = column ∧
    '=' ∉ before ∧ '=' ∉ after

theorem alignedAt_rowText {constant : Constant} (words : ∀ c ∈ constant.identifier, isWordChar c = true)
    {width : Nat} (fits : constant.name.length ≤ width) (start : Int) :
    AlignedAt width (rowText width (constant.row start)) := by
  refine ⟨constant.name.alignLeft width,
    Text.ofInt (constant.value start) ++ "  " ++ constant.label, ?_, ?_, ?_, ?_⟩
  · simp [rowText, Constant.row]
  · rw [Text.alignLeft, List.length_rightpad, Nat.max_eq_left fits]
  · intro equals
    rcases List.mem_append.1 equals with name | filling
    · exact absurd (isWordChar_of_mem_constantName words name) (by decide)
    · exact absurd (List.eq_of_mem_replicate filling) (by decide)
  · intro equals
    rcases List.mem_append.1 equals with equals | label
    · rcases List.mem_append.1 equals with value | gap
      · exact absurd (Text.mem_ofInt value) (by decide)
      · exact absurd gap (by decide)
    · exact absurd (isAlphanum_of_mem_labelOf words label) (by decide)

/-- Cut at its line feeds, a table of `constants` with word characters only has one line for each of them, and
nothing after the last one. -/
theorem splitOn_table {constants : List Constant}
    (words : ∀ constant ∈ constants, ∀ c ∈ constant.identifier, isWordChar c = true) (start : Int) :
    (table start constants).splitOn '\n' =
      constants.map (fun constant => rowText (longestName constants) (constant.row start)) ++ [[]] := by
  have width : nameWidth constants = longestName constants :=
    nameWidth_eq fun constant listed _ => isWordChar_of_mem_constantName (words constant listed)
  have whole : ∀ line ∈ (rows start constants).map (rowText (longestName constants)), '\n' ∉ line := by
    rw [rows, List.map_map]
    refine List.forall_mem_map.2 fun constant listed newline => ?_
    exact absurd (of_mem_rowText (words constant listed) newline) (by decide)
  rw [table_eq_unlines, width, Text.splitOn_unlines whole, rows, List.map_map]
  rfl

/-! ## Both listings -/

/-- The `line` of a table shows what `object` shows. -/
def SameRow (line : Text) (object : Object) : Prop :=
  ∃ row, ofTableLine? line = some row ∧ rowOf? object = some row

/-- From the JSON of any constants, all about each of them can be read, in their order, and `Describes` it. For
the constants of a value list, the table has one line for each, in which the equals sign follows a column as
wide as the longest name, and these lines show the names, values and labels of the objects of the JSON. -/
theorem listings_correspond (start : Int) :
    (∀ constants : List Constant, ∃ objects,
      readJson? (json start constants) = some objects ∧
        List.Forall₂ (Describes start) objects constants) ∧
      ∀ (raw : Text) (sort : Bool),
        let constants := ValueList.constants raw sort
        ∃ objects lines, readJson? (json start constants) = some objects ∧
          (table start constants).splitOn '\n' = lines ++ [[]] ∧ lines.length = constants.length ∧
          (∀ line ∈ lines, AlignedAt (longestName constants) line) ∧
          List.Forall₂ SameRow lines objects := by
  have read : ∀ constants, readJson? (json start constants) = some (constants.map (entries start)) := by
    intro constants
    have blank : scan? [] = some [] := rfl
    have objects := readJson?_json start constants blank
    rwa [List.append_nil] at objects
  constructor
  · intro constants
    refine ⟨_, read constants, ?_⟩
    rw [List.forall₂_map_left_iff, List.forall₂_same]
    exact fun constant _ => describes_entries start constant
  · intro raw sort constants
    have words : ∀ constant ∈ constants, ∀ c ∈ constant.identifier, isWordChar c = true :=
      fun _ => ValueList.wordChars_of_mem_constants
    refine ⟨_, _, read constants, splitOn_table words start, List.length_map _, ?_, ?_⟩
    · refine List.forall_mem_map.2 fun constant listed => ?_
      exact alignedAt_rowText (words constant listed) (length_name_le_longestName listed) start
    · rw [List.forall₂_map_left_iff, List.forall₂_map_right_iff, List.forall₂_same]
      intro constant listed
      refine ⟨constant.row start, ofTableLine?_rowText (fun c => ?_) _, rowOf?_entries start constant⟩
      exact isWordChar_of_mem_constantName (words constant listed)

-- the second value is one more than fits in 64 bits
example : (readJson? (json 9223372036854775807 (ValueList.constants "paid, in_progress" false))).map
      (·.map (datumOf? · "value")) =
    some [some (.number 9223372036854775807), some (.string "9223372036854775808")] := by
  decide +kernel

end LabelledEnum.Listing
