import LabelledEnum.Proofs.Constant
import LabelledEnum.Proofs.ValueList
import LabelledEnum.Source.EnumClass

/-!
# Labels of a value list

The label of a constant is written into the source of a class as it is, between single quotes. It loses
nothing of the name of the constant but the case of its letters, so different constants have different
labels.

* `Literal.readQuoted?`: the text that PHP reads between single quotes.
* `Literal.readQuoted?_append`: a text without quotes and backslashes is read as it is written.
* `Constant.FaithfulLabel`: what the label of a constant keeps.
* `ValueList.faithful_labels`: all labels of a value list are faithful, and no two are the same.
-/

namespace LabelledEnum

/-! ## Literals in single quotes -/

namespace Literal

/-- The text of a literal in single quotes, once the opening quote has been read, with what comes after the
closing quote. Inside a literal a backslash stands before a quote, and before another backslash where that is
needed; before other characters it is itself a character of the text. -/
def readQuoted? : Text → Option (Text × Text)
  | [] => none
  | '\x27' :: rest => some ([], rest)
  | '\\' :: '\x27' :: rest => (readQuoted? rest).map fun read => ('\x27' :: read.1, read.2)
  | '\\' :: '\\' :: rest => (readQuoted? rest).map fun read => ('\\' :: read.1, read.2)
  | c :: rest => (readQuoted? rest).map fun read => (c :: read.1, read.2)

/-- A `text` without quotes and backslashes is read as it is written. -/
theorem readQuoted?_append {text : Text} (plain : ∀ c ∈ text, c ≠ '\x27' ∧ c ≠ '\\') (rest : Text) :
    readQuoted? (text ++ '\x27' :: rest) = some (text, rest) := by
  induction text with
  | nil => rfl
  | cons c others ih =>
    rw [List.forall_mem_cons] at plain
    obtain ⟨⟨noQuote, noBackslash⟩, plain⟩ := plain
    rw [List.cons_append, readQuoted?, ih plain]
    · rfl
    · exact noQuote
    · exact fun _ backslash => absurd backslash noBackslash
    · exact fun _ backslash => absurd backslash noBackslash

end Literal

/-! ## Labels -/

/-- The label of `constant` keeps all of its name but the case of the letters, and needs no escape. -/
structure Constant.FaithfulLabel (constant : Constant) : Prop where
  /-- The label has letters, digits and spaces only. -/
  plain : ∀ c ∈ constant.label, c.isAlphanum = true ∨ c = ' '
  /-- In the table of a class, PHP reads the label between the quotes around it, by `Literal.readQuoted?`, and
  goes on after them. -/
  quoted : ∃ after, EnumClass.tableEntry constant = "self::" ++ constant.name ++ " => '" ++ after ∧
    Literal.readQuoted? after = some (constant.label, [','])
  /-- The label is as long as the identifier. -/
  length_eq : constant.label.length = constant.identifier.length
  /-- With a `_` for each space and its letters in upper case, the label is the name. -/
  name_eq : constant.label.underscored.upper = constant.name

/-- A constant whose identifier has word characters only has a label that says what its name does. -/
theorem Constant.faithfulLabel {constant : Constant}
    (words : ∀ c ∈ constant.identifier, isWordChar c = true) : constant.FaithfulLabel where
  plain _ := isAlphanum_of_mem_labelOf words
  quoted := by
    have unescaped : ∀ c ∈ constant.label, c ≠ '\x27' ∧ c ≠ '\\' := by
      intro c member
      -- neither of the two is among the characters of a label
      constructor
      · rintro rfl
        exact absurd (isAlphanum_of_mem_labelOf words member) (by decide)
      · rintro rfl
        exact absurd (isAlphanum_of_mem_labelOf words member) (by decide)
    have closing : "',".toList = '\x27' :: [','] := by decide
    have read : Literal.readQuoted? (constant.label ++ "',") = some (constant.label, [',']) := by
      rw [closing]
      exact Literal.readQuoted?_append unescaped [',']
    exact ⟨constant.label ++ "',", List.append_assoc _ _ _, read⟩
  length_eq := length_labelOf constant.identifier
  name_eq := upper_underscored_labelOf words

namespace ValueList

/-- The constants of the value list `raw` have different names. -/
theorem nodup_map_name_constants (raw : Text) (sort : Bool) :
    ((constants raw sort).map Constant.name).Nodup := by
  have names := nodup_map_constantName raw sort
  rw [← map_identifier_enumerate (identifiers raw sort), List.map_map] at names
  exact names

/-- Every label of the value list `raw` is written with letters, digits and spaces, is as long as its identifier
and gives the name of its constant back: it is a `FaithfulLabel`. No two constants have the same label. -/
theorem faithful_labels (raw : Text) (sort : Bool) :
    (∀ constant ∈ constants raw sort, constant.FaithfulLabel) ∧
      ((constants raw sort).map Constant.label).Nodup := by
  have faithful : ∀ constant ∈ constants raw sort, constant.FaithfulLabel :=
    fun _ member => Constant.faithfulLabel (wordChars_of_mem_constants member)
  refine ⟨faithful, List.Nodup.of_map (fun label => label.underscored.upper) ?_⟩
  -- the names are different, and each is known by its label
  have names : ((constants raw sort).map Constant.label).map (fun label => label.underscored.upper) =
      (constants raw sort).map Constant.name := by
    rw [List.map_map]
    exact List.map_congr_left fun constant member => (faithful constant member).name_eq
  rw [names]
  exact nodup_map_name_constants raw sort

-- spaces at the ends and in a row stand for as many underscores
example : (constants "_a__B, PAID plan!, 2nd" false).map Constant.label =
    [" A  B".toList, "PAID Plan ".toList, "2nd".toList] := by
  decide

end ValueList

end LabelledEnum
